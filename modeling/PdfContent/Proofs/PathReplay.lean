import PdfContent.Proofs.PathPainting

/-!
# Paths that are told twice

A path is told to the device twice: segment by segment while it is built, and as a whole when it is
painted or clipped to. `Entry.replay` builds paths from the log alone, one for each stream that is
open, and `Replays` says of a log that each path told as a whole is the one that was told by
segments.

The invariant of a run is that the path under construction is well built and is the latest of the
replayed ones. Only while an operator paints, the run has taken the path already, and the replay
drops it at the end of that operator.
-/

namespace PdfContent

variable {K σ α : Type}

/-! ### Well-built paths -/

/-- The point at which a segment starts a subpath, if it does. -/
def Segment.start? : Segment K → Option (Point K)
  | .moveTo p => some p
  | _ => none

namespace Path

/-- Where the latest subpath starts. -/
def latestStart? (segments : List (Segment K)) : Option (Point K) :=
  segments.reverse.findSome? Segment.start?

/-- Where the last segment ends; one that closes a subpath ends where the subpath starts. -/
def endPoint? (segments : List (Segment K)) : Option (Point K) :=
  match segments.getLast? with
  | none => none
  | some (.moveTo p) => some p
  | some (.lineTo p) => some p
  | some (.curveTo _ _ p) => some p
  | some .close => latestStart? segments

/-- If there are segments, they start a subpath. -/
def Begun (segments : List (Segment K)) : Prop :=
  segments = [] ∨ ∃ p rest, segments = .moveTo p :: rest

@[simp] theorem latestStart?_concat (segments : List (Segment K)) (s : Segment K) :
    latestStart? (segments ++ [s]) = s.start?.or (latestStart? segments) := by
  rw [latestStart?, List.reverse_concat, List.findSome?_cons]
  cases s.start? <;> rfl

@[simp] theorem endPoint?_concat (segments : List (Segment K)) (s : Segment K) :
    endPoint? (segments ++ [s]) = match s with
      | .moveTo p => some p
      | .lineTo p => some p
      | .curveTo _ _ p => some p
      | .close => latestStart? segments := by
  rw [endPoint?, List.getLast?_concat]
  cases s <;> simp [Segment.start?]

theorem Begun.concat {segments : List (Segment K)} (begun : Begun segments) {s : Segment K}
    (ready : s.start?.isSome = true ∨ segments ≠ []) : Begun (segments ++ [s]) := by
  rcases begun with rfl | ⟨p, rest, rfl⟩
  · rcases ready with starts | some
    · cases s with
      | moveTo p => exact .inr ⟨p, [], rfl⟩
      | _ => cases starts
    · exact absurd rfl some
  · exact .inr ⟨p, rest ++ [s], rfl⟩

theorem Begun.isSome_latestStart? {segments : List (Segment K)} (begun : Begun segments)
    (something : segments ≠ []) : (latestStart? segments).isSome = true := by
  rcases begun with rfl | ⟨p, rest, rfl⟩
  · exact absurd rfl something
  · rw [latestStart?, List.findSome?_isSome_iff]
    exact ⟨.moveTo p, by simp, rfl⟩

end Path

/-- The builder knows where its segments start and end. -/
structure PathBuilder.WellBuilt (b : PathBuilder K) : Prop where
  current : b.current = Path.endPoint? b.segments
  start : b.subpathStart = Path.latestStart? b.segments
  begun : Path.Begun b.segments

namespace PathBuilder.WellBuilt

variable {b : PathBuilder K}

theorem empty : (PathBuilder.empty : PathBuilder K).WellBuilt := ⟨rfl, rfl, .inl rfl⟩

/-- There is a current point as soon as there is a segment. -/
theorem isSome_current (wellBuilt : b.WellBuilt) : b.current.isSome = true ↔ b.segments ≠ [] := by
  rw [wellBuilt.current, Path.endPoint?]
  constructor
  · intro current nothing
    rw [nothing] at current
    cases current
  · intro something
    have start := wellBuilt.begun.isSome_latestStart? something
    cases last : b.segments.getLast? with
    | none => exact absurd (List.getLast?_eq_none_iff.mp last) something
    | some s => cases s <;> first | rfl | exact start

/-- A segment is added that starts a subpath or goes on from the current point. -/
theorem push (wellBuilt : b.WellBuilt) {s : Segment K} {b' : PathBuilder K}
    (ready : s.start?.isSome = true ∨ b.current.isSome = true)
    (segments : b'.segments = b.segments ++ [s])
    (current : b'.current = Path.endPoint? (b.segments ++ [s]))
    (start : b'.subpathStart = s.start?.or b.subpathStart) : b'.WellBuilt where
  current := by rw [current, segments]
  start := by rw [start, segments, Path.latestStart?_concat, wellBuilt.start]
  begun := segments ▸ wellBuilt.begun.concat (ready.imp_right wellBuilt.isSome_current.mp)

theorem moveTo (wellBuilt : b.WellBuilt) (p : Point K) : (b.moveTo p).WellBuilt :=
  wellBuilt.push (s := .moveTo p) (.inl rfl) rfl (by simp [PathBuilder.moveTo, PathBuilder.push])
    rfl

theorem lineTo (wellBuilt : b.WellBuilt) (current : b.current.isSome = true) (p : Point K) :
    (b.lineTo p).WellBuilt :=
  wellBuilt.push (s := .lineTo p) (.inr current) rfl
    (by simp [PathBuilder.lineTo, PathBuilder.push]) rfl

theorem curveTo (wellBuilt : b.WellBuilt) (current : b.current.isSome = true) (p q r : Point K) :
    (b.curveTo p q r).WellBuilt :=
  wellBuilt.push (s := .curveTo p q r) (.inr current) rfl
    (by simp [PathBuilder.curveTo, PathBuilder.push]) rfl

/-- Where there is a current point, there is a subpath to close. -/
theorem segments_close (wellBuilt : b.WellBuilt) (current : b.current.isSome = true) :
    b.close.segments = b.segments ++ [.close] := by
  have start := wellBuilt.begun.isSome_latestStart? (wellBuilt.isSome_current.mp current)
  rw [← wellBuilt.start] at start
  rw [PathBuilder.close]
  split
  next nothing =>
    rw [nothing] at start
    cases start
  · rfl

theorem close (wellBuilt : b.WellBuilt) : b.close.WellBuilt := by
  cases start : b.subpathStart with
  | none =>
      rw [PathBuilder.close, start]
      exact wellBuilt
  | some p =>
      rw [PathBuilder.close, start]
      have something : b.segments ≠ [] := by
        intro nothing
        have missing := wellBuilt.start
        rw [start, nothing] at missing
        cases missing
      refine wellBuilt.push (s := .close) (.inr (wellBuilt.isSome_current.mpr something)) rfl ?_ rfl
      rw [Path.endPoint?_concat, ← wellBuilt.start, start]
      rfl

theorem quad (wellBuilt : b.WellBuilt) (p q r s : Point K) : (b.quad p q r s).WellBuilt :=
  ((((wellBuilt.moveTo p).lineTo rfl q).lineTo rfl r).lineTo rfl s).close

end PathBuilder.WellBuilt

/-! ### Building as the device is told -/

/-- The segments that the device is told by an event. -/
def Event.segments : Event K σ → List (Segment K)
  | .moveTo p => [.moveTo p]
  | .lineTo p => [.lineTo p]
  | .curveTo p q r => [.curveTo p q r]
  | .closePath => [.close]
  | .rectangle p q r s => [.moveTo p, .lineTo q, .lineTo r, .lineTo s, .close]
  | _ => []

namespace Event

variable {e : Event K σ} {f : PathBuilder K → PathBuilder K}

theorem segments_of_builder?_eq_none (builder : e.builder? = none) : e.segments = [] := by
  cases e <;> first | rfl | cases builder

theorem path?_of_builder? (builder : e.builder? = some f) : e.path? = none := by
  cases e <;> first | rfl | cases builder

/-- A well-built path stays so, and grows by what the device is told. -/
theorem wellBuilt_builder (builder : e.builder? = some f) {b : PathBuilder K}
    (wellBuilt : b.WellBuilt) (ready : e.startsSubpath = true ∨ b.current.isSome = true) :
    (f b).WellBuilt ∧ (f b).segments = b.segments ++ e.segments := by
  have current (goesOn : e.startsSubpath = false) : b.current.isSome = true :=
    ready.resolve_left (by simp [goesOn])
  cases e with
  | moveTo p =>
      cases builder
      exact ⟨wellBuilt.moveTo p, rfl⟩
  | lineTo p =>
      cases builder
      exact ⟨wellBuilt.lineTo (current rfl) p, rfl⟩
  | curveTo p q r =>
      cases builder
      exact ⟨wellBuilt.curveTo (current rfl) p q r, rfl⟩
  | closePath =>
      cases builder
      exact ⟨wellBuilt.close, wellBuilt.segments_close (current rfl)⟩
  | rectangle p q r s =>
      cases builder
      refine ⟨wellBuilt.quad p q r s, ?_⟩
      simp [PathBuilder.quad, PathBuilder.close, PathBuilder.lineTo, PathBuilder.moveTo,
        PathBuilder.push, segments]
  | _ => cases builder

end Event

/-! ### Replaying a log -/

/-- The paths of the streams that are open, innermost first, after one more entry of a log: the
device is told a segment of the innermost, an operator that paints it is done, or a stream begins or
ends. -/
def Entry.replay (paths : List (List (Segment K))) : Entry K σ → List (List (Segment K))
  | .event e =>
    match paths with
    | [] => []
    | path :: outer => (path ++ e.segments) :: outer
  | .started .. => paths
  | .finished call _ _ =>
    if call.operator.keyword ∈ Operators.pathPaintingKeywords then [] :: paths.tail else paths
  | .opened .. => [] :: paths
  | .closed .. => paths.tail

/-- The paths after a log. -/
def Entry.replayed (paths : List (List (Segment K))) (log : List (Entry K σ)) :
    List (List (Segment K)) :=
  log.foldl Entry.replay paths

/-- A path that the device is given as a whole is the one of the innermost stream. It is not empty
and starts with a subpath. -/
def Entry.Fits (paths : List (List (Segment K))) (x : Entry K σ) : Prop :=
  ∀ e path, x = .event e → e.path? = some path →
    paths.head? = some path.segments ∧ ∃ p rest, path.segments = .moveTo p :: rest

/-- All paths in the log are what is replayed up to them; the paths after the log are given. -/
inductive Replays : List (List (Segment K)) → List (Entry K σ) → List (List (Segment K)) → Prop
  | nil {paths} : Replays paths [] paths
  | cons {paths x log paths'} (fits : Entry.Fits paths x)
    (rest : Replays (x.replay paths) log paths') : Replays paths (x :: log) paths'

namespace Replays

variable {paths paths' paths'' outer : List (List (Segment K))} {path : List (Segment K)}
  {log log' : List (Entry K σ)} {x : Entry K σ} {e : Event K σ}

theorem append (first : Replays paths log paths') (second : Replays paths' log' paths'') :
    Replays paths (log ++ log') paths'' := by
  induction first with
  | nil => exact second
  | cons fits _ ih => exact .cons fits (ih second)

/-- A mark between the events. -/
theorem mark (noEvent : x.event? = none) (rest : Replays (x.replay paths) log paths') :
    Replays paths (x :: log) paths' := by
  refine .cons ?_ rest
  rintro e _ rfl _
  cases noEvent

/-- Something that builds no path is told, perhaps with the path that has been built. -/
theorem event (builder : e.builder? = none)
    (given : ∀ q, e.path? = some q → q.segments = path ∧ ∃ p rest, path = .moveTo p :: rest) :
    Replays (path :: outer) [.event e] (path :: outer) := by
  have kept : Entry.replay (path :: outer) (.event e) = path :: outer := by
    simp [Entry.replay, Event.segments_of_builder?_eq_none builder]
  refine .cons ?_ (kept.symm ▸ .nil)
  rintro _ q ⟨⟩ some
  obtain ⟨rfl, begun⟩ := given q some
  exact ⟨rfl, begun⟩

theorem event_of_none (builder : e.builder? = none) (noPath : e.path? = none) :
    Replays (path :: outer) [.event e] (path :: outer) :=
  event builder fun q some => by simp [noPath] at some

/-- Wherever the log is split, the entry behind fits what is replayed up to it. -/
theorem fits (replays : Replays paths log paths') {before after : List (Entry K σ)}
    (split : log = before ++ x :: after) : Entry.Fits (Entry.replayed paths before) x := by
  induction replays generalizing before with
  | nil => simp at split
  | cons fits _ ih =>
      cases before with
      | nil =>
          cases split
          exact fits
      | cons y before =>
          obtain ⟨rfl, rest⟩ := List.cons.inj split
          exact ih rest

end Replays

/-- What nested streams log replays by itself. -/
def NestedRun.Replays (nested : NestedRun K σ) : Prop :=
  ∀ content scope setup s paths,
    PdfContent.Replays paths (nested content scope setup s).log paths

/-- The log tells how the path goes on, up to where the outcome has it. -/
structure Outcome.BuildsPath {ε : Type} (s : RunState K σ) (o : Outcome ε K σ α) : Prop where
  wellBuilt : o.state.path.WellBuilt
  replays : ∀ outer, Replays (s.path.segments :: outer) o.log (o.state.path.segments :: outer)

theorem Outcome.BuildsPath.of_path {ε : Type} {s t : RunState K σ} {o : Outcome ε K σ α}
    (builds : o.BuildsPath t) (same : t.path = s.path) : o.BuildsPath s :=
  ⟨builds.wellBuilt, same ▸ builds.replays⟩

/-- An operator that paints the path has dropped it; the replay keeps it until that is done. -/
structure Outcome.PaintsPath (s : RunState K σ) (o : Outcome OperatorError K σ α) : Prop where
  empty : o.state.path = .empty
  replays : ∃ path, ∀ outer, Replays (s.path.segments :: outer) o.log (path :: outer)

section Actions

variable {nested : NestedRun K σ} {environment : RunState K σ → Environment K σ}
  {env : Environment K σ} {less : Options}

theorem Draws.buildsPath (restores : nested.Restores) (inner : nested.Replays) {c : Context K σ}
    {x y : Action K σ α} (draws : Draws False env less c x y) {s : RunState K σ}
    (stable : ∀ t, t.place = s.place → environment t = env) (here : s.toContext = c)
    (wellBuilt : s.path.WellBuilt) : (x.run environment nested s).BuildsPath s := by
  induction draws generalizing s with
  | finish _ => exact ⟨wellBuilt, fun _ => .nil⟩
  | look _ ih =>
      subst here
      rw [Action.run, stable s rfl]
      exact ih stable rfl wellBuilt
  | glance _ ih =>
      subst here
      rw [Action.run, stable s rfl]
      exact ih stable rfl wellBuilt
  | @change c f x y calm _ ih =>
      subst here
      have same : (s.updateContext f).path = s.path := calm.path
      exact (ih (s := s.updateContext f) stable rfl (same ▸ wellBuilt)).of_path same
  | tell plain _ ih =>
      obtain ⟨built, replays⟩ := ih stable here wellBuilt
      refine ⟨built, fun outer => ?_⟩
      exact (Replays.event_of_none plain.builder plain.path).append (replays outer)
  | remark _ _ _ ih =>
      obtain ⟨built, replays⟩ := ih stable here wellBuilt
      exact ⟨built, fun outer => (Replays.event_of_none rfl rfl).append (replays outer)⟩
  | @build c e f x y builder ready _ ih =>
      subst here
      obtain ⟨now, segments⟩ := Event.wellBuilt_builder builder wellBuilt ready
      obtain ⟨built, replays⟩ :=
        ih (s := s.updateContext fun c => { c with path := f c.path }) stable rfl now
      refine ⟨built, fun outer => .cons ?_ ?_⟩
      · rintro _ given ⟨⟩ some
        cases (Event.path?_of_builder? builder).symm.trans some
      · have grown : Entry.replay (s.path.segments :: outer) (.event e) =
            (f s.path).segments :: outer := by
          rw [segments]
          rfl
        rw [grown]
        exact replays outer
  | @nest c content scope setup next next' _ _ ih =>
      obtain ⟨built, replays⟩ :=
        ih (nested content scope setup s).result False.elim stable here wellBuilt
      rw [Action.run, restores]
      exact ⟨built, fun outer => (inner content scope setup s _).append (replays outer)⟩
  | @aside c content scope setup next y _ _ _ fatal ih =>
      rw [Action.run, restores]
      cases fault : faultOf? (nested content scope setup s).result with
      | none =>
          obtain ⟨built, replays⟩ :=
            ih (nested content scope setup s).result False.elim fault stable here wellBuilt
          exact ⟨built, fun outer => (inner content scope setup s _).append (replays outer)⟩
      | some cause =>
          rw [faultOf?_eq_some.mp fault, fatal]
          exact ⟨wellBuilt, fun outer => (inner content scope setup s _).append .nil⟩

end Actions

variable [Scalar K]

namespace Operators

variable {r : RunSettings K σ} {scope : σ} {nested : NestedRun K σ}
  {path : List (Segment K)} {outer : List (List (Segment K))}

theorem replays_cellOutcome (inner : nested.Replays) (name : String)
    (pattern : TilingPattern K σ) (paint : Option (ColorSpace × Color K)) (s : RunState K σ) :
    Replays (path :: outer) (cellOutcome r scope nested name pattern paint s).log
      (path :: outer) := by
  rw [cellOutcome]
  split
  · exact .nil
  · refine Replays.append (Replays.event_of_none (e := .beginPattern _ _) rfl rfl) ?_
    exact (inner _ _ _ _ _).append (Replays.event_of_none (e := .endPattern) rfl rfl)

/-- A cell outside all streams, with the warning about one that may not be opened. -/
theorem replays_paintCellAlone (restores : nested.Restores) (inner : nested.Replays)
    (name : String) (pattern : TilingPattern K σ) (paint : Option (ColorSpace × Color K))
    (s : RunState K σ) :
    Replays (path :: outer)
      ((paintCellAlone name pattern paint).run (r.environment scope) nested s).log
      (path :: outer) := by
  have warned (e : OperatorError) (t : RunState K σ) : Replays (path :: outer)
      ((Action.warnError "PaintType" e).run (r.environment scope) nested t).log
      (path :: outer) := by
    change Replays _ (Action.run _ _ (if r.options.collectWarnings then _ else _) t).log _
    split
    · exact .event_of_none rfl rfl
    · exact .nil
  have cell : Replays (path :: outer) (cellOutcome r scope nested name pattern paint s).log
      (path :: outer) := replays_cellOutcome inner name pattern paint s
  rw [paintCellAlone, Action.run_handle, run_paintCell restores]
  dsimp only
  split
  · exact cell
  next e _ =>
    refine cell.append ?_
    cases e with
    | fatal cause => exact .nil
    | _ => exact warned _ _

theorem replays_fillOutcome (inner : nested.Replays) (area? : Option (Path K × FillRule))
    (s : RunState K σ) :
    Replays (path :: outer) (fillOutcome r scope nested area? s).log (path :: outer) := by
  simp only [fillOutcome]
  split
  · exact .nil
  split
  · exact .nil
  · exact replays_cellOutcome inner _ _ _ _

omit [Scalar K] in
/-- What is told of a painted path fits the segments that were told before. -/
theorem replays_told (painting : Painting) {c : Context K σ} (wellBuilt : c.path.WellBuilt) :
    Replays (c.path.segments :: outer) ((painting.told c).map Entry.event)
      (c.path.segments :: outer) := by
  rw [Painting.told]
  split
  · exact .nil
  next something =>
    have begun : ∃ p rest, c.path.segments = .moveTo p :: rest := by
      refine wellBuilt.begun.resolve_left fun nothing => something ?_
      rw [Path.isEmpty, PathBuilder.path, nothing]
      rfl
    have given (e : Event K σ) (builder : e.builder? = none)
        (path : ∀ q, e.path? = some q → q = c.path.path) :
        Replays (c.path.segments :: outer) [.event e] (c.path.segments :: outer) := by
      refine .event builder fun q some => ?_
      obtain rfl := path q some
      exact ⟨rfl, begun⟩
    have paints := given (painting.event c.path.path c.state) (by cases painting <;> rfl)
      (by cases painting <;> simp [Painting.event, Event.path?])
    have clips (rule : FillRule) := given (.clip c.path.path rule) rfl (by simp [Event.path?])
    refine Replays.append paints ?_
    cases c.pendingClip with
    | none => exact .nil
    | some rule => exact clips rule

theorem paintsPath_finishPath (restores : nested.Restores) (inner : nested.Replays)
    (painting : Painting) (call : Call K) {s : RunState K σ} (wellBuilt : s.path.WellBuilt) :
    ((finishPath painting call).run (r.environment scope) nested s).PaintsPath s := by
  rw [run_finishPath restores]
  refine ⟨?_, s.path.segments, fun outer => ?_⟩
  · rw [Outcome.state_after, state_fillOutcome]
    exact Context.path_painted _
  · exact (replays_told painting wellBuilt).append (replays_fillOutcome inner _ _)

/-- What carrying out an operator comes to for the path. -/
theorem path_dispatch (restores : nested.Restores) (inner : nested.Replays) (call : Call K)
    {s : RunState K σ} (wellBuilt : s.path.WellBuilt) :
    let o := (graphicsTable.dispatch call).run (r.environment scope) nested s
    if call.operator.keyword ∈ pathPaintingKeywords then o.PaintsPath s else o.BuildsPath s := by
  intro o
  have run : o = (graphicsTable.dispatch call).run (r.environment scope) nested s := rfl
  have stable (t : RunState K σ) (same : t.place = s.place) :
      r.environment scope t = r.environment scope s := by
    simp only [RunSettings.environment, same]
  cases carried_dispatch (σ := σ) call with
  | saves keyword same =>
      rw [run, same, keyword]
      exact ⟨wellBuilt, fun _ => .nil⟩
  | restores keyword same =>
      rw [run, same, keyword]
      obtain ⟨⟨⟨current, saved⟩, _⟩, _⟩ := s
      cases saved <;> exact ⟨wellBuilt, fun _ => .nil⟩
  | paints keyword painting same =>
      rw [run, same, if_pos keyword]
      exact paintsPath_finishPath restores inner painting call wellBuilt
  | closes keyword painting same =>
      have draws : Draws False (r.environment scope s) r.options s.toContext
        (closePath (σ := σ) call) (closePath call) := draws_closePath call
      obtain ⟨built, closes⟩ := draws.buildsPath restores inner stable rfl wellBuilt
      obtain ⟨empty, path, paints⟩ :=
        paintsPath_finishPath (r := r) restores inner painting call built
      rw [run, same, if_pos keyword, Action.run_bind,
        Outcome.andThen_of_ok (result_closePath call s)]
      exact ⟨empty, path, fun outer => (closes outer).append (paints outer)⟩
  | follows keeping follows =>
      rw [if_neg keeping.2]
      exact (follows (r.environment scope s) s.toContext False r.options (.refl _)).buildsPath
        restores inner stable rfl wellBuilt

end Operators

namespace StreamSettings

variable (stream : StreamSettings K σ)

omit [Scalar K] in
/-- The marks around an operator, and the warning about its failure. -/
theorem replays_around {r : RunSettings K σ} {call : Call K} {start : RunState K σ}
    {o : Outcome OperatorError K σ Unit} {path path' path'' : List (Segment K)}
    {outer : List (List (Segment K))} (told : Replays (path :: outer) o.log (path' :: outer))
    (done : Entry.replay (path' :: outer) (.finished call o.result o.state) = path'' :: outer) :
    Replays (path :: outer) (.started call start :: o.log ++ r.report call o.state o.result ++
      [.finished call o.result o.state]) (path'' :: outer) := by
  have reported : Replays (path' :: outer) (r.report call o.state o.result) (path' :: outer) := by
    cases o.result with
    | ok _ => exact .nil
    | error e =>
        rw [RunSettings.report]
        split
        · exact .event_of_none rfl rfl
        · exact .nil
  have finished : Replays (path' :: outer) [.finished call o.result o.state] (path'' :: outer) :=
    .mark rfl (done ▸ .nil)
  rw [List.cons_append, List.cons_append]
  exact .mark rfl ((told.append reported).append finished)

/-- An operator with all that it tells. -/
theorem buildsPath_perform (graphics : stream.table = Operators.graphicsTable)
    (restores : stream.nested.Restores) (inner : stream.nested.Replays) (index : Nat)
    (call : Call K) {s : RunState K σ} (wellBuilt : s.path.WellBuilt) :
    (stream.perform index call s).BuildsPath s := by
  let start : RunState K σ := { s with index }
  let o : Outcome OperatorError K σ Unit := (Operators.graphicsTable.dispatch call).run
    (stream.environment stream.scope) stream.nested start
  have carried : if call.operator.keyword ∈ Operators.pathPaintingKeywords then o.PaintsPath start
      else o.BuildsPath start := Operators.path_dispatch restores inner call wellBuilt
  have performed : stream.perform index call s = { o with
      log := .started call start :: o.log ++ stream.report call o.state o.result ++
        [.finished call o.result o.state] } := by
    rw [perform, graphics]
  rw [performed]
  clear_value o
  by_cases paints : call.operator.keyword ∈ Operators.pathPaintingKeywords
  · rw [if_pos paints] at carried
    obtain ⟨empty, path, replays⟩ := carried
    refine ⟨empty ▸ .empty, fun outer => replays_around (replays outer) ?_⟩
    rw [Entry.replay, if_pos paints, empty]
    rfl
  · rw [if_neg paints] at carried
    obtain ⟨built, replays⟩ := carried
    refine ⟨built, fun outer => replays_around (replays outer) ?_⟩
    rw [Entry.replay, if_neg paints]

/-- However tokens end. -/
theorem buildsPath_runTokens (graphics : stream.table = Operators.graphicsTable)
    (restores : stream.nested.Restores) (inner : stream.nested.Replays)
    (fault : Option ContentError) (operands : List (Operand K)) (count : Nat) (s : RunState K σ)
    (tokens : List (Token K)) (wellBuilt : s.path.WellBuilt) :
    (stream.runTokens fault operands count s tokens).BuildsPath s := by
  induction tokens generalizing operands count s with
  | nil => cases fault <;> exact ⟨wellBuilt, fun _ => .nil⟩
  | cons token rest ih =>
      cases token with
      | operand v => exact ih _ _ s wellBuilt
      | operator op =>
          obtain ⟨built, replays⟩ :=
            stream.buildsPath_perform graphics restores inner count ⟨op, operands⟩ wellBuilt
          simp only [runTokens]
          split
          · exact ⟨built, replays⟩
          · obtain ⟨built', replays'⟩ := ih [] (count + 1) _ built
            exact ⟨built', fun outer => (replays outer).append (replays' outer)⟩

end StreamSettings

namespace RunSettings

/-- By induction on the levels: a nested stream begins with no path, and its path is dropped. -/
theorem replays_nestedRun (r : RunSettings K σ) (graphics : r.table = Operators.graphicsTable)
    (levels : Nat) : (r.nestedRun levels).Replays := by
  induction levels with
  | zero =>
      intro content scope setup s paths
      rw [nestedRun]
      split <;> exact .nil
  | succ levels ih =>
      intro content scope setup s paths
      rw [nestedRun]
      split
      · exact .nil
      · let inner : StreamSettings K σ := { r with scope, nested := r.nestedRun levels }
        obtain ⟨-, replays⟩ := inner.buildsPath_runTokens graphics (r.restores_nestedRun levels) ih
          _ [] 0 (s.enter setup) (Content.TokenStream.ofBytes content).values .empty
        exact .mark rfl ((replays paths).append (.mark rfl .nil))

end RunSettings

end PdfContent
