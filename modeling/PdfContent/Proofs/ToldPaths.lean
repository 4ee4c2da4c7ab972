import PdfContent.Proofs.Clipping
import PdfContent.Proofs.PathReplay

/-!
# The device can trust the paths that it is given

Put together from the replay of logs and from the steps of a run: whenever the device is given a
path, it is the one that the same stream has told it segment by segment, and at every moment of a
run the path under construction has a current point exactly if it has a segment.

The second part is an invariant of the steps, since between two entries of a log a path may be
changed. The monitor is `building`: no operator spoils a well-built path.
-/

namespace PdfContent

variable {K σ α β : Type}

/-- Watches whether paths under construction stay well built. -/
def building (_ : Environment K σ) : Monitor K σ Unit where
  allows _ deed :=
    match deed with
    | .change before after => before.path.WellBuilt → after.path.WellBuilt
    | _ => True
  next g _ := g
  answered g _ := g

/-- In whatever context, an action does not spoil a well-built path. -/
def Action.Builds (env : Environment K σ) (x : Action K σ α) : Prop :=
  ∀ c, x.Obeys (building env) env (fun _ _ _ => True) (fun _ _ _ => True) () c

namespace Action.Builds

variable {env : Environment K σ} {x : Action K σ α}

theorem heeds {x : Action K σ Unit} (builds : x.Builds env) (c : Context K σ) :
    x.Heeds building env c := ⟨(), builds c⟩

theorem pure (a : α) : (Pure.pure a : Action K σ α).Builds env := fun _ => trivial

theorem throw (e : OperatorError) : (MonadExcept.throw e : Action K σ α).Builds env :=
  fun _ => trivial

theorem bind {x : Action K σ β} {f : β → Action K σ α} (first : x.Builds env)
    (second : ∀ b, (f b).Builds env) : (x >>= f).Builds env := by
  intro c
  rw [obeys_bind]
  exact (first c).mono (fun b _ c _ => second b c) fun _ _ _ _ => trivial

theorem environment : (Action.environment : Action K σ (Environment K σ)).Builds env :=
  fun _ => trivial

theorem context : (Action.context : Action K σ (Context K σ)).Builds env := fun _ => trivial

theorem state : (Action.state : Action K σ (GraphicsState K σ)).Builds env := fun _ => trivial

theorem modify {f : Context K σ → Context K σ}
    (keeps : ∀ c, c.path.WellBuilt → (f c).path.WellBuilt) : (Action.modify f).Builds env :=
  fun c => ⟨keeps c, trivial⟩

theorem emit (e : Event K σ) : (Action.emit e).Builds env := fun _ => ⟨trivial, trivial⟩

theorem nested (content : Bytes) (scope : σ) (setup : GraphicsState K σ → GraphicsState K σ) :
    (Action.nested content scope setup).Builds env := by
  intro c
  refine ⟨trivial, fun answer => ?_⟩
  cases answer <;> trivial

theorem andFinally {last : Action K σ Unit} (first : x.Builds env) (finally_ : last.Builds env) :
    (x.andFinally last).Builds env := by
  intro c
  rw [obeys_andFinally]
  exact (first c).mono (fun _ _ c _ => finally_ c) fun _ _ c _ => finally_ c

theorem handle {f : OperatorError → Action K σ α} (first : x.Builds env)
    (second : ∀ e, (f e).Builds env) : (x.handle f).Builds env := by
  intro c
  rw [obeys_handle]
  exact (first c).mono (fun _ _ _ _ => trivial) fun e _ c _ => second e c

theorem warnError (keyword : String) (e : OperatorError) :
    (Action.warnError keyword e : Action K σ Unit).Builds env := by
  refine .bind .environment fun _ => .bind .environment fun env' => ?_
  split
  · exact .emit _
  · exact .pure ()

end Action.Builds

/-- An action that follows the path goes on with it only from where it has come to. -/
theorem Draws.obeys {env : Environment K σ} {less : Options} {c : Context K σ}
    {x y : Action K σ α} (draws : Draws False env less c x y) :
    x.Obeys (building env) env (fun _ _ _ => True) (fun _ _ _ => True) () c := by
  induction draws with
  | @finish _ result _ => cases result <;> trivial
  | look _ ih => exact ih
  | glance _ ih => exact ih
  | change calm _ ih =>
      refine ⟨fun wellBuilt => ?_, ih⟩
      rw [calm.path]
      exact wellBuilt
  | tell _ _ ih => exact ⟨trivial, ih⟩
  | remark _ _ _ ih => exact ⟨trivial, ih⟩
  | build builder ready _ ih =>
      exact ⟨fun wellBuilt => (Event.wellBuilt_builder builder wellBuilt ready).1, trivial, ih⟩
  | nest _ _ ih => exact ⟨trivial, fun answer => ih answer False.elim⟩
  | @aside _ content scope setup next y _ _ _ fatal ih =>
      refine ⟨trivial, fun answer => ?_⟩
      cases fault : faultOf? answer with
      | none => exact ih answer False.elim fault
      | some cause =>
          rw [faultOf?_eq_some.mp fault, fatal]
          trivial

variable [Scalar K]

namespace Operators

open PdfContent.Action (Builds)

variable {env : Environment K σ}

omit [Scalar K] in
theorem builds_restoreState : (restoreState (K := K) (σ := σ)).Builds env := by
  refine .bind .context fun c => ?_
  split
  · exact .modify fun _ wellBuilt => wellBuilt
  · exact .throw _

omit [Scalar K] in
theorem builds_checkDepth : (Action.checkDepth : Action K σ Unit).Builds env := by
  refine .bind .environment fun env' => ?_
  split
  · exact .throw _
  · exact .pure ()

theorem builds_paintCell (name : String) (pattern : TilingPattern K σ)
    (paint : Option (ColorSpace × Color K)) : (paintCell name pattern paint).Builds env :=
  .bind builds_checkDepth fun _ => .bind .environment fun _ => .bind (.emit _) fun _ =>
    .andFinally (.nested _ _ _) (.emit _)

/-- The cell need not be one of the resources. -/
theorem builds_paintCellAlone (name : String) (pattern : TilingPattern K σ)
    (paint : Option (ColorSpace × Color K)) : (paintCellAlone name pattern paint).Builds env := by
  refine .handle (builds_paintCell name pattern paint) fun e => ?_
  cases e with
  | fatal cause => exact .throw _
  | _ => exact .warnError _ _

theorem builds_expandPattern (area : Path K) (rule : FillRule) :
    (expandPattern (σ := σ) area rule).Builds env := by
  refine .bind .environment fun env' => .bind .state fun s => ?_
  split
  · exact .pure ()
  · refine .bind (.modify fun _ wellBuilt => wellBuilt) fun _ => ?_
    refine .bind (.modify fun _ wellBuilt => wellBuilt) fun _ => ?_
    exact .andFinally (builds_paintCell _ _ _) builds_restoreState

/-- A path that has been taken is followed by one without segments. -/
theorem builds_finishPath (painting : Painting) (call : Call K) :
    (finishPath (σ := σ) painting call).Builds env := by
  refine .bind (.bind .context fun c => ?_) fun (path, clip) => ?_
  · exact .bind (.modify fun _ _ => .empty) fun _ => .pure _
  dsimp only
  split
  · exact .pure ()
  refine .bind .state fun s => .bind (.emit _) fun _ => ?_
  have fills : (expandFill (σ := σ) painting path).Builds env := by
    rw [expandFill]
    split
    · exact builds_expandPattern path _
    · exact .pure ()
  cases clip with
  | none => exact fills
  | some rule =>
      refine .bind (.bind (.emit _) fun _ => ?_) fun _ => fills
      exact .modify fun _ wellBuilt => wellBuilt

/-- What the operators of the graphics table begin with. -/
theorem building_expand (env : Environment K σ) (c : Context K σ) (call : Call K) :
    (graphicsTable.expand call).1.Heeds building env c := by
  by_cases saves : call.operator.keyword = "q"
  · rw [OperatorTable.expand_of_action (saves ▸ find?_save) (Nat.zero_le _)]
    have saving : (save (σ := σ) call).Builds env := .modify fun _ wellBuilt => wellBuilt
    exact saving.heeds c
  by_cases restores : call.operator.keyword = "Q"
  · rw [OperatorTable.expand_of_action (restores ▸ find?_restore) (Nat.zero_le _)]
    exact builds_restoreState.heeds c
  by_cases paints : call.operator.keyword ∈ pathPaintingKeywords
  · obtain ⟨painting, found | ⟨next, found, goesOn⟩⟩ := find?_pathPainting (K := K) (σ := σ) paints
    · rw [OperatorTable.expand_of_action found (Nat.zero_le _)]
      exact (builds_finishPath painting call).heeds c
    · rw [expand_closeThen found]
      exact ⟨(), trivial⟩
  · have keeping : Keeping call.operator.keyword :=
      ⟨by simp [stackKeywords, saves, restores], paints⟩
    exact ⟨(), (followsPath_expand call keeping env c False env.options (.refl _)).obeys⟩

end Operators

namespace Machine

variable {r : RunSettings K σ} {m m' : Machine K σ}

/-- The path under construction is well built, and so are those that streams have put aside. -/
structure WellBuilt (m : Machine K σ) : Prop where
  path : m.state.path.WellBuilt
  stash : ∀ aside ∈ m.state.stash, aside.1.WellBuilt

namespace WellBuilt

theorem read (wellBuilt : m.WellBuilt) : m.read.WellBuilt := by
  rw [Machine.read]
  split <;> exact ⟨wellBuilt.path, wellBuilt.stash⟩

omit [Scalar K] in
theorem settle (wellBuilt : m.WellBuilt) (call : Call K) (result : Except OperatorError Unit) :
    (settle r m call result).WellBuilt :=
  ⟨wellBuilt.path, wellBuilt.stash⟩

omit [Scalar K] in
theorem perform (wellBuilt : m.WellBuilt) (watched : Watched building r m) {call : Call K}
    {x : Action K σ Unit} {pending : List (Call K)}
    (control : m.control = .performing call x pending) :
    (perform r m call pending x).WellBuilt := by
  obtain ⟨g, obeys⟩ := watched.performs call x pending control
  cases x with
  | finish result =>
      cases result with
      | error e => exact wellBuilt.settle call _
      | ok _ =>
          cases pending with
          | nil => exact wellBuilt.settle call _
          | cons next later => exact ⟨wellBuilt.path, wellBuilt.stash⟩
  | look next => exact ⟨wellBuilt.path, wellBuilt.stash⟩
  | change f next => exact ⟨obeys.1 wellBuilt.path, wellBuilt.stash⟩
  | tell e next => exact ⟨wellBuilt.path, wellBuilt.stash⟩
  | nest content scope setup next =>
      by_cases limit : r.options.maxDepth ≤ m.state.depth
      · simp only [Machine.perform, limit, if_true]
        exact ⟨wellBuilt.path, wellBuilt.stash⟩
      · simp only [Machine.perform, limit, if_false]
        exact ⟨.empty, List.forall_mem_cons.mpr ⟨wellBuilt.path, wellBuilt.stash⟩⟩

omit [Scalar K] in
/-- The stream that is gone back to takes its path from the stash. -/
theorem leave (wellBuilt : m.WellBuilt) (result : Except ContentError Unit) (caller : Caller K σ)
    (callers : List (Caller K σ)) : (m.leave result caller callers).WellBuilt := by
  obtain ⟨path, stash⟩ := wellBuilt
  obtain ⟨_, _, _, ⟨_, _, _, aside⟩, _⟩ := m
  cases aside with
  | nil => exact ⟨path, stash⟩
  | cons latest earlier =>
      obtain ⟨here, later⟩ := List.forall_mem_cons.mp stash
      exact ⟨here, later⟩

theorem step (wellBuilt : m.WellBuilt) (watched : Watched building r m)
    (hstep : Machine.step r m = some m') : m'.WellBuilt := by
  rw [Machine.step] at hstep
  split at hstep
  · cases hstep
    exact wellBuilt.read
  next control =>
    cases hstep
    exact wellBuilt.perform watched control
  · split at hstep
    · cases hstep
    · cases hstep
      exact wellBuilt.leave _ _ _

theorem reaches (graphics : r.table = Operators.graphicsTable) (watched : Watched building r m)
    (wellBuilt : m.WellBuilt) (reached : Reaches r m m') : m'.WellBuilt := by
  obtain ⟨n, execution⟩ := reached
  induction execution with
  | refl => exact wellBuilt
  | cons hstep _ ih =>
      exact ih (watched.step (graphics ▸ Operators.building_expand) hstep).1
        (wellBuilt.step watched hstep)

end WellBuilt

end Machine

namespace RunSettings

open Machine (Reaches Watched)

variable {r : RunSettings K σ} {ε : Type}

/-- On the way to an outcome the device can trust the paths that it is given, and the path under
construction knows where it is. -/
structure TellsPaths (r : RunSettings K σ) (start : Machine K σ) (o : Outcome ε K σ α) : Prop where
  ends : ∃ m, Reaches r start m ∧ m.state = o.state ∧ m.log = o.log
  /-- A path that the device is given is what the same stream has told it since the operator that
  painted the path before. It is not empty and starts with a subpath. -/
  given : ∀ before e path after, o.log = before ++ .event e :: after → e.path? = some path →
    (Entry.replayed [[]] before).head? = some path.segments ∧
      ∃ p rest, path.segments = .moveTo p :: rest
  /-- At every moment there is a current point exactly if there is a segment, and it is where the
  last segment ends. -/
  current : ∀ m, Reaches r start m →
    (m.state.path.current.isSome = true ↔ m.state.path.segments ≠ []) ∧
      m.state.path.current = Path.endPoint? m.state.path.segments

theorem TellsPaths.of_start (graphics : r.table = Operators.graphicsTable) {start : Machine K σ}
    {o : Outcome ε K σ α} (watched : Watched building r start) (wellBuilt : start.WellBuilt)
    (replays : ∃ paths, Replays [[]] o.log paths)
    (ends : ∃ m, Reaches r start m ∧ m.state = o.state ∧ m.log = o.log) : r.TellsPaths start o where
  ends := ends
  given before e path after split some := by
    obtain ⟨paths, replays⟩ := replays
    exact replays.fits split e path rfl some
  current m reached := by
    have built := (wellBuilt.reaches graphics watched reached).path
    exact ⟨built.isSome_current, built.current⟩

/-- A stream that is the first of a run and begins without a path. -/
theorem tellsPaths_run (graphics : r.table = Operators.graphicsTable) (content : Bytes) (scope : σ)
    {s : RunState K σ} (noPath : s.path = .empty) (nothingAside : s.stash = []) :
    r.TellsPaths (.start content scope s) (r.run content scope s) := by
  have ranked : r.table.Ranked Operators.rank := graphics ▸ Operators.ranked_graphicsTable
  obtain ⟨stream, reached⟩ := Machine.reaches_halted ranked Operators.rank_lt content scope s
  have built : s.path.WellBuilt := noPath ▸ .empty
  have builds : (r.run content scope s).BuildsPath s :=
    (r.outermost scope).buildsPath_runTokens graphics (r.restores_nestedRun _)
      (r.replays_nestedRun graphics _) _ [] 0 s _ built
  have replays := builds.replays []
  rw [noPath] at replays
  refine .of_start graphics (.between trivial .nil) ⟨built, ?_⟩ ⟨_, replays⟩ ⟨_, reached, rfl, rfl⟩
  change ∀ aside ∈ s.stash, _
  simp [nothingAside]

/-- Pages, appearances of annotations and pattern cells tell paths that the device can trust. -/
structure AlwaysTellsPaths (r : RunSettings K σ) (scope : σ) : Prop where
  page : ∀ content, r.TellsPaths (.start content scope (.initial r.baseMatrix))
    (r.page content scope)
  appearance : ∀ form rect ctm, form.appearanceMatrix? rect = some ctm →
    let placed := (RunState.initial r.baseMatrix).updateContext fun c =>
      c.updateState fun s => { s with ctm }.clipToBox form.bbox
    let o := r.run form.content (form.scope.getD scope) placed
    r.appearance form rect scope =
        { o with
          log := .event (.beginForm (Operators.formEvent "appearance" form ctm)) :: o.log ++
            [.event .endForm] } ∧
      r.TellsPaths (.start form.content (form.scope.getD scope) placed) o
  tilingCell : ∀ call name pattern paint,
    r.TellsPaths (.startCell call name pattern paint scope (.initial r.baseMatrix))
      (r.tilingCell name pattern paint scope)

/-- Whatever the content, the resources and the options are, each path that the device is given as a
whole is the one that it has been told step by step. -/
theorem graphics_tellsPaths (options : Options) (baseMatrix : Matrix K) (resolver : Resolver K σ)
    (scope : σ) : (graphics options baseMatrix resolver).AlwaysTellsPaths scope where
  page content := tellsPaths_run rfl content scope rfl rfl
  appearance form rect ctm fits :=
    ⟨by simp only [appearance, fits], tellsPaths_run rfl form.content _ rfl rfl⟩
  tilingCell call name pattern paint := by
    let r := graphics options baseMatrix resolver
    have ranked : r.table.Ranked Operators.rank := Operators.ranked_graphicsTable
    have follows : Machine.Follows r (r.nestedRun r.options.maxDepth) 0 :=
      Machine.follows_nestedRun ranked Operators.rank_lt r.options.maxDepth (Nat.le_add_right _ _)
    have reached := Machine.reaches_action follows (r.restores_nestedRun _) call
      (Operators.paintCellAlone name pattern paint) [] (.start [] scope (.initial baseMatrix)) rfl
    have replays : Replays [[]] (r.tilingCell name pattern paint scope).log [[]] :=
      Operators.replays_paintCellAlone (r.restores_nestedRun _) (r.replays_nestedRun rfl _) name
        pattern paint (.initial baseMatrix)
    refine .of_start rfl (.performing rfl ?_ .nil) ⟨.empty, List.forall_mem_nil _⟩ ⟨_, replays⟩
      ⟨_, reached, rfl, rfl⟩
    exact (Operators.builds_paintCellAlone name pattern paint).heeds _

end RunSettings

end PdfContent
