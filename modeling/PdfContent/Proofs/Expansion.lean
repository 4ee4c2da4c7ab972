import PdfContent.Proofs.SavedStates

/-!
# Expanding more only adds output

A run that expands pattern cells or glyph procedures is compared with one that leaves them out. As
long as the first one meets no fault, both go through the same states from operator to operator:
what is expanded is run in nested streams, and these give the state back. A cell that may not be
opened makes its operator fail in one of the runs only; after either of the results the streams go
on.

`Mirrors` compares two outcomes. For cells it compares what is told, too: `Trims` says that nothing
is missing but pattern cells as a whole. Glyph procedures are told without brackets around them, so
that nothing is said of the logs there.
-/

namespace PdfContent

variable {K σ α β : Type}

/-! ### What is told outside pattern cells -/

/-- What is told without the pattern cells, with so many of them open at first. -/
def Event.outsidePatterns : Nat → List (Event K σ) → List (Event K σ)
  | _, [] => []
  | 0, e :: rest =>
    if e.edge? = some (.begins .pattern) then outsidePatterns 1 rest
    else e :: outsidePatterns 0 rest
  | depth + 1, e :: rest =>
    if e.edge? = some (.begins .pattern) then outsidePatterns (depth + 2) rest
    else if e.edge? = some (.ends .pattern) then outsidePatterns depth rest
    else outsidePatterns (depth + 1) rest

theorem Event.edge?_of_apart {e : Event K σ} (apart : e.edgesCell = false) :
    e.edge? ≠ some (.begins .pattern) ∧ e.edge? ≠ some (.ends .pattern) := by
  cases e with
  | beginPattern name ctm => cases apart
  | endPattern => cases apart
  | _ => simp [edge?]

/-- Pattern cells that are closed have been left out. -/
inductive Event.Trims : List (Event K σ) → List (Event K σ) → Prop
  | nil : Trims [] []
  | keep {e told told'} (apart : Event.edgesCell e = false) (rest : Trims told told') :
    Trims (e :: told) (e :: told')
  | cell {start stop inner inner' told told'} (begins : Event.edge? start = some (.begins .pattern))
    (within : Trims inner inner') (ends : Event.edge? stop = some (.ends .pattern))
    (rest : Trims told told') : Trims (start :: (inner ++ stop :: told)) told'

namespace Event.Trims

variable {told told' more more' : List (Event K σ)}

theorem append (first : Trims told told') (second : Trims more more') :
    Trims (told ++ more) (told' ++ more') := by
  induction first with
  | nil => exact second
  | keep apart _ ih => exact .keep apart ih
  | cell begins within ends _ _ ih =>
      rw [List.cons_append, List.append_assoc, List.cons_append]
      exact .cell begins within ends ih

/-- Inside a cell nothing of it is left. -/
theorem outsidePatterns_append (trims : Trims told told') (depth : Nat) :
    outsidePatterns (depth + 1) (told ++ more) = outsidePatterns (depth + 1) more := by
  induction trims generalizing depth more with
  | nil => rfl
  | keep apart _ ih =>
      obtain ⟨begins, ends⟩ := edge?_of_apart apart
      simp [outsidePatterns, begins, ends, ih]
  | @cell start stop inner inner' told told' begins _ ends _ within rest =>
      rw [List.cons_append, List.append_assoc, outsidePatterns, if_pos begins, within,
        List.cons_append, outsidePatterns]
      simp [ends, rest]

theorem outsidePatterns_eq (trims : Trims told told') : outsidePatterns 0 told = told' := by
  induction trims with
  | nil => rfl
  | keep apart _ ih => simp [outsidePatterns, edge?_of_apart apart, ih]
  | cell begins within ends _ _ ih =>
      rw [outsidePatterns, if_pos begins, within.outsidePatterns_append, outsidePatterns]
      simp [ends, ih]

/-- A cell inside a cell is left out with it. -/
example : outsidePatterns 0 ([.endPath, .beginPattern "P" .identity, .beginPattern "Q" .identity,
    .endPattern, .endPath, .endPattern, .endForm] : List (Event Int Unit)) =
      [.endPath, .endForm] := rfl

theorem event {e : Event K σ} (apart : e.edgesCell = false) :
    Trims (callbacks [e]) (callbacks [e]) := by
  cases warns : e.isWarning with
  | true => simp [callbacks, warns, Trims.nil]
  | false => simpa [callbacks, warns] using Trims.keep apart .nil

/-- Nothing is left out where there are no cells. -/
theorem of_apart (apart : ∀ e ∈ told, e.edgesCell = false) :
    Trims (callbacks told) (callbacks told) := by
  induction told with
  | nil => exact .nil
  | cons e rest ih =>
      obtain ⟨here, later⟩ := List.forall_mem_cons.mp apart
      have first : Trims (callbacks [e]) (callbacks [e]) := .event here
      rw [← List.singleton_append, callbacks_append]
      exact first.append (ih later)

end Event.Trims

/-! ### Two runs -/

/-- What is left out are the pattern cells, and nothing else. -/
structure Options.LeavesCells (less full : Options) : Prop where
  glyphs : less.runGlyphProcedures = full.runGlyphProcedures
  cells : less.expandPatterns = false

/-- An operator or a nested stream has met a fault. -/
def Outcome.Faulty (o : Outcome OperatorError K σ α) : Prop :=
  ∃ cause, o.result = .error (.fatal cause)

/-- Two outcomes differ in nothing but what was told in cells, and in that only if `cells` holds. -/
structure Outcome.Mirrors {ε : Type} (cells : Prop) (o o' : Outcome ε K σ α) : Prop where
  result : o'.result = o.result
  state : o'.state = o.state
  told : cells → Event.Trims (Entry.callbacks o.log) (Entry.callbacks o'.log)

/-- Nested streams come to the same in both ways to run them, unless the first has met a fault. -/
def NestedRun.Mirrors (cells : Prop) (nested nested' : NestedRun K σ) : Prop :=
  ∀ content scope setup s, (nested content scope setup s).Faulty ∨
    (nested content scope setup s).Mirrors cells (nested' content scope setup s)

/-- Nested streams are run in two ways that can be compared, the second one under options by which
less is expanded. -/
structure NestedRun.Compares (options less : Options) (nested nested' : NestedRun K σ) : Prop where
  atMost : less.AtMost options
  restores : nested.Restores
  restores' : nested'.Restores
  answers : nested.HasSaved
  inner : nested.Mirrors (less.LeavesCells options) nested'

namespace Outcome.Mirrors

variable {ε : Type} {cells : Prop} {o o' : Outcome ε K σ α}

theorem refl (result : Except ε α) (s : RunState K σ) :
    (⟨result, s, []⟩ : Outcome ε K σ α).Mirrors cells ⟨result, s, []⟩ := ⟨rfl, rfl, fun _ => .nil⟩

theorem after (mirrors : o.Mirrors cells o') {log log' : List (Entry K σ)}
    (told : cells → Event.Trims (Entry.callbacks log) (Entry.callbacks log')) :
    (o.after log).Mirrors cells (o'.after log') := by
  refine ⟨mirrors.result, mirrors.state, fun all => ?_⟩
  rw [Outcome.log_after, Outcome.log_after, Entry.callbacks_append, Entry.callbacks_append]
  exact (told all).append (mirrors.told all)

/-- Something is told in the first run only. -/
theorem prepend (mirrors : o.Mirrors cells o') {log : List (Entry K σ)}
    (told : cells → Event.Trims (Entry.callbacks log) []) : (o.after log).Mirrors cells o' := by
  refine ⟨mirrors.result, mirrors.state, fun all => ?_⟩
  rw [Outcome.log_after, Entry.callbacks_append]
  exact (told all).append (mirrors.told all)

end Outcome.Mirrors

theorem Outcome.Faulty.after {o : Outcome OperatorError K σ α} (faulty : o.Faulty)
    (log : List (Entry K σ)) : (o.after log).Faulty := faulty

/-- An action that dies of a fault has met it. -/
theorem Action.Dies.faulty {environment : RunState K σ → Environment K σ}
    {nested : NestedRun K σ} {cause : ContentError} {x : Action K σ α} (dies : x.Dies cause)
    (s : RunState K σ) : (x.run environment nested s).Faulty := by
  induction dies with
  | finish => exact ⟨cause, rfl⟩
  | tell _ ih => exact ih.after _

theorem Event.apart_of_builder? {e : Event K σ} {f : PathBuilder K → PathBuilder K}
    (builder : e.builder? = some f) : e.edgesCell = false := by
  cases e <;> first | rfl | cases builder

section Actions

variable {nested nested' : NestedRun K σ}
  {environment environment' : RunState K σ → Environment K σ} {env : Environment K σ}
  {less : Options}

/-- Two actions of which one leaves glyph procedures out. -/
theorem Draws.mirrors (compares : nested.Compares env.options less nested') {c : Context K σ}
    {x y : Action K σ α} (draws : Draws False env less c x y) {s : RunState K σ}
    (stable : ∀ t, t.place = s.place →
      environment t = env ∧ environment' t = { env with options := less })
    (here : s.toContext = c) :
    (x.run environment nested s).Faulty ∨ (x.run environment nested s).Mirrors
      (less.LeavesCells env.options) (y.run environment' nested' s) := by
  induction draws generalizing s with
  | finish _ => exact .inr (.refl _ s)
  | look _ ih =>
      subst here
      obtain ⟨left, right⟩ := stable s rfl
      rw [Action.run, Action.run, left, right]
      exact ih stable rfl
  | glance _ ih =>
      subst here
      obtain ⟨left, -⟩ := stable s rfl
      rw [Action.run, left]
      exact ih stable rfl
  | @change c f x y calm _ ih =>
      subst here
      exact ih (s := s.updateContext f) stable rfl
  | tell plain _ ih =>
      refine (ih stable here).imp (fun faulty => faulty.after _) fun mirrors => ?_
      exact mirrors.after fun _ => .event plain.apart
  | remark out runs _ ih =>
      refine (ih stable here).imp (fun faulty => faulty.after _) fun mirrors => ?_
      exact mirrors.prepend fun _ => .nil
  | @build c e f x y builder _ _ ih =>
      subst here
      have after := ih (s := s.updateContext fun c => { c with path := f c.path }) stable rfl
      refine after.imp (fun faulty => faulty.after _) fun mirrors => mirrors.after fun _ => ?_
      exact .event (Event.apart_of_builder? builder)
  | @nest c content scope setup next next' _ fatal ih =>
      rw [Action.run, Action.run, compares.restores, compares.restores']
      rcases compares.inner content scope setup s with ⟨cause, failed⟩ | mirrors
      · rw [failed]
        exact .inl ((fatal cause).faulty _)
      · rw [mirrors.result]
        refine (ih (nested content scope setup s).result False.elim stable here).imp ?_ ?_
        · exact fun faulty => faulty.after _
        · exact fun later => later.after mirrors.told
  | @aside c content scope setup next y out runs _ fatal ih =>
      rw [Action.run, compares.restores]
      cases fault : faultOf? (nested content scope setup s).result with
      | none =>
          refine (ih (nested content scope setup s).result False.elim fault stable here).imp ?_ ?_
          · exact fun faulty => faulty.after _
          · refine fun later => later.prepend fun leaves => ?_
            rw [leaves.glyphs, runs] at out
            cases out
      | some cause =>
          rw [faultOf?_eq_some.mp fault, fatal]
          exact .inl ⟨cause, rfl⟩

end Actions

/-! ### Operators, streams and runs -/

/-- A stream goes on alike after two outcomes of an operator. They may have different results. -/
structure Outcome.LeadsAlike (cells : Prop) (o o' : Outcome OperatorError K σ Unit) : Prop where
  state : o'.state = o.state
  ending : o'.state.ending? o'.result = o.state.ending? o.result
  told : cells → Event.Trims (Entry.callbacks o.log) (Entry.callbacks o'.log)

theorem Outcome.Mirrors.leadsAlike {cells : Prop} {o o' : Outcome OperatorError K σ Unit}
    (mirrors : o.Mirrors cells o') : o.LeadsAlike cells o' :=
  ⟨mirrors.state, by rw [mirrors.state, mirrors.result], mirrors.told⟩

theorem Outcome.LeadsAlike.after {cells : Prop} {o o' : Outcome OperatorError K σ Unit}
    (leads : o.LeadsAlike cells o') {log log' : List (Entry K σ)}
    (told : cells → Event.Trims (Entry.callbacks log) (Entry.callbacks log')) :
    (o.after log).LeadsAlike cells (o'.after log') := by
  refine ⟨leads.state, leads.ending, fun all => ?_⟩
  rw [Outcome.log_after, Outcome.log_after, Entry.callbacks_append, Entry.callbacks_append]
  exact (told all).append (leads.told all)

variable [Scalar K]

namespace Operators

variable {r : RunSettings K σ} {less : Options} {scope : σ} {nested nested' : NestedRun K σ}
  (compares : nested.Compares r.options less nested')

omit [Scalar K] in
/-- The cell that is selected under less options is selected under more, too. -/
theorem selectedCell?_of_atMost (env : Environment K σ) (atMost : less.AtMost env.options)
    (s : GraphicsState K σ) : selectedCell? { env with options := less } s =
      if less.expandPatterns then selectedCell? env s else none := by
  by_cases expands : less.expandPatterns = true
  · simp only [selectedCell?, expands, atMost.expandPatterns expands, if_true]
  · simp only [selectedCell?, expands]
    rfl

include compares in
/-- A cell that is run by both. -/
theorem mirrors_cellOutcome (expands : less.expandPatterns = true) (name : String)
    (pattern : TilingPattern K σ) (paint : Option (ColorSpace × Color K)) (s : RunState K σ) :
    let o := cellOutcome r scope nested name pattern paint s
    o.Faulty ∨ o.Mirrors (less.LeavesCells r.options)
      (cellOutcome { r with options := less } scope nested' name pattern paint s) := by
  have none_left : ¬ less.LeavesCells r.options := by
    intro leaves
    rw [leaves.cells] at expands
    cases expands
  simp only [cellOutcome, compares.atMost.maxDepth]
  split
  · exact .inr (.refl _ s)
  · rcases compares.inner pattern.content (pattern.scope.getD scope)
      (enterCell pattern (pattern.matrix.concat r.baseMatrix) paint) s with faulty | mirrors
    · exact .inl faulty
    · exact .inr ⟨mirrors.result, rfl, fun leaves => absurd leaves none_left⟩

include compares in
/-- A cell that is run by one only: what it tells can be left out. -/
theorem trims_cellOutcome (name : String) (pattern : TilingPattern K σ)
    (paint : Option (ColorSpace × Color K)) (s t : RunState K σ) :
    let o := cellOutcome r scope nested name pattern paint s
    o.Faulty ∨ t.ending? o.result = none ∧
      (less.LeavesCells r.options → Event.Trims (Entry.callbacks o.log) []) := by
  simp only [cellOutcome]
  split
  · exact .inr ⟨rfl, fun _ => .nil⟩
  · have hasSaved := compares.answers pattern.content (pattern.scope.getD scope)
      (enterCell pattern (pattern.matrix.concat r.baseMatrix) paint) s
    rcases compares.inner pattern.content (pattern.scope.getD scope)
      (enterCell pattern (pattern.matrix.concat r.baseMatrix) paint) s with faulty | mirrors
    · exact .inl faulty
    rcases t.ending?_of_hasSaved hasSaved with goesOn | faulty
    · refine .inr ⟨goesOn, fun leaves => ?_⟩
      rw [← List.singleton_append, Entry.callbacks_append, Entry.callbacks_append]
      exact .cell rfl (mirrors.told leaves) rfl .nil
    · exact .inl faulty

include compares in
/-- Filling an area, with a cell that may be left out. -/
theorem leadsAlike_fillOutcome (area? : Option (Path K × FillRule)) (s : RunState K σ) :
    let o := fillOutcome r scope nested area? s
    o.Faulty ∨ o.LeadsAlike (less.LeavesCells r.options)
      (fillOutcome { r with options := less } scope nested' area? s) := by
  have selected : selectedCell? (({ r with options := less } : RunSettings K σ).environment scope s)
      s.state =
        if less.expandPatterns then selectedCell? (r.environment scope s) s.state else none :=
    selectedCell?_of_atMost (r.environment scope s) compares.atMost s.state
  cases area? with
  | none => exact .inr (Outcome.Mirrors.refl _ s).leadsAlike
  | some area =>
      simp only [fillOutcome, selected]
      cases selectedCell? (r.environment scope s) s.state with
      | none =>
          rw [ite_self]
          exact .inr (Outcome.Mirrors.refl _ s).leadsAlike
      | some cell =>
          obtain ⟨name, pattern⟩ := cell
          by_cases expands : less.expandPatterns = true
          · rw [if_pos expands]
            refine (mirrors_cellOutcome compares expands name pattern (cellPaint pattern s.state)
              (s.within area.1 area.2)).imp_right fun mirrors => ?_
            exact Outcome.Mirrors.leadsAlike ⟨mirrors.result, rfl, mirrors.told⟩
          · rw [if_neg expands]
            refine (trims_cellOutcome compares name pattern (cellPaint pattern s.state)
              (s.within area.1 area.2) s).imp_right ?_
            rintro ⟨goesOn, trims⟩
            exact ⟨rfl, goesOn.symm, trims⟩

omit [Scalar K] in
/-- What a painted path is told by begins and ends no cell. -/
theorem trims_told (painting : Painting) (c : Context K σ) :
    Event.Trims (Entry.callbacks ((painting.told c).map Entry.event))
      (Entry.callbacks ((painting.told c).map Entry.event)) := by
  rw [Entry.callbacks_map_event]
  refine .of_apart fun e among => ?_
  rw [Painting.told] at among
  split at among
  · cases among
  rcases List.mem_cons.mp among with rfl | among
  · cases painting <;> rfl
  · obtain ⟨rule, -, rfl⟩ := List.mem_map.mp among
    rfl

include compares

theorem leadsAlike_finishPath (painting : Painting) (call : Call K) (s : RunState K σ) :
    let o := (finishPath painting call).run (r.environment scope) nested s
    o.Faulty ∨ o.LeadsAlike (less.LeavesCells r.options)
      ((finishPath painting call).run
        (({ r with options := less } : RunSettings K σ).environment scope) nested' s) := by
  intro o
  have left : o = _ := run_finishPath compares.restores painting call s
  rw [left, run_finishPath compares.restores']
  refine (leadsAlike_fillOutcome compares (painting.area? s.toContext)
    (s.updateContext Context.painted)).imp (fun faulty => faulty.after _) fun leads => ?_
  exact leads.after fun _ => trims_told painting s.toContext

theorem leadsAlike_dispatch (call : Call K) (s : RunState K σ) :
    let o := (graphicsTable.dispatch call).run (r.environment scope) nested s
    o.Faulty ∨ o.LeadsAlike (less.LeavesCells r.options)
      ((graphicsTable.dispatch call).run
        (({ r with options := less } : RunSettings K σ).environment scope) nested' s) := by
  intro o
  have run : o = (graphicsTable.dispatch call).run (r.environment scope) nested s := rfl
  have stable (t : RunState K σ) (same : t.place = s.place) :
      r.environment scope t = r.environment scope s ∧
        ({ r with options := less } : RunSettings K σ).environment scope t =
          { r.environment scope s with options := less } := by
    simp only [RunSettings.environment, same, and_self]
  cases carried_dispatch (σ := σ) call with
  | saves _ same =>
      rw [run, same]
      exact .inr (Outcome.Mirrors.refl _ _).leadsAlike
  | restores _ same =>
      rw [run, same]
      obtain ⟨⟨⟨current, saved⟩, _⟩, _⟩ := s
      cases saved <;> exact .inr (Outcome.Mirrors.refl _ _).leadsAlike
  | paints _ painting same =>
      rw [run, same]
      exact leadsAlike_finishPath compares painting call s
  | closes _ painting same =>
      have draws : Draws False (r.environment scope s) less s.toContext (closePath (σ := σ) call)
        (closePath call) := draws_closePath call
      rcases draws.mirrors compares stable rfl with ⟨cause, fault⟩ | mirrors
      · cases (result_closePath call s).symm.trans fault
      rw [run, same, Action.run_bind, Action.run_bind,
        Outcome.andThen_of_ok (result_closePath call s),
        Outcome.andThen_of_ok (result_closePath call s), mirrors.state]
      refine (leadsAlike_finishPath compares painting call _).imp
        (fun faulty => faulty.after _) fun leads => ?_
      exact leads.after mirrors.told
  | follows _ follows =>
      exact ((follows (r.environment scope s) s.toContext False less compares.atMost).mirrors
        compares stable rfl).imp_right Outcome.Mirrors.leadsAlike

end Operators

namespace StreamSettings

variable {r : RunSettings K σ} {less : Options} {nested nested' : NestedRun K σ}
  (graphics : r.table = Operators.graphicsTable)
  (compares : nested.Compares r.options less nested') (scope : σ)

include graphics compares

theorem leadsAlike_perform (index : Nat) (call : Call K) (s : RunState K σ) :
    let stream : StreamSettings K σ := { r with scope, nested }
    let stream' : StreamSettings K σ := { r with options := less, scope, nested := nested' }
    let o := stream.perform index call s
    o.Faulty ∨ o.LeadsAlike (less.LeavesCells r.options) (stream'.perform index call s) := by
  intro stream stream' o
  let start : RunState K σ := { s with index }
  let run := (Operators.graphicsTable.dispatch call).run (r.environment scope) nested start
  let run' := (Operators.graphicsTable.dispatch call).run
    (({ r with options := less } : RunSettings K σ).environment scope) nested' start
  have ran : (stream.table.dispatch call).run (stream.environment stream.scope) stream.nested
      start = run := by rw [show stream.table = _ from graphics]
  have ran' : (stream'.table.dispatch call).run (stream'.environment stream'.scope) stream'.nested
      start = run' := by rw [show stream'.table = _ from graphics]
  obtain ⟨log, done, told⟩ := perform_of_run ran
  obtain ⟨log', done', told'⟩ := perform_of_run ran'
  have performed : o = _ := done
  rw [performed, done']
  have dispatched : run.Faulty ∨ run.LeadsAlike (less.LeavesCells r.options) run' :=
    Operators.leadsAlike_dispatch compares call start
  refine dispatched.imp_right fun leads => ?_
  refine ⟨leads.state, leads.ending, fun all => ?_⟩
  rw [told, told']
  exact leads.told all

/-- The induction is on the tokens: up to a fault both streams are in the same state whenever an
operator comes. -/
theorem mirrors_runTokens (fault : Option ContentError) (tokens : List (Token K))
    (operands : List (Operand K)) (count : Nat) (s : RunState K σ) :
    let stream : StreamSettings K σ := { r with scope, nested }
    let stream' : StreamSettings K σ := { r with options := less, scope, nested := nested' }
    let o := stream.runTokens fault operands count s tokens
    (∃ cause, o.result = .error cause) ∨
      o.Mirrors (less.LeavesCells r.options) (stream'.runTokens fault operands count s tokens) := by
  intro stream stream'
  induction tokens generalizing operands count s with
  | nil =>
      intro o
      cases fault with
      | none => exact .inr (.refl _ s)
      | some cause => exact .inl ⟨cause, rfl⟩
  | cons token rest ih =>
      cases token with
      | operand v => exact ih _ _ s
      | operator op =>
          intro o
          let here := stream.perform count ⟨op, operands⟩ s
          rcases leadsAlike_perform graphics compares scope count ⟨op, operands⟩ s with
            ⟨cause, failed⟩ | leads
          · have ends : here.state.ending? here.result = some (.error cause) := by
              rw [show here.result = _ from failed]
              rfl
            have ended : o = _ := runTokens_of_ends rfl ends
            exact .inl ⟨cause, by rw [ended]⟩
          cases ends : here.state.ending? here.result with
          | some result =>
              have ended : o = _ := runTokens_of_ends rfl ends
              rw [ended, runTokens_of_ends rfl (leads.ending.trans ends)]
              exact .inr ⟨rfl, leads.state, leads.told⟩
          | none =>
              have step : o = _ := runTokens_of_goesOn rfl ends
              rw [step, runTokens_of_goesOn rfl (leads.ending.trans ends), leads.state]
              refine (ih [] (count + 1) here.state).imp_right fun mirrors => ?_
              exact mirrors.after leads.told

theorem mirrors_run (content : Bytes) (s : RunState K σ) :
    let stream : StreamSettings K σ := { r with scope, nested }
    let stream' : StreamSettings K σ := { r with options := less, scope, nested := nested' }
    let o := stream.run content s
    (∃ cause, o.result = .error cause) ∨
      o.Mirrors (less.LeavesCells r.options) (stream'.run content s) :=
  mirrors_runTokens graphics compares scope _ _ [] 0 s

end StreamSettings

namespace RunSettings

variable {r : RunSettings K σ} {less : Options}

/-- The induction is on the number of levels. -/
theorem compares_nestedRun (graphics : r.table = Operators.graphicsTable)
    (atMost : less.AtMost r.options) (levels : Nat) :
    let r' : RunSettings K σ := { r with options := less }
    (r.nestedRun levels).Compares r.options less (r'.nestedRun levels) := by
  intro r'
  have limits : r'.options.maxDepth = r.options.maxDepth := atMost.maxDepth
  refine ⟨atMost, r.restores_nestedRun _, r'.restores_nestedRun _, r.hasSaved_nestedRun _, ?_⟩
  induction levels with
  | zero =>
      intro content scope setup s
      rw [nestedRun, nestedRun, limits]
      split <;> exact .inr (.refl _ s)
  | succ levels ih =>
      intro content scope setup s
      by_cases limit : r.options.maxDepth ≤ s.depth
      · have limit' : r'.options.maxDepth ≤ s.depth := limits.trans_le limit
        rw [nestedRun_of_limit _ _ _ _ _ limit, nestedRun_of_limit _ _ _ _ _ limit', limits]
        exact .inr (.refl _ s)
      have below := Nat.not_le.mp limit
      have below' : s.depth < r'.options.maxDepth := below.trans_eq limits.symm
      rw [nestedRun_succ_of_lt _ _ _ _ _ below, nestedRun_succ_of_lt _ _ _ _ _ below']
      have compares : (r.nestedRun levels).Compares r.options less (r'.nestedRun levels) :=
        ⟨atMost, r.restores_nestedRun _, r'.restores_nestedRun _, r.hasSaved_nestedRun _, ih⟩
      rcases StreamSettings.mirrors_run graphics compares scope content (s.enter setup) with
        ⟨cause, failed⟩ | mirrors
      · exact .inl ⟨cause, congrArg (Except.mapError OperatorError.fatal) failed⟩
      · have result := congrArg (Except.mapError OperatorError.fatal) mirrors.result
        refine .inr ⟨result, rfl, fun all => ?_⟩
        simp only [List.cons_append, Entry.callbacks_append,
          Entry.callbacks_cons_of_mark (x := .opened _ _) rfl]
        exact (mirrors.told all).append .nil

/-- A run that expands more than another and meets no fault. -/
theorem mirrors_run (graphics : r.table = Operators.graphicsTable) (atMost : less.AtMost r.options)
    (content : Bytes) (scope : σ) (s : RunState K σ) :
    let r' : RunSettings K σ := { r with options := less }
    let o := r.run content scope s
    o.result = .ok () → o.Mirrors (less.LeavesCells r.options) (r'.run content scope s) := by
  intro r' o ended
  have limits : r'.options.maxDepth = r.options.maxDepth := atMost.maxDepth
  have outer : r'.outermost scope =
      { r' with scope, nested := r'.nestedRun r.options.maxDepth } := by
    rw [outermost, limits]
  rw [RunSettings.run, outer]
  rcases StreamSettings.mirrors_run graphics (compares_nestedRun graphics atMost r.options.maxDepth)
    scope content s with ⟨cause, failed⟩ | mirrors
  · cases ended.symm.trans failed
  · exact mirrors

/-- Running pattern cells or glyph procedures only adds to what a device is told. If a run that
fills with cells meets no fault, the same run without them meets none either and ends in the same
state, and the callbacks of the second run are those of the first without the cells. If a run of
glyph procedures meets no fault, neither does the run without them, and it ends in the same state.
Warnings are not callbacks: a cell or a glyph procedure may have its own. -/
theorem graphics_expansion_onlyAdds (options : Options) (baseMatrix : Matrix K)
    (resolver : Resolver K σ) (scope : σ) (content : Bytes) (start : RunState K σ) :
    let runWith (chosen : Options) := (graphics chosen baseMatrix resolver).run content scope start
    let expanding := runWith { options with expandPatterns := true }
    let plain := runWith { options with expandPatterns := false }
    let rendering := runWith { options with runGlyphProcedures := true }
    let silent := runWith { options with runGlyphProcedures := false }
    (expanding.result = .ok () → plain.result = .ok () ∧ plain.state = expanding.state ∧
      Event.outsidePatterns 0 (Entry.callbacks expanding.log) = Entry.callbacks plain.log) ∧
      (rendering.result = .ok () → silent.result = .ok () ∧ silent.state = rendering.state) := by
  intro runWith expanding plain rendering silent
  constructor
  · intro ended
    let full : RunSettings K σ :=
      graphics { options with expandPatterns := true } baseMatrix resolver
    have atMost : { options with expandPatterns := false }.AtMost full.options :=
      ⟨rfl, rfl, by simp, id⟩
    have mirrors : expanding.Mirrors _ plain :=
      full.mirrors_run rfl atMost content scope start ended
    exact ⟨mirrors.result.trans ended, mirrors.state, (mirrors.told ⟨rfl, rfl⟩).outsidePatterns_eq⟩
  · intro ended
    let full : RunSettings K σ :=
      graphics { options with runGlyphProcedures := true } baseMatrix resolver
    have atMost : { options with runGlyphProcedures := false }.AtMost full.options :=
      ⟨rfl, rfl, id, by simp⟩
    have mirrors : rendering.Mirrors _ silent :=
      full.mirrors_run rfl atMost content scope start ended
    exact ⟨mirrors.result.trans ended, mirrors.state⟩

/-- A square is filled with a pattern, and a glyph is shown. The cell and the glyph procedure both
save a state that they do not restore. -/
theorem graphics_expansion_onlyAdds_square :
    let written (text : String) : Bytes := text.toList.map fun c => UInt8.ofNat c.toNat
    let cell : TilingPattern Int Unit :=
      { content := written "q 0 0 4 4 re f", matrix := .identity, bbox := ⟨0, 0, 4, 4⟩, xStep := 4,
        yStep := 4, paintType := 1, tilingType := 1, scope := none }
    let blank : Font Int Unit := .ofWidth "T" .type3 fun _ => 1
    let font : Font Int Unit :=
      { blank with
        procedure? := fun _ => some ⟨written "q 0 0 d0", none⟩ }
    let options : Options := ⟨2, true, true, true⟩
    let resolver : Resolver Int Unit := .ofCatalogs fun _ =>
      { fonts := [("T", font)], colorSpaces := [("Pattern", .pattern none)],
        patterns := [("P", .tiling cell)] }
    let content := written "/Pattern cs /P scn 0 0 8 8 re f BT /T 1 Tf (A) Tj ET"
    let runWith (chosen : Options) :=
      (graphics chosen .identity resolver).run content () (.initial .identity)
    let expanding := runWith { options with expandPatterns := true }
    let plain := runWith { options with expandPatterns := false }
    let rendering := runWith { options with runGlyphProcedures := true }
    let silent := runWith { options with runGlyphProcedures := false }
    (Entry.callbacks plain.log).length < (Entry.callbacks expanding.log).length ∧
      Event.outsidePatterns 0 (Entry.callbacks expanding.log) = Entry.callbacks plain.log ∧
      silent.log.length < rendering.log.length ∧ silent.state = rendering.state := by
  intro written cell blank font options resolver content runWith expanding plain rendering silent
  have onlyAdds :=
    graphics_expansion_onlyAdds options .identity resolver () content (.initial .identity)
  obtain ⟨ended, fills, shows⟩ : expanding.result = .ok () ∧
      (Entry.callbacks plain.log).length < (Entry.callbacks expanding.log).length ∧
      silent.log.length < expanding.log.length := by decide +kernel
  exact ⟨fills, (onlyAdds.1 ended).2.2, shows, (onlyAdds.2 ended).2⟩

end RunSettings

end PdfContent
