import PdfContent.Proofs.DrawingOperators
import PdfContent.Proofs.Restoration

/-!
# What painting a path comes to

An operator that paints takes the path under construction and tells the device about it; that is
`Context.painted` and `Painting.told`. Then a pattern cell may be run. It is run on a state that is
saved before and restored after it, so that of the cell nothing stays but what it has told.
-/

namespace PdfContent

variable {K σ : Type}

namespace Action

variable {α : Type} {environment : RunState K σ → Environment K σ} {nested : NestedRun K σ}

/-- An action whose result is made a value. -/
theorem run_attempt (x : Action K σ α) (s : RunState K σ) :
    x.attempt.run environment nested s =
      let o := x.run environment nested s
      ⟨.ok o.result, o.state, o.log⟩ := by
  induction x generalizing s with
  | finish result => rfl
  | look next ih => exact ih _ _ s
  | change f next ih => exact ih (s.updateContext f)
  | tell e next ih =>
      simp only [attempt, run, ih]
      rfl
  | nest content scope setup next ih =>
      simp only [attempt, run, ih]
      rfl

/-- What is done in any case is done on what an action leaves, and does not change its result. -/
theorem run_andFinally_of_ok {x : Action K σ α} {last : Action K σ Unit} {s t : RunState K σ}
    {log : List (Entry K σ)}
    (done : last.run environment nested (x.run environment nested s).state = ⟨.ok (), t, log⟩) :
    (x.andFinally last).run environment nested s =
      ⟨(x.run environment nested s).result, t, (x.run environment nested s).log ++ log⟩ := by
  rw [andFinally, run_bind, run_attempt, Outcome.andThen_of_ok rfl, run_bind, done,
    Outcome.andThen_of_ok rfl]
  simp only [Outcome.after, ofExcept, run, List.append_nil]

theorem run_handle (x : Action K σ α) (f : OperatorError → Action K σ α) (s : RunState K σ) :
    (x.handle f).run environment nested s =
      let o := x.run environment nested s
      match o.result with
      | .ok a => ⟨.ok a, o.state, o.log⟩
      | .error e => ((f e).run environment nested o.state).after o.log := by
  rw [handle, run_bind, run_attempt, Outcome.andThen_of_ok rfl]
  dsimp only
  split <;> simp [Outcome.after, *]

end Action

variable [Scalar K]

/-- What painting leaves of a context: there is no path any more, and a clip that was pending has
taken effect. -/
def Context.painted (c : Context K σ) : Context K σ :=
  let taken : Context K σ := { c with path := .empty, pendingClip := none }
  if c.path.path.isEmpty then taken
  else
    match c.pendingClip with
    | some rule => taken.updateState fun s => s.intersectClip c.path.path rule
    | none => taken

namespace Context

omit [Scalar K]

@[simp] theorem path_painted (c : Context K σ) : c.painted.path = .empty := by
  simp only [painted]
  split
  · rfl
  · split <;> rfl

@[simp] theorem saved_painted (c : Context K σ) : c.painted.states.saved = c.states.saved := by
  simp only [painted]
  split
  · rfl
  · split <;> rfl

end Context

/-- The state in which the cell is entered that fills an area. -/
def RunState.within (s : RunState K σ) (area : Path K) (rule : FillRule) : RunState K σ :=
  s.updateContext fun c =>
    { c with states := c.states.save.update fun s => s.intersectClip area rule }

namespace Operators

/-- What the device is told of a path that is painted. -/
def Painting.told (painting : Painting) (c : Context K σ) : List (Event K σ) :=
  if c.path.path.isEmpty then []
  else painting.event c.path.path c.state :: c.pendingClip.toList.map (.clip c.path.path)

/-- The area that is filled when a path is painted. -/
def Painting.area? (painting : Painting) (c : Context K σ) : Option (Path K × FillRule) :=
  if c.path.path.isEmpty then none else painting.fillRule?.map fun rule => (c.path.path, rule)

section Runs

variable {r : RunSettings K σ} {scope : σ} {nested : NestedRun K σ}

/-- What running a cell comes to: at the depth limit there is nothing but an error, below it the
cell is run between its two events. -/
def cellOutcome (r : RunSettings K σ) (scope : σ) (nested : NestedRun K σ) (name : String)
    (pattern : TilingPattern K σ) (paint : Option (ColorSpace × Color K)) (s : RunState K σ) :
    Outcome OperatorError K σ Unit :=
  if r.options.maxDepth ≤ s.depth then ⟨.error (.recursionLimit r.options.maxDepth), s, []⟩
  else
    let ctm := pattern.matrix.concat r.baseMatrix
    let o := nested pattern.content (pattern.scope.getD scope) (enterCell pattern ctm paint) s
    ⟨o.result, s, .event (.beginPattern name ctm) :: (o.log ++ [.event .endPattern])⟩

theorem run_paintCell (restores : nested.Restores) (name : String) (pattern : TilingPattern K σ)
    (paint : Option (ColorSpace × Color K)) (s : RunState K σ) :
    (paintCell name pattern paint).run (r.environment scope) nested s =
      cellOutcome r scope nested name pattern paint s := by
  rw [paintCell, Action.checkDepth, cellOutcome]
  change Action.run _ _ ((if r.options.maxDepth ≤ s.depth then _ else _) >>= _) s = _
  split
  · rfl
  · let ctm := pattern.matrix.concat r.baseMatrix
    let inner : Action K σ Unit :=
      .nested pattern.content (pattern.scope.getD scope) (enterCell pattern ctm paint)
    change ((inner.andFinally (Action.emit .endPattern)).run (r.environment scope) nested s).after
      [.event (.beginPattern name ctm)] = _
    have done : (Action.emit .endPattern).run (r.environment scope) nested
        (inner.run (r.environment scope) nested s).state = ⟨.ok (), s, [.event .endPattern]⟩ := by
      have back : (inner.run (r.environment scope) nested s).state = s := restores _ _ _ s
      rw [back]
      rfl
    rw [Action.run_andFinally_of_ok done]
    simp only [inner, Action.nested, Action.run, Outcome.after, List.append_nil]
    rfl

theorem state_cellOutcome (name : String) (pattern : TilingPattern K σ)
    (paint : Option (ColorSpace × Color K)) (s : RunState K σ) :
    (cellOutcome r scope nested name pattern paint s).state = s := by
  rw [cellOutcome]
  split <;> rfl

/-- What filling an area comes to: the cell of the pattern that is selected, if there is one, is run
above what is saved before, and then that is restored. -/
def fillOutcome (r : RunSettings K σ) (scope : σ) (nested : NestedRun K σ)
    (area? : Option (Path K × FillRule)) (s : RunState K σ) : Outcome OperatorError K σ Unit :=
  match area? with
  | none => ⟨.ok (), s, []⟩
  | some (area, rule) =>
    match selectedCell? (r.environment scope s) s.state with
    | none => ⟨.ok (), s, []⟩
    | some (name, pattern) =>
      let o := cellOutcome r scope nested name pattern (cellPaint pattern s.state)
        (s.within area rule)
      ⟨o.result, s, o.log⟩

theorem fillOutcome_none (s : RunState K σ) :
    fillOutcome r scope nested none s = ⟨.ok (), s, []⟩ := rfl

theorem state_fillOutcome (area? : Option (Path K × FillRule)) (s : RunState K σ) :
    (fillOutcome r scope nested area? s).state = s := by
  simp only [fillOutcome]
  split
  · rfl
  · split <;> rfl

theorem run_expandPattern (restores : nested.Restores) (area : Path K) (rule : FillRule)
    (s : RunState K σ) :
    (expandPattern area rule).run (r.environment scope) nested s =
      fillOutcome r scope nested (some (area, rule)) s := by
  simp only [fillOutcome]
  change Action.run (r.environment scope) nested
    (match selectedCell? (r.environment scope s) s.state with
      | none => _
      | some (name, pattern) => _) s = _
  cases selectedCell? (r.environment scope s) s.state with
  | none => rfl
  | some cell =>
      obtain ⟨name, pattern⟩ := cell
      have done : restoreState.run (r.environment scope) nested
          ((paintCell name pattern (cellPaint pattern s.state)).run (r.environment scope) nested
            (s.within area rule)).state = ⟨.ok (), s, []⟩ := by
        rw [run_paintCell restores, state_cellOutcome]
        rfl
      have run := Action.run_andFinally_of_ok done
      rw [run_paintCell restores, List.append_nil] at run
      exact run

theorem run_expandFill (restores : nested.Restores) (painting : Painting) {c : Context K σ}
    (something : ¬ c.path.path.isEmpty = true) (s : RunState K σ) :
    (expandFill painting c.path.path).run (r.environment scope) nested s =
      fillOutcome r scope nested (painting.area? c) s := by
  rw [expandFill, Painting.area?, if_neg something]
  cases painting.fillRule? with
  | none => rfl
  | some rule => exact run_expandPattern restores c.path.path rule s

/-- Painting a path: the device is told, and then the area may be filled. -/
theorem run_finishPath (restores : nested.Restores) (painting : Painting) (call : Call K)
    (s : RunState K σ) :
    (finishPath painting call).run (r.environment scope) nested s =
      (fillOutcome r scope nested (painting.area? s.toContext)
        (s.updateContext Context.painted)).after ((painting.told s.toContext).map .event) := by
  let taken : RunState K σ :=
    s.updateContext fun c => { c with path := .empty, pendingClip := none }
  let fill : Action K σ Unit := expandFill painting s.path.path
  change Action.run _ _ (if s.path.path.isEmpty then _ else _) taken = _
  by_cases something : ¬ s.path.path.isEmpty = true
  case neg =>
    have nothing : s.path.path.isEmpty = true := not_not.mp something
    rw [if_pos nothing, RunState.updateContext, Context.painted, Painting.told, Painting.area?,
      if_pos nothing, if_pos nothing, if_pos nothing, fillOutcome_none]
    rfl
  rw [if_neg something, Painting.told, if_neg something, ← run_expandFill restores _ something]
  cases pending : s.pendingClip with
  | none =>
      have painted : s.updateContext Context.painted = taken := by
        rw [RunState.updateContext, Context.painted, if_neg something, pending]
        rfl
      rw [painted]
      rfl
  | some rule =>
      have painted : s.updateContext Context.painted = taken.updateContext fun c =>
          c.updateState fun t => t.intersectClip s.path.path rule := by
        rw [RunState.updateContext, Context.painted, if_neg something, pending]
        rfl
      rw [painted]
      change ((fill.run _ _ _).after [.event (.clip s.path.path rule)]).after _ = _
      rw [Outcome.after_after]
      rfl

omit [Scalar K] in
theorem result_closePath (call : Call K) (s : RunState K σ) :
    ((closePath call).run (r.environment scope) nested s).result = .ok () := by
  change (Action.run _ _ (if s.path.current.isSome then _ else _) s).result = _
  split <;> rfl

end Runs

end Operators

end PdfContent
