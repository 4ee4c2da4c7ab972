import PdfContent.Proofs.Inlining
import PdfContent.Proofs.PathPainting

/-!
# Balanced operators leave what was saved before them

Between `q` and `Q` an operator sequence may do whatever it likes, as long as each `Q` in it has a
`q` of its own: the `Q` after it then finds what the `q` before it has saved. Of all operators only
these two move the stack of saved states. The pattern cell that a fill expands is run above what is
saved, and a nested stream has a stack of its own.

The invariant is that what was saved before the sequence stays below what the sequence has saved
itself. No operator fails for want of a saved state then, so that a stream goes on until its content
has a fault.
-/

namespace PdfContent

variable {K σ α : Type}

/-- Nested streams do not fail for want of a saved state; they end there. -/
def NestedRun.HasSaved (nested : NestedRun K σ) : Prop :=
  ∀ content scope setup s, PdfContent.HasSaved (nested content scope setup s).result

theorem hasSaved_mapError (result : Except ContentError α) :
    HasSaved (result.mapError OperatorError.fatal) := by
  cases result with
  | ok a => exact .ok a
  | error cause => exact .fatal cause

theorem RunSettings.hasSaved_nestedRun [Scalar K] (r : RunSettings K σ) (levels : Nat) :
    (r.nestedRun levels).HasSaved := by
  intro content scope setup s
  cases levels with
  | zero =>
      rw [nestedRun]
      split <;> exact .recursionLimit _
  | succ levels =>
      rw [nestedRun]
      split
      · exact .recursionLimit _
      · exact hasSaved_mapError _

/-- What an outcome says about the states saved before it: they are saved still, and nothing has
failed for want of them. -/
structure Outcome.KeepsSaved (s : RunState K σ) (o : Outcome OperatorError K σ α) : Prop where
  saved : o.state.states.saved = s.states.saved
  result : HasSaved o.result

section Actions

variable {nested : NestedRun K σ} {environment : RunState K σ → Environment K σ}
  {env : Environment K σ} {less : Options}

/-- An action that follows the path keeps what is saved, if nested streams give the state back. -/
theorem Draws.keepsSaved (restores : nested.Restores) (answers : nested.HasSaved)
    {c : Context K σ} {x y : Action K σ α} (draws : Draws True env less c x y) {s : RunState K σ}
    (stable : ∀ t, t.place = s.place → environment t = env) (here : s.toContext = c) :
    (x.run environment nested s).KeepsSaved s := by
  induction draws generalizing s with
  | finish hasSaved => exact ⟨rfl, hasSaved trivial⟩
  | look _ ih =>
      subst here
      rw [Action.run, stable s rfl]
      exact ih stable rfl
  | glance _ ih =>
      subst here
      rw [Action.run, stable s rfl]
      exact ih stable rfl
  | @change c f x y calm _ ih =>
      subst here
      obtain ⟨saved, result⟩ := ih (s := s.updateContext f) stable rfl
      exact ⟨saved.trans calm.saved, result⟩
  | tell _ _ ih =>
      obtain ⟨saved, result⟩ := ih stable here
      exact ⟨saved, result⟩
  | remark _ _ _ ih =>
      obtain ⟨saved, result⟩ := ih stable here
      exact ⟨saved, result⟩
  | @build c e f x y _ _ _ ih =>
      subst here
      obtain ⟨saved, result⟩ :=
        ih (s := s.updateContext fun c => { c with path := f c.path }) stable rfl
      exact ⟨saved, result⟩
  | @nest c content scope setup next next' _ _ ih =>
      obtain ⟨saved, result⟩ := ih _ (fun _ => answers content scope setup s) stable here
      rw [Action.run]
      rw [restores]
      exact ⟨saved, result⟩
  | @aside c content scope setup next y _ _ _ fatal ih =>
      rw [Action.run]
      rw [restores]
      cases fault : faultOf? (nested content scope setup s).result with
      | none =>
          obtain ⟨saved, result⟩ := ih _ (fun _ => answers content scope setup s) fault stable here
          exact ⟨saved, result⟩
      | some cause =>
          rw [faultOf?_eq_some.mp fault, fatal]
          subst here
          exact ⟨rfl, .fatal cause⟩

end Actions

theorem Outcome.KeepsSaved.andThen {β : Type} {s : RunState K σ}
    {o : Outcome OperatorError K σ β} {f : β → RunState K σ → Outcome OperatorError K σ α}
    (first : o.KeepsSaved s) (second : ∀ b, (f b o.state).KeepsSaved o.state) :
    (o.andThen f).KeepsSaved s := by
  obtain ⟨saved, result⟩ := first
  cases ended : o.result with
  | ok b =>
      obtain ⟨saved', result'⟩ := second b
      rw [Outcome.andThen_of_ok ended]
      exact ⟨saved'.trans saved, result'⟩
  | error e =>
      rw [Outcome.andThen_of_error ended]
      refine ⟨saved, fun nothing => ?_⟩
      cases nothing
      exact result ended

/-- A stream goes on after an operator that had what is to be restored, unless there was a fault. -/
theorem RunState.ending?_of_hasSaved (s : RunState K σ) {result : Except OperatorError Unit}
    (hasSaved : HasSaved result) :
    s.ending? result = none ∨ ∃ cause, result = .error (.fatal cause) := by
  cases result with
  | ok _ => exact .inl rfl
  | error e =>
      cases e with
      | emptyGraphicsStack => exact absurd rfl hasSaved
      | fatal cause => exact .inr ⟨cause, rfl⟩
      | _ => exact .inl rfl

variable [Scalar K]

namespace Operators

variable {r : RunSettings K σ} {scope : σ} {nested : NestedRun K σ}

theorem hasSaved_fillOutcome (answers : nested.HasSaved) (area? : Option (Path K × FillRule))
    (s : RunState K σ) : HasSaved (fillOutcome r scope nested area? s).result := by
  simp only [fillOutcome]
  split
  · exact .ok ()
  split
  · exact .ok ()
  rw [cellOutcome]
  split
  · exact .recursionLimit _
  · exact answers _ _ _ _

/-- A cell that fills the path is run above what is saved. -/
theorem keepsSaved_finishPath (restores : nested.Restores) (answers : nested.HasSaved)
    (painting : Painting) (call : Call K) (s : RunState K σ) :
    ((finishPath painting call).run (r.environment scope) nested s).KeepsSaved s := by
  rw [run_finishPath restores]
  refine ⟨?_, hasSaved_fillOutcome answers _ _⟩
  rw [Outcome.state_after, state_fillOutcome]
  exact Context.saved_painted _

end Operators

namespace StreamSettings

variable (stream : StreamSettings K σ)

section Stack

variable (graphics : stream.table = Operators.graphicsTable) (index : Nat) (call : Call K)

include graphics

/-- `q` -/
theorem perform_save (keyword : call.operator.keyword = "q") (s : RunState K σ) :
    ∃ log, stream.perform index call s =
      ⟨.ok (), { s with index, states := s.states.save }, log⟩ := by
  rw [perform, graphics, Operators.dispatch_save keyword]
  exact ⟨_, rfl⟩

/-- `Q`, where something is saved. -/
theorem perform_restore (keyword : call.operator.keyword = "Q") {s : RunState K σ}
    {latest : GraphicsState K σ} {earlier : List (GraphicsState K σ)}
    (saved : s.states.saved = latest :: earlier) :
    ∃ log, stream.perform index call s =
      ⟨.ok (), { s with index, states := ⟨latest, earlier⟩ }, log⟩ := by
  obtain ⟨⟨⟨current, _⟩, text, compatibility, path, pendingClip⟩, depth, _, stash⟩ := s
  subst saved
  rw [perform, graphics, Operators.dispatch_restore keyword]
  exact ⟨_, rfl⟩

/-- Any other operator. -/
theorem keepsSaved_perform (restores : stream.nested.Restores) (answers : stream.nested.HasSaved)
    (apart : call.operator.keyword ∉ Operators.stackKeywords) (s : RunState K σ) :
    (stream.perform index call s).KeepsSaved s := by
  let start : RunState K σ := { s with index }
  suffices keeps : ((Operators.graphicsTable.dispatch call).run (stream.environment stream.scope)
      stream.nested start).KeepsSaved start by
    rw [perform, graphics]
    exact ⟨keeps.saved, keeps.result⟩
  have stable (t u : RunState K σ) (same : u.place = t.place) :
      stream.environment stream.scope u = stream.environment stream.scope t := by
    simp only [RunSettings.environment, same]
  cases Operators.carried_dispatch (σ := σ) call with
  | saves keyword _ => exact absurd (by simp [Operators.stackKeywords, keyword]) apart
  | restores keyword _ => exact absurd (by simp [Operators.stackKeywords, keyword]) apart
  | paints _ painting same =>
      rw [same]
      exact Operators.keepsSaved_finishPath restores answers painting call start
  | closes _ painting same =>
      rw [same, Action.run_bind]
      have closes : Draws True (stream.environment stream.scope start) stream.options
          start.toContext (Operators.closePath (σ := σ) call) (Operators.closePath call) :=
        Operators.draws_closePath call
      refine (closes.keepsSaved restores answers (stable start) rfl).andThen fun _ => ?_
      exact Operators.keepsSaved_finishPath restores answers painting call _
  | follows _ follows =>
      exact (follows _ start.toContext True stream.options (.refl _)).keepsSaved restores answers
        (stable start) rfl

end Stack

variable {stream}

/-- After some tokens a stream has come to other operands, another number of operators and another
state, and has told a log. Whatever stands behind the tokens is run from there. -/
def Passes (stream : StreamSettings K σ) (operands : List (Operand K)) (count : Nat)
    (s : RunState K σ) (tokens : List (Token K)) (operands' : List (Operand K)) (count' : Nat)
    (t : RunState K σ) (log : List (Entry K σ)) : Prop :=
  ∀ fault rest, stream.runTokens fault operands count s (tokens ++ rest) =
    (stream.runTokens fault operands' count' t rest).after log

namespace Passes

variable {operands operands' operands'' : List (Operand K)} {count count' count'' : Nat}
  {s t u : RunState K σ} {tokens rest : List (Token K)} {log log' : List (Entry K σ)}

omit [Scalar K]

theorem nil : stream.Passes operands count s [] operands count s [] := fun _ _ => rfl

/-- An operator after which the stream goes on. -/
theorem operator {op : Operator K} {o : Outcome OperatorError K σ Unit}
    (performed : stream.perform count ⟨op, operands⟩ s = o)
    (goesOn : o.state.ending? o.result = none)
    (later : stream.Passes [] (count + 1) o.state rest operands' count' t log) :
    stream.Passes operands count s (.operator op :: rest) operands' count' t (o.log ++ log) := by
  intro fault more
  rw [List.cons_append, runTokens_of_goesOn performed goesOn, later, Outcome.after_after]

theorem append (first : stream.Passes operands count s tokens operands' count' t log)
    (second : stream.Passes operands' count' t rest operands'' count'' u log') :
    stream.Passes operands count s (tokens ++ rest) operands'' count'' u (log ++ log') := by
  intro fault more
  rw [List.append_assoc, first, second, Outcome.after_after]

/-- All that the tokens come to. -/
theorem outcome (passes : stream.Passes operands count s tokens operands' count' t log) :
    stream.runTokens none operands count s tokens = ⟨.ok (), t, log⟩ := by
  have all := passes none []
  rw [List.append_nil] at all
  rw [all]
  simp [runTokens, Outcome.after]

end Passes

/-- Balanced tokens in which no fault arises restore all that they save themselves. The induction is
on the tokens; what they have saved stands above what was saved before. -/
theorem passes_balanced (graphics : stream.table = Operators.graphicsTable)
    (restores : stream.nested.Restores) (answers : stream.nested.HasSaved)
    {below : List (GraphicsState K σ)} (tokens : List (Token K)) (operands : List (Operand K))
    (count : Nat) (s : RunState K σ) (own : List (GraphicsState K σ))
    (saved : s.states.saved = own ++ below) (balanced : Balanced own.length tokens)
    (more : List (Token K))
    (ended : (stream.runTokens none operands count s (tokens ++ more)).result = .ok ()) :
    ∃ operands' count' t log, stream.Passes operands count s tokens operands' count' t log ∧
      t.states.saved = below := by
  induction tokens generalizing operands count s own with
  | nil =>
      have nothing : own = [] := List.eq_nil_of_length_eq_zero balanced.all.symm
      exact ⟨operands, count, s, [], .nil, by simpa [nothing] using saved⟩
  | cons token rest ih =>
    cases token with
    | operand v => exact ih _ _ s own saved balanced.operand ended
    | operator op =>
      -- what the operator leaves, if the stream goes on after it
      have step (own' : List (GraphicsState K σ)) {o : Outcome OperatorError K σ Unit}
          (performed : stream.perform count ⟨op, operands⟩ s = o)
          (goesOn : o.state.ending? o.result = none)
          (saved' : o.state.states.saved = own' ++ below) (later : Balanced own'.length rest) :
          ∃ operands' count' t log,
            stream.Passes operands count s (.operator op :: rest) operands' count' t log ∧
              t.states.saved = below := by
        rw [List.cons_append, runTokens_of_goesOn performed goesOn] at ended
        obtain ⟨operands', count', t, log, passes, kept⟩ :=
          ih [] (count + 1) o.state own' saved' later ended
        exact ⟨operands', count', t, _, passes.operator performed goesOn, kept⟩
      by_cases saves : op.keyword = "q"
      · obtain ⟨log, performed⟩ :=
          stream.perform_save graphics count ⟨op, operands⟩ saves s
        refine step (s.states.current :: own) performed rfl ?_ (balanced.save saves)
        simp [saved]
      by_cases restores' : op.keyword = "Q"
      · obtain ⟨n, length, later⟩ := balanced.restore restores'
        obtain ⟨latest, earlier, rfl⟩ := List.exists_cons_of_length_eq_add_one length
        obtain ⟨log, performed⟩ :=
          stream.perform_restore graphics count ⟨op, operands⟩ restores' saved
        cases Nat.succ.inj length
        exact step earlier performed rfl rfl later
      · have apart : op.keyword ∉ Operators.stackKeywords := by
          simp [Operators.stackKeywords, saves, restores']
        have keeps :=
          stream.keepsSaved_perform graphics count ⟨op, operands⟩ restores answers apart s
        rcases RunState.ending?_of_hasSaved _ keeps.result with goesOn | ⟨cause, fault⟩
        · exact step own rfl goesOn (keeps.saved.trans saved) (balanced.other apart)
        · simp only [List.cons_append, runTokens, fault] at ended
          cases ended

end StreamSettings

namespace RunSettings

/-- Between `q` and `Q` a stream may run whatever operators it likes, if each `Q` among them belongs
to a `q` before it and each `q` to a `Q`: after the last `Q` the current state and all saved ones
are what they were before the first `q`. Operators may fail, and forms, glyph procedures and pattern
cells may be run, balanced or not. The tokens behind are run on from there. -/
theorem graphics_enclosed_restores (options : Options) (baseMatrix : Matrix K)
    (resolver : Resolver K σ) (scope : σ) (levels : Nat) (operands : List (Operand K))
    (count : Nat) (s : RunState K σ) (tokens : List (Token K)) (balanced : Balanced 0 tokens) :
    let r : RunSettings K σ := graphics options baseMatrix resolver
    let stream : StreamSettings K σ := { r with scope, nested := r.nestedRun levels }
    let enclosed := .operator (.plain "q") :: tokens ++ [.operator (.plain "Q")]
    let o := stream.runTokens none operands count s enclosed
    o.result = .ok () → o.state.states = s.states ∧
      ∃ count', stream.Passes operands count s enclosed [] count' o.state o.log := by
  intro r stream enclosed o ended
  let restoring : List (Token K) := [.operator (.plain "Q")]
  obtain ⟨log, saves⟩ := stream.perform_save rfl count ⟨.plain "q", operands⟩ rfl s
  let start : RunState K σ := { s with index := count, states := s.states.save }
  have inside :
      (stream.runTokens none [] (count + 1) start (tokens ++ restoring)).result = .ok () := by
    have run : o = _ := StreamSettings.runTokens_of_goesOn saves rfl
    rw [run] at ended
    exact ended
  obtain ⟨operands', count', t, log', passes, saved⟩ :=
    stream.passes_balanced rfl (r.restores_nestedRun levels)
      (r.hasSaved_nestedRun levels) tokens [] (count + 1) start [] rfl balanced restoring inside
  obtain ⟨log'', restores⟩ := stream.perform_restore rfl count' ⟨.plain "Q", operands'⟩ rfl saved
  have last : stream.Passes operands' count' t restoring [] (count' + 1) _ _ :=
    .operator restores rfl .nil
  have all : stream.Passes operands count s enclosed [] (count' + 1) _ _ :=
    .operator saves rfl (passes.append last)
  have outcome : o = _ := all.outcome
  rw [outcome]
  exact ⟨rfl, count' + 1, all⟩

/-- `/Pattern cs /P scn 0 0 8 8 re f` with a cell that saves and does not restore. -/
theorem graphics_enclosed_restores_fill :
    let cell : TilingPattern Int Unit :=
      { content := [0x71, 0x20, 0x71], matrix := .identity, bbox := ⟨0, 0, 4, 4⟩, xStep := 4,
        yStep := 4, paintType := 1, tilingType := 1, scope := none }
    let r : RunSettings Int Unit :=
      graphics ⟨2, true, true, true⟩ .identity (.ofCatalogs fun _ =>
        { colorSpaces := [("Pattern", .pattern none)], patterns := [("P", .tiling cell)] })
    let stream : StreamSettings Int Unit := { r with scope := (), nested := r.nestedRun 2 }
    let s : RunState Int Unit := .initial .identity
    let tokens : List (Token Int) :=
      [.operand (.name "Pattern"), .operator (.plain "cs"), .operand (.name "P"),
        .operator (.plain "scn"), .operand (.integer 0), .operand (.integer 0),
        .operand (.integer 8), .operand (.integer 8), .operator (.plain "re"),
        .operator (.plain "f")]
    let enclosed := .operator (.plain "q") :: tokens ++ [.operator (.plain "Q")]
    let o := stream.runTokens none [] 0 s enclosed
    Balanced 0 tokens ∧ o.result = .ok () ∧ o.state.states = s.states := by
  intro cell r stream s tokens enclosed o
  have balanced : Balanced 0 tokens := by decide +kernel
  have ended : o.result = .ok () := by decide +kernel
  have restored :=
    graphics_enclosed_restores ⟨2, true, true, true⟩ .identity _ () 2 [] 0 s tokens balanced ended
  exact ⟨balanced, ended, restored.1⟩

end RunSettings

end PdfContent
