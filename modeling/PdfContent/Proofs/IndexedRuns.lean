import PdfContent.Proofs.IndexedOperators
import PdfContent.Proofs.IndexedTokens

/-!
# Runs within range

A checked run reads its tokens by index and carries out its operators with checked handlers, in the
outermost stream and in every stream inside. It ends at the first access out of range. With either
built-in table there is none, whatever the content, the resources and the state are: the checked run
gives what the run gives.
-/

namespace PdfContent

variable {K σ : Type}

/-- A way to run content as a nested stream with accesses by index checked. -/
abbrev CheckedNestedRun (K σ : Type) :=
  Bytes → σ → (GraphicsState K σ → GraphicsState K σ) → RunState K σ →
    Except OutOfRange (Outcome OperatorError K σ Unit)

/-- A checked way to run nested streams goes another way, without an access out of range. -/
def CheckedNestedRun.Goes (checked : CheckedNestedRun K σ) (nested : NestedRun K σ) : Prop :=
  ∀ content scope setup s, checked content scope setup s = .ok (nested content scope setup s)

/-! ### Actions -/

section Actions

variable {α : Type} (environment : RunState K σ → Environment K σ) (checked : CheckedNestedRun K σ)

/-- Carries out an action whose nested streams are checked. -/
def Action.runChecked :
    Action K σ α → RunState K σ → Except OutOfRange (Outcome OperatorError K σ α)
  | .finish result, s => .ok ⟨result, s, []⟩
  | .look next, s => (next (environment s) s.toContext).runChecked s
  | .change f next, s => next.runChecked (s.updateContext f)
  | .tell e next, s => do return (← next.runChecked s).after [.event e]
  | .nest content scope setup next, s => do
    let o ← checked content scope setup s
    return (← (next o.result).runChecked o.state).after o.log

/-- What became of a checked action: an access out of range is not an outcome. -/
def Outcome.withinRange {ε : Type} (o : Outcome ε K σ (Except OutOfRange α)) :
    Except OutOfRange (Outcome ε K σ α) :=
  match o.result with
  | .ok (.ok a) => .ok ⟨.ok a, o.state, o.log⟩
  | .ok (.error access) => .error access
  | .error e => .ok ⟨.error e, o.state, o.log⟩

/-- Carries out a checked action. -/
def CheckedAction.run (x : CheckedAction K σ α) (s : RunState K σ) :
    Except OutOfRange (Outcome OperatorError K σ α) := do
  (← Action.runChecked environment checked (ExceptT.run x) s).withinRange

variable {environment checked} {nested : NestedRun K σ}

theorem CheckedNestedRun.Goes.runChecked (goes : checked.Goes nested) (x : Action K σ α)
    (s : RunState K σ) :
    x.runChecked environment checked s = .ok (x.run environment nested s) := by
  induction x generalizing s with
  | finish result => rfl
  | look next ih => exact ih _ _ s
  | change f next ih => exact ih (s.updateContext f)
  | tell e next ih =>
      rw [Action.runChecked, ih]
      rfl
  | nest content scope setup next ih =>
      rw [Action.runChecked, goes]
      dsimp only [bind, Except.bind]
      rw [ih]
      rfl

/-- An action without accesses by index is carried out as it is. -/
theorem CheckedNestedRun.Goes.run_lift (goes : checked.Goes nested) (x : Action K σ α)
    (s : RunState K σ) :
    CheckedAction.run environment checked (ExceptT.lift x) s =
      .ok (x.run environment nested s) := by
  rw [CheckedAction.run, ExceptT.run_lift, goes.runChecked, map_eq_pure_bind, Action.run_bind]
  generalize x.run environment nested s = o
  obtain ⟨result, state, log⟩ := o
  cases result with
  | error e => rfl
  | ok a =>
      change Outcome.withinRange ⟨.ok (.ok a), state, log ++ []⟩ = _
      rw [List.append_nil]
      rfl

end Actions

/-! ### Streams -/

section Streams

variable [Scalar K]

namespace RunSettings

variable (r : RunSettings K σ) (handlers : CheckedHandlers K σ)

section Stream

variable (scope : σ) (checked : CheckedNestedRun K σ)

omit [Scalar K] in
/-- Carries out one operator as `StreamSettings.perform` does. -/
def checkedPerform (index : Nat) (call : Call K) (state : RunState K σ) :
    Except OutOfRange (Outcome OperatorError K σ Unit) := do
  let start := { state with index }
  let o ← (r.table.checkedDispatch handlers call).run (r.environment scope) checked start
  return { o with
    log := .started call start :: o.log ++ r.report call o.state o.result ++
      [.finished call o.result o.state] }

/-- Runs tokens as `StreamSettings.runTokens` does. -/
def checkedTokens (fault : Option ContentError) (operands : List (Operand K)) (count : Nat)
    (state : RunState K σ) :
    List (Token K) → Except OutOfRange (Outcome ContentError K σ Unit)
  | [] =>
    match fault with
    | some e => .ok ⟨.error e, state, []⟩
    | none => .ok ⟨.ok (), state, []⟩
  | .operand v :: rest => checkedTokens fault (operands ++ [v]) count state rest
  | .operator op :: rest => do
    let o ← r.checkedPerform handlers scope checked count ⟨op, operands⟩ state
    match o.state.ending? o.result with
    | some result => return ⟨result, o.state, o.log⟩
    | none => return (← checkedTokens fault [] (count + 1) o.state rest).after o.log

/-- Runs content as a stream. -/
def checkedStream (content : Bytes) (state : RunState K σ) :
    Except OutOfRange (Outcome ContentError K σ Unit) := do
  let tokens : Content.TokenStream K ← Content.Indexed.tokens content 0
  r.checkedTokens handlers scope checked (tokens.error? content.length) [] 0 state tokens.values

end Stream

/-- Runs content as a nested stream, as `nestedRun` does. -/
def checkedNested : (levels : Nat) → CheckedNestedRun K σ
  | levels, content, scope, setup, s =>
    if r.options.maxDepth ≤ s.depth then
      .ok ⟨.error (.recursionLimit r.options.maxDepth), s, []⟩
    else
      match levels with
      | 0 => .ok ⟨.error (.recursionLimit r.options.maxDepth), s, []⟩
      | levels + 1 => do
        let start := s.enter setup
        let o ← r.checkedStream handlers scope (checkedNested levels) content start
        return { result := o.result.mapError OperatorError.fatal
                 state := o.state.leave s.park
                 log := .opened content start :: o.log ++ [.closed o.result o.state] }

/-- Runs content as the outermost stream, with all accesses by index checked. -/
def checkedRun (content : Bytes) (scope : σ) (s : RunState K σ) :
    Except OutOfRange (Outcome ContentError K σ Unit) :=
  r.checkedStream handlers scope (r.checkedNested handlers r.options.maxDepth) content s

variable {r handlers} (fit : r.table.Fit handlers)

include fit

section Stream

variable {scope : σ} {checked : CheckedNestedRun K σ} {nested : NestedRun K σ}
  (goes : checked.Goes nested)

include goes

omit [Scalar K] in
theorem checkedPerform_eq (index : Nat) (call : Call K) (state : RunState K σ) :
    r.checkedPerform handlers scope checked index call state =
      .ok (StreamSettings.perform { r with scope, nested } index call state) := by
  rw [checkedPerform, fit.checkedDispatch, goes.run_lift]
  rfl

omit [Scalar K] in
theorem checkedTokens_eq (fault : Option ContentError) (operands : List (Operand K)) (count : Nat)
    (state : RunState K σ) (tokens : List (Token K)) :
    r.checkedTokens handlers scope checked fault operands count state tokens =
      .ok (StreamSettings.runTokens { r with scope, nested } fault operands count state
        tokens) := by
  induction tokens generalizing operands count state with
  | nil => cases fault <;> rfl
  | cons token rest ih =>
      cases token with
      | operand v => exact ih _ _ _
      | operator op =>
          rw [checkedTokens, checkedPerform_eq fit goes, StreamSettings.runTokens]
          generalize StreamSettings.perform { r with scope, nested } count ⟨op, operands⟩ state = o
          dsimp only [bind, Except.bind]
          cases o.state.ending? o.result with
          | some result => rfl
          | none =>
              dsimp only
              rw [ih]
              rfl

theorem checkedStream_eq (content : Bytes) (state : RunState K σ) :
    r.checkedStream handlers scope checked content state =
      .ok (StreamSettings.run { r with scope, nested } content state) := by
  rw [checkedStream, Content.Indexed.tokens_start]
  exact checkedTokens_eq fit goes _ _ _ _ _

end Stream

theorem goes_checkedNested (levels : Nat) :
    (r.checkedNested handlers levels).Goes (r.nestedRun levels) := by
  induction levels with
  | zero =>
      intro content scope setup s
      rw [checkedNested, nestedRun]
      split <;> rfl
  | succ levels ih =>
      intro content scope setup s
      rw [checkedNested, nestedRun]
      split
      · rfl
      · dsimp only
        rw [checkedStream_eq fit ih]
        rfl

theorem checkedRun_eq (content : Bytes) (scope : σ) (s : RunState K σ) :
    r.checkedRun handlers content scope s = .ok (r.run content scope s) :=
  checkedStream_eq fit (goes_checkedNested fit _) content s

end RunSettings

open Operators Operators.Indexed in
/-- Tokenizing content and interpreting it with one of the built-in tables stays within range: all
accesses by index, by the reader and by the handlers of operators that are called by the stream or
by other operators, in all streams inside each other. The content, the resources, the options and
the state that the run starts from do not matter. -/
theorem RunSettings.standard_withinRange (r : RunSettings K σ) (content : Bytes) (scope : σ)
    (s : RunState K σ) :
    Content.Indexed.tokens content 0 = .ok (Content.TokenStream.ofBytes (K := K) content) ∧
      { r with table := graphicsTable }.checkedRun (sharedHandlers ++ paintingHandlers)
          content scope s =
        .ok ({ r with table := graphicsTable }.run content scope s) ∧
      { r with table := textTable }.checkedRun sharedHandlers content scope s =
        .ok ({ r with table := textTable }.run content scope s) :=
  ⟨Content.Indexed.tokens_start content, checkedRun_eq fit_graphics content scope s,
    checkedRun_eq fit_text content scope s⟩

end Streams

end PdfContent
