import PdfContent.Content.TokenStream
import PdfContent.Interpreter.Action
import PdfContent.Interpreter.Table

/-!
# Running a stream

A stream is run token by token: operands are gathered, and an operator is carried out with the operands
since the one before it. An operator that fails is reported and passed over, with three exceptions. A
fault in the content ends the whole run; an operator that is unknown inside a compatibility section is
not reported; and a nested stream that restores more than it saved ends there.

A nested stream is entered and left on the state of the stream around it. `nestedRun` gives for a number
of levels how to run one with at most as many streams inside each other, by recursion on that number.
The limit is checked against the depth that the state counts.
-/

namespace PdfContent

variable {K σ : Type} [Scalar K]

/-- An operator table for interpreting content. -/
abbrev ContentTable (K σ : Type) := OperatorTable K (Action K σ)

/-- What is fixed for a whole run. -/
structure RunSettings (K σ : Type) where
  options : Options
  receiver : Receiver
  baseMatrix : Matrix K
  resolver : Resolver K σ
  table : ContentTable K σ

/-- A stream of a run: the scope of its resources, and how it runs nested streams. -/
structure StreamSettings (K σ : Type) extends RunSettings K σ where
  scope : σ
  nested : NestedRun K σ

/-- How a stream goes on after an operator that failed. -/
inductive Reaction
  | abort (cause : ContentError)
  | leave
  | goOn (report : Bool)
  deriving DecidableEq, Repr

/-- Whether the error is reported. -/
def Reaction.reports : Reaction → Bool
  | .abort _ => false
  | .leave => true
  | .goOn report => report

namespace RunState

omit [Scalar K]

/-- The reaction to an error after which the run is in the given state. -/
def react (s : RunState K σ) : OperatorError → Reaction
  | .fatal cause => .abort cause
  | .unknownOperator _ => .goOn !s.inCompatibilitySection
  | .emptyGraphicsStack => if 0 < s.depth then .leave else .goOn true
  | _ => .goOn true

/-- How a stream ends after an operator with the given result, if it ends there. -/
def ending? (s : RunState K σ) : Except OperatorError Unit → Option (Except ContentError Unit)
  | .ok _ => none
  | .error e =>
    match s.react e with
    | .abort cause => some (.error cause)
    | .leave => some (.ok ())
    | .goOn _ => none

end RunState

namespace RunSettings

omit [Scalar K]

/-- What an operator of a stream can read besides the context. -/
def environment (r : RunSettings K σ) (scope : σ) (s : RunState K σ) : Environment K σ where
  options := r.options
  receiver := r.receiver
  baseMatrix := r.baseMatrix
  resolver := r.resolver
  scope := scope
  place := s.place

/-- The warning about an operator that has failed, if the failure is reported and warnings are wanted. -/
def report (r : RunSettings K σ) (call : Call K) (s : RunState K σ) :
    Except OperatorError Unit → List (Entry K σ)
  | .ok _ => []
  | .error e =>
    if (s.react e).reports && r.options.collectWarnings then
      [.event (.warning (Warning.ofError e call.operator.keyword s.index s.depth))]
    else []

end RunSettings

namespace StreamSettings

omit [Scalar K]

/-- Carries out one operator, with marks around it in the log and the warning about its failure. -/
def perform (s : StreamSettings K σ) (index : Nat) (call : Call K) (state : RunState K σ) :
    Outcome OperatorError K σ Unit :=
  let start := { state with index }
  let o := (s.table.dispatch call).run (s.environment s.scope) s.nested start
  { o with
    log := .started call start :: o.log ++ s.report call o.state o.result ++
      [.finished call o.result o.state] }

/-- Runs tokens, after `operands` that have been gathered and `count` operators, up to the fault that
ends the content if there is one. -/
def runTokens (s : StreamSettings K σ) (fault : Option ContentError) (operands : List (Operand K))
    (count : Nat) (state : RunState K σ) : List (Token K) → Outcome ContentError K σ Unit
  | [] =>
    match fault with
    | some e => ⟨.error e, state, []⟩
    | none => ⟨.ok (), state, []⟩
  | .operand v :: rest => runTokens s fault (operands ++ [v]) count state rest
  | .operator op :: rest =>
    let o := s.perform count ⟨op, operands⟩ state
    match o.state.ending? o.result with
    | some result => ⟨result, o.state, o.log⟩
    | none => (runTokens s fault [] (count + 1) o.state rest).after o.log

end StreamSettings

/-- Runs content as a stream. -/
def StreamSettings.run (s : StreamSettings K σ) (content : Bytes) (state : RunState K σ) :
    Outcome ContentError K σ Unit :=
  let tokens : Content.TokenStream K := .ofBytes content
  s.runTokens (tokens.error? content.length) [] 0 state tokens.values

namespace RunSettings

/-- Runs content as a nested stream, with at most `levels` streams inside each other. At the depth limit
nothing is run. -/
def nestedRun (r : RunSettings K σ) (levels : Nat) : NestedRun K σ := fun content scope setup s =>
  if r.options.maxDepth ≤ s.depth then ⟨.error (.recursionLimit r.options.maxDepth), s, []⟩
  else
    match levels with
    | 0 => ⟨.error (.recursionLimit r.options.maxDepth), s, []⟩
    | levels + 1 =>
      let inner : StreamSettings K σ := { r with scope, nested := r.nestedRun levels }
      let start := s.enter setup
      let o := inner.run content start
      { result := o.result.mapError OperatorError.fatal
        state := o.state.leave s.park
        log := .opened content start :: o.log ++ [.closed o.result o.state] }

/-- The outermost stream of a run. From depth zero, no more than `maxDepth` streams can be inside each
other. -/
def outermost (r : RunSettings K σ) (scope : σ) : StreamSettings K σ :=
  { r with scope, nested := r.nestedRun r.options.maxDepth }

/-- Runs content as the outermost stream. -/
def run (r : RunSettings K σ) (content : Bytes) (scope : σ) (s : RunState K σ) :
    Outcome ContentError K σ Unit :=
  (r.outermost scope).run content s

end RunSettings

end PdfContent
