import PdfContent.Interpreter.Stream

/-!
# Making table entries

An operator of a table is an action, a change of the graphics state that its operands determine, or a
sequence of other operators.
-/

namespace PdfContent.Operators

variable {K σ : Type} [Scalar K]

/-- An operator of a table. -/
def entry (keyword : String) (minOperands : Nat) (run : Call K → Action K σ Unit) :
    TableEntry K (Action K σ) := ⟨keyword, minOperands, .action run⟩

/-- An operator that stands for others. -/
def compound (keyword : String) (minOperands : Nat)
    (steps : Call K → Except OperatorError (List (String × List (Operand K)))) :
    TableEntry K (Action K σ) := ⟨keyword, minOperands, .sequence steps⟩

/-- An operator that does nothing. -/
def ignored (keyword : String) (minOperands : Nat) : TableEntry K (Action K σ) :=
  entry keyword minOperands fun _ => pure ()

/-- Takes the latest saved graphics state back. -/
def restoreState : Action K σ Unit := do
  match (← Action.context).states.restore? with
  | some states => Action.modify fun c => { c with states }
  | none => throw OperatorError.emptyGraphicsStack

/-- A resource that has to be there. -/
def require {α : Type} (kind : ResourceKind) (name : String) : Option α → Except OperatorError α
  | some a => .ok a
  | none => .error (.missingResource kind name)

/-- An operator that changes the graphics state in a way that its operands determine. -/
def setter (keyword : String) (minOperands : Nat)
    (change : Call K → Except OperatorError (GraphicsState K σ → GraphicsState K σ)) :
    TableEntry K (Action K σ) :=
  entry keyword minOperands fun call => do
    Action.updateState (← Action.ofExcept (change call))

end PdfContent.Operators
