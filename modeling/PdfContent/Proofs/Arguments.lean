import PdfContent.Interpreter.Page

/-!
# Reading arguments

Operands, and the resources that they name, are read by partial functions. Where they fail, the error
is about the operand or the resource: a missing one, or one of the wrong kind or value.
-/

namespace PdfContent

variable {K σ α β : Type}

/-- The error is about the operands of an operator or a resource that they name. -/
def OperatorError.IsArgument : OperatorError → Prop
  | .missingOperand _ _ _ => True
  | .invalidOperand _ _ _ _ => True
  | .invalidValue _ _ => True
  | .missingResource _ _ => True
  | _ => False

/-- A result that, if it is an error, is one about arguments. -/
def ArgumentResult (result : Except OperatorError α) : Prop := ∀ e, result = .error e → e.IsArgument

namespace ArgumentResult

theorem ok (a : α) : ArgumentResult (.ok a : Except OperatorError α) := by
  intro e he
  cases he

theorem error {e : OperatorError} (isArgument : e.IsArgument) :
    ArgumentResult (.error e : Except OperatorError α) := by
  intro e' he
  cases he
  exact isArgument

theorem bind {x : Except OperatorError β} {f : β → Except OperatorError α}
    (first : ArgumentResult x) (second : ∀ b, ArgumentResult (f b)) : ArgumentResult (x >>= f) := by
  cases x with
  | error e => exact error (first e rfl)
  | ok b => exact second b

/-- A value that is read and passed on in some form. -/
theorem map {x : Except OperatorError β} (first : ArgumentResult x) (f : β → α) :
    ArgumentResult (do let b ← x; return f b) :=
  first.bind fun _ => .ok _

end ArgumentResult

namespace Call

variable (call : Call K)

theorem argument_operand (index : Nat) : ArgumentResult (call.operand index) := by
  rw [operand]
  split
  · exact .ok _
  · exact .error trivial

theorem argument_read (index : Nat) (expected : String) (view : Operand K → Option α) :
    ArgumentResult (call.read index expected view) := by
  refine (call.argument_operand index).bind fun v => ?_
  split
  · exact .ok _
  · exact .error trivial

variable [Scalar K]

theorem argument_number (index : Nat) : ArgumentResult (call.number index) :=
  call.argument_read _ _ _

theorem argument_matrix : ArgumentResult call.matrix :=
  (call.argument_number 0).bind fun _ => (call.argument_number 1).bind fun _ =>
    (call.argument_number 2).bind fun _ => (call.argument_number 3).bind fun _ =>
      (call.argument_number 4).bind fun _ => (call.argument_number 5).map _

end Call

namespace Operators

theorem argument_require (kind : ResourceKind) (name : String) (found : Option α) :
    ArgumentResult (require kind name found) := by
  cases found with
  | none => exact .error trivial
  | some a => exact .ok a

theorem argument_propertyList (env : Environment K σ) (call : Call K) :
    ArgumentResult (propertyList env call) := by
  rw [propertyList]
  split
  · exact argument_require _ _ _
  · exact call.argument_read 1 _ _

variable [Scalar K]

theorem argument_dashLengths (call : Call K) (items : List (Operand K)) :
    ArgumentResult (dashLengths call items) := by
  induction items with
  | nil => exact .ok _
  | cons v rest ih =>
      rw [dashLengths]
      split
      · exact ih.map _
      · exact .error trivial

theorem argument_colorComponents (keyword : String) (index : Nat) (operands : List (Operand K)) :
    ArgumentResult (colorComponents keyword index operands) := by
  induction operands generalizing index with
  | nil => exact .ok _
  | cons v rest ih =>
      rw [colorComponents]
      split
      · exact (ih (index + 1)).map _
      · exact .error trivial

theorem argument_selectedColor (call : Call K) (space : ColorSpace) (patterns : Bool) :
    ArgumentResult (selectedColor call space patterns) := by
  rw [selectedColor]
  refine (argument_colorComponents _ _ _).bind fun components => ?_
  split
  · exact .ok _
  · split
    · exact .error trivial
    · exact .ok _

theorem argument_setLineCap (call : Call K) : ArgumentResult (setLineCap (σ := σ) call) :=
  (call.argument_read 0 _ _).bind fun value => by
    split
    · exact .ok _
    · exact .error trivial

theorem argument_setLineJoin (call : Call K) : ArgumentResult (setLineJoin (σ := σ) call) :=
  (call.argument_read 0 _ _).bind fun value => by
    split
    · exact .ok _
    · exact .error trivial

theorem argument_setRenderMode (call : Call K) : ArgumentResult (setRenderMode (σ := σ) call) :=
  (call.argument_read 0 _ _).bind fun value => by
    split
    · exact .ok _
    · exact .error trivial

end Operators

end PdfContent
