import PdfContent.Proofs.Arguments

/-!
# Failures and remarks

An operator that fails is reported by the stream that it belongs to. While it is carried out it may
make remarks of its own: about text for which no font was selected, about a font that writes
vertically, about a segment without a current point, and about something that is not run since the
depth limit is reached. A remark is a warning, too, and comes with the place of the same operator.

That a failure is reported once therefore needs a proof that no remark reads like the report. They
differ in their code or their wording, except for the depth limit; and an operator that makes
remarks never fails by it.
-/

namespace PdfContent

/-- A warning by which an operator remarks on something and goes on. -/
inductive IsRemark (place : Place) : Warning → Prop
  | fontless (keyword : String) : IsRemark place
      ((Warning.withCode .textState "text shown before any font was selected").atOperator keyword
        place.index place.depth)
  | vertical (keyword name : String) : IsRemark place
      ((Warning.withCode .textState
        ("font /" ++ name ++ " uses vertical writing; glyphs advance horizontally")).atOperator
          keyword place.index place.depth)
  | pointless (keyword : String) : IsRemark place
      ((Warning.withCode .invalidOperand
        ("'" ++ keyword ++ "' without a current point; treated as moveto")).atOperator keyword
          place.index place.depth)
  | tooDeep (keyword : String) (limit : Nat) : IsRemark place
      (Warning.ofError (.recursionLimit limit) keyword place.index place.depth)

theorem IsRemark.place {place : Place} {w : Warning} (remark : IsRemark place w) :
    w.operatorIndex = some place.index ∧ w.depth = place.depth := by
  cases remark <;> exact ⟨rfl, rfl⟩

/-- The errors by which known operators fail. Those that make remarks do not fail by the limit. -/
def Permits (remarks : Bool) : OperatorError → Prop
  | .unknownOperator _ => False
  | .recursionLimit _ => remarks = false
  | _ => True

theorem OperatorError.IsArgument.permits {e : OperatorError} (isArgument : e.IsArgument)
    (remarks : Bool) : Permits remarks e := by
  cases e <;> trivial

/-- Errors about operands and text objects are worded in one way. -/
theorem OperatorError.exists_message {e : OperatorError}
    (code : e.warningCode = .textState ∨ e.warningCode = .invalidOperand) :
    ∃ rest, e.message = "operator '" ++ rest := by
  cases e with
  | outsideTextObject operator =>
      exact ⟨operator ++ "' used outside of a text object", String.append_assoc ..⟩
  | invalidValue operator text => exact ⟨operator ++ ("': " ++ text), by
      change "operator '" ++ operator ++ "': " ++ text = _
      simp only [String.append_assoc]⟩
  | invalidOperand operator index expected found =>
      exact ⟨operator ++ ("' operand " ++ (toString index ++ (": expected " ++ (expected ++
        (", found " ++ found))))), by
        change "operator '" ++ operator ++ "' operand " ++ toString index ++ ": expected " ++
          expected ++ ", found " ++ found = _
        simp only [String.append_assoc]⟩
  | _ => rcases code with code | code <;> cases code

/-- A remark does not read like the report of a failure: where the codes are the same, the wordings
differ from the first character on. -/
theorem IsRemark.ne_report {place : Place} {w : Warning} (remark : IsRemark place w)
    {e : OperatorError} (permits : Permits true e) (keyword : String) (index depth : Nat) :
    w ≠ Warning.ofError e keyword index depth := by
  intro same
  have code : w.code = e.warningCode := by
    rw [same]
    rfl
  have text : w.description = e.message := by
    rw [same]
    rfl
  cases remark with
  | fontless keyword =>
      obtain ⟨rest, wording⟩ := OperatorError.exists_message (.inl code.symm)
      have apart := congrArg String.toList (text.trans wording)
      simp [Warning.atOperator, Warning.withCode] at apart
  | vertical keyword name =>
      obtain ⟨rest, wording⟩ := OperatorError.exists_message (.inl code.symm)
      have apart := congrArg String.toList (text.trans wording)
      simp [Warning.atOperator, Warning.withCode] at apart
  | pointless keyword =>
      obtain ⟨rest, wording⟩ := OperatorError.exists_message (.inr code.symm)
      have apart := congrArg String.toList (text.trans wording)
      simp [Warning.atOperator, Warning.withCode] at apart
  | tooDeep keyword limit =>
      cases e with
      | recursionLimit => cases permits
      | _ => cases code

end PdfContent
