/-!
# Sums of 32-bit numbers

Codes and glyph numbers are 32-bit numbers. Where two of them are added and the sum does not fit, the
program ends; it does not go on with a number that has been reduced. `exactSum` either has the sum or
says so.
-/

namespace PdfContent

/-- What ends the program without a result. -/
inductive Overflow
  | sum
  deriving DecidableEq, Repr

def Overflow.message : Overflow → String
  | .sum => "attempt to add with overflow"

/-- What a computation ended by. -/
def Overflow.of? {α : Type} : Except Overflow α → Option Overflow
  | .ok _ => none
  | .error e => some e

/-- The sum of two numbers, if it has no more than 32 bits. -/
def exactSum (a b : UInt32) : Except Overflow UInt32 :=
  if a.toNat + b.toNat < 0x100000000 then .ok (a + b) else .error .sum

theorem exactSum_eq_ok_iff {a b c : UInt32} :
    exactSum a b = .ok c ↔ c.toNat = a.toNat + b.toNat := by
  have small := c.toNat_lt
  unfold exactSum
  split
  next fits =>
    rw [Except.ok.injEq, ← UInt32.toNat_inj, UInt32.toNat_add, Nat.mod_eq_of_lt fits, eq_comm]
  next => exact iff_of_false nofun (by omega)

theorem exactSum_eq_error_iff {a b : UInt32} {e : Overflow} :
    exactSum a b = .error e ↔ 0x100000000 ≤ a.toNat + b.toNat := by
  cases e
  unfold exactSum
  split
  next fits => exact iff_of_false nofun (by omega)
  next beyond => exact iff_of_true rfl (by omega)

end PdfContent
