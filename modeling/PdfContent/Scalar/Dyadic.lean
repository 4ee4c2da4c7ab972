/-!
# Dyadic rationals

A finite double is `± m · 2 ^ e` with natural `m`; `Dyadic` names that triple, and everything that has to
be exact (integer parts, vector lengths, digits) is computed on it.
-/

namespace PdfContent

/-- The number `± m · 2 ^ e`. -/
structure Dyadic where
  negative : Bool
  m : Nat
  e : Int
  deriving Repr, DecidableEq

namespace Dyadic

/-- The value of a finite double; what is not finite has no value. -/
def ofFloat? (x : Float) : Option Dyadic :=
  let bits : Nat := x.toBits.toNat
  let negative := bits / 0x8000000000000000 == 1
  let exponent : Nat := bits / 0x10000000000000 % 0x800
  let fraction := bits % 0x10000000000000
  if exponent == 2047 then none
  else if exponent == 0 then some ⟨negative, fraction, -1074⟩
  else some ⟨negative, 0x10000000000000 + fraction, (exponent : Int) - 1075⟩

/-- The magnitude times `2 ^ shift`, rounded down. -/
def scaledFloor (d : Dyadic) (shift : Int) : Nat :=
  let s := d.e + shift
  if 0 ≤ s then d.m <<< s.toNat else d.m >>> (-s).toNat

/-- The integer part. -/
def truncate (d : Dyadic) : Int :=
  let n : Int := d.scaledFloor 0
  if d.negative then -n else n

/-- No fractional part. -/
def isWhole (d : Dyadic) : Bool :=
  if 0 ≤ d.e then true else d.m % (1 <<< (-d.e).toNat) == 0

end Dyadic

end PdfContent
