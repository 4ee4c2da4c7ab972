/-!
# Numbers that pages are computed with

Coordinates, colours and text advances are computed over a number type that is left open. A program
runs with binary floating point (`PdfContent.Scalar.Binary64`); geometric facts are stated in exact
arithmetic, where `single` changes nothing and `isFinite` always holds. The class holds exactly the
operations that interpreting a page needs.
-/

namespace PdfContent

/-- A number type for page geometry. Comparisons are decidable but need not be total: a value that is
not a number compares with nothing. -/
class Scalar (K : Type) extends Add K, Sub K, Mul K, Div K, Neg K, Zero K, One K, LT K, LE K where
  decLt : DecidableLT K
  decLe : DecidableLE K
  /-- The number nearest to an integer. -/
  ofInt : Int → K
  /-- The number nearest to `± m / 10 ^ places`. -/
  ofDecimal : (negative : Bool) → (m : Nat) → (places : Nat) → K
  /-- The number in single precision that is nearest to `x`. -/
  single : K → K
  abs : K → K
  /-- The length of the vector `(x, y)`, without intermediate overflow. -/
  hypot : K → K → K
  /-- The smaller of two; the other one if one is not a number. -/
  least : K → K → K
  /-- The larger of two; the other one if one is not a number. -/
  greatest : K → K → K
  /-- The least number in a nonempty list, passing over what is not a number. -/
  lowest : List K → K
  /-- The greatest number in a nonempty list, passing over what is not a number. -/
  highest : List K → K
  isFinite : K → Bool
  /-- Finite and without a fractional part. -/
  isWhole : K → Bool
  /-- The integer part of `x`, moved into `[lo, hi]`; zero for what is not a number. -/
  clampInt : (lo hi : Int) → K → Int
  /-- The decimal text of a number that is exact in single precision. -/
  text : K → String
  /-- A total order that agrees with `<` on finite numbers. -/
  totalCompare : K → K → Ordering

instance decidableLt {K : Type} [Scalar K] (x y : K) : Decidable (x < y) := Scalar.decLt x y

instance decidableLe {K : Type} [Scalar K] (x y : K) : Decidable (x ≤ y) := Scalar.decLe x y

namespace Scalar

variable {K : Type} [Scalar K]

/-- Numerical equality: the two zeros are equal, and what is not a number equals nothing. -/
def same (x y : K) : Bool := decide (x ≤ y) && decide (y ≤ x)

/-- The number nearest to a natural number. -/
def ofNat (n : Nat) : K := ofInt (Int.ofNat n)

/-- Half of `x`. -/
def half (x : K) : K := x / ofInt 2

/-- Equality of two lists, number by number. -/
def sameList : List K → List K → Bool
  | [], [] => true
  | x :: xs, y :: ys => same x y && sameList xs ys
  | _, _ => false

end Scalar

end PdfContent
