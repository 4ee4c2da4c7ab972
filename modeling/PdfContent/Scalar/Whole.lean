import PdfContent.Scalar

/-!
# Whole numbers as a number type

Content without fractions can be run exactly. Decimal places that are given nevertheless are rounded
off.
-/

namespace PdfContent

/-- Integers: every one is finite and compares with every other. -/
instance : Scalar Int where
  zero := 0
  one := 1
  decLt := inferInstance
  decLe := inferInstance
  ofInt i := i
  ofDecimal negative m places :=
    let magnitude : Nat := (2 * m + Nat.pow 10 places) / (2 * Nat.pow 10 places)
    if negative then -magnitude else magnitude
  single x := x
  abs x := x.natAbs
  hypot x y := (x * x + y * y).natAbs.sqrt
  least x y := min x y
  greatest x y := max x y
  lowest xs := xs.foldl min (xs.headD 0)
  highest xs := xs.foldl max (xs.headD 0)
  isFinite _ := true
  isWhole _ := true
  clampInt lo hi x := max lo (min hi x)
  text x := toString x
  totalCompare x y := compare x y

end PdfContent
