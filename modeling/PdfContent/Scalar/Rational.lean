import PdfContent.Scalar

/-!
# Rational numbers as a number type

Content whose numbers are divided by one another can be run exactly, but for lengths of vectors: these
are roots, and are rounded down to a multiple of the unit of the square.
-/

namespace PdfContent

namespace Rational

def least (x y : Rat) : Rat := if x ≤ y then x else y

def greatest (x y : Rat) : Rat := if x ≤ y then y else x

end Rational

/-- Rational numbers: every one is finite and compares with every other. -/
instance : Scalar Rat where
  zero := 0
  one := 1
  decLt := inferInstance
  decLe := inferInstance
  ofInt i := i
  ofDecimal negative m places :=
    let magnitude := mkRat m (Nat.pow 10 places)
    if negative then -magnitude else magnitude
  single x := x
  abs x := Rational.greatest x (-x)
  hypot x y :=
    let square := x * x + y * y
    mkRat (square.num.natAbs * square.den).sqrt square.den
  least := Rational.least
  greatest := Rational.greatest
  lowest xs := xs.foldl Rational.least (xs.headD 0)
  highest xs := xs.foldl Rational.greatest (xs.headD 0)
  isFinite _ := true
  isWhole x := x.den == 1
  clampInt lo hi x := max lo (min hi (x.num.tdiv x.den))
  text x := toString x
  totalCompare x y := compareOfLessAndEq x y

end PdfContent
