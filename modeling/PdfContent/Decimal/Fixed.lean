import PdfContent.Scalar.Dyadic

/-!
# Two decimal places

Positions and sizes in listings have two places. The exact binary value is rounded to the nearest
hundredth, a half to the even one; a minus sign stays even where only zeros are left.
-/

namespace PdfContent

/-- `num / den` rounded to the nearest natural number, a half to the even neighbour. -/
def roundHalfEven (num den : Nat) : Nat :=
  let q := num / den
  let rest := 2 * (num % den)
  if rest < den then q else if den < rest then q + 1 else q + q % 2

/-- The magnitude in hundredths. -/
def Dyadic.hundredths (x : Dyadic) : Nat :=
  if 0 ≤ x.e then (100 * x.m) <<< x.e.toNat else roundHalfEven (100 * x.m) (1 <<< (-x.e).toNat)

/-- A number with two decimal places. -/
def twoPlaces (x : Float) : String :=
  match Dyadic.ofFloat? x with
  | some d =>
    let n := d.hundredths
    let cents := toString (n % 100)
    (if d.negative then "-" else "") ++ toString (n / 100) ++ "." ++
      (if cents.length < 2 then "0" ++ cents else cents)
  | none => if x.isNaN then "NaN" else if x < 0.0 then "-inf" else "inf"

end PdfContent
