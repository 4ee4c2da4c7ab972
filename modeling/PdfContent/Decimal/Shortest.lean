import PdfContent.Scalar.Dyadic

/-!
# The fewest decimal digits that read back

A binary number `m · 2 ^ e` stands for every real number that rounds to it: the interval that reaches
half way to its neighbours, ends included when `m` is even. `Digits.shortest` tries one digit, then
two, and so on; for each count only the two grid points next to the value need a test, because a grid
point inside the interval implies that one of these two is inside. Of two that fit the nearer one is
taken, and on a tie the even one.

The arithmetic is in natural numbers, so nothing is rounded on the way.
-/

namespace PdfContent

/-- The decimal number `d · 10 ^ k`. -/
structure Digits where
  d : Nat
  k : Int
  deriving Repr, DecidableEq

namespace Digits

/-- A positive rational, as a quotient. -/
structure Ratio where
  num : Nat
  den : Nat

/-- `n · 2 ^ e` as a quotient. -/
def Ratio.ofBinary (n : Nat) (e : Int) : Ratio :=
  if 0 ≤ e then ⟨n <<< e.toNat, 1⟩ else ⟨n, 1 <<< (-e).toNat⟩

/-- The quotient divided by `10 ^ k`. -/
def Ratio.scale (r : Ratio) (k : Int) : Ratio :=
  if 0 ≤ k then ⟨r.num, r.den * Nat.pow 10 k.toNat⟩ else ⟨r.num * Nat.pow 10 (-k).toNat, r.den⟩

/-- The power of ten that bounds the value from below, looked for upwards from `guess`. -/
def leadingPower (r : Ratio) (guess : Int) : (steps : Nat) → Int
  | 0 => guess
  | steps + 1 =>
    let next := r.scale (guess + 1)
    if next.den ≤ next.num then leadingPower r (guess + 1) steps else guess

/-- Drops the zeros at the end. -/
def strip (d : Nat) (k : Int) : (fuel : Nat) → Digits
  | 0 => ⟨d, k⟩
  | fuel + 1 => if d % 10 == 0 && d != 0 then strip (d / 10) (k + 1) fuel else ⟨d, k⟩

/-- The interval of a binary number in quarters of its last place, and where to look for digits. -/
structure Target where
  value : Ratio
  lower : Ratio
  upper : Ratio
  closed : Bool

/-- Whether `c · 10 ^ k` reads back. -/
def Target.admits (t : Target) (c : Nat) (k : Int) : Bool :=
  let lo := t.lower.scale k
  let hi := t.upper.scale k
  if t.closed then lo.num ≤ c * lo.den && c * hi.den ≤ hi.num
  else lo.num < c * lo.den && c * hi.den < hi.num

/-- The grid point with step `10 ^ k` that reads back and is nearest to the value, if there is one. -/
def Target.onGrid (t : Target) (k : Int) : Option Digits :=
  let v := t.value.scale k
  let c := v.num / v.den
  let below := t.admits c k
  let above := t.admits (c + 1) k
  let rest := 2 * (v.num % v.den)
  let up := if rest == v.den then c % 2 == 1 else v.den < rest
  if below && above then some ⟨if up then c + 1 else c, k⟩
  else if below then some ⟨c, k⟩
  else if above then some ⟨c + 1, k⟩
  else none

/-- The first grid with a point that reads back, from coarse to fine. -/
def Target.search (t : Target) (k : Int) : (steps : Nat) → Digits
  | 0 => (t.onGrid k).getD ⟨0, 0⟩
  | steps + 1 => (t.onGrid k).getD (t.search (k - 1) steps)

/-- The digits of `m · 2 ^ e`. The gap below is half as wide as the one above when `narrow` is set,
which is the case at a power of two. -/
def shortest (m : Nat) (e : Int) (narrow : Bool) : Digits :=
  if m == 0 then ⟨0, 0⟩
  else
    let value := Ratio.ofBinary (4 * m) (e - 2)
    let target : Target :=
      ⟨value, Ratio.ofBinary (4 * m - (if narrow then 1 else 2)) (e - 2),
        Ratio.ofBinary (4 * m + 2) (e - 2), m % 2 == 0⟩
    let guess := Int.fdiv ((e + m.log2) * 30103) 100000 - 1
    let found := target.search (leadingPower value guess 4) 18
    strip found.d found.k 20

/-- The digits of a finite double; zero for what is not finite. -/
def ofDouble (x : Float) : Digits :=
  match Dyadic.ofFloat? x with
  | some b => shortest b.m b.e (b.m == 0x10000000000000 && -1074 < b.e)
  | none => ⟨0, 0⟩

/-- The digits of a finite double that is exact in single precision, as few as single precision
needs. -/
def ofSingle (x : Float) : Digits :=
  let bits : Nat := x.toFloat32.toBits.toNat
  let exponent : Nat := bits / 0x800000 % 0x100
  let fraction := bits % 0x800000
  if exponent == 0 then shortest fraction (-149) false
  else shortest (0x800000 + fraction) ((exponent : Int) - 150) (fraction == 0 && 1 < exponent)

/-- The digits in positional notation. With `point` an integer ends in `.0`. -/
def positional (x : Digits) (point : Bool) : String :=
  let text := toString x.d
  if 0 ≤ x.k then text ++ String.ofList (List.replicate x.k.toNat '0') ++ (if point then ".0" else "")
  else
    let places := (-x.k).toNat
    let padded := List.replicate (places + 1 - text.length) '0' ++ text.toList
    let whole := padded.length - places
    String.ofList (padded.take whole) ++ "." ++ String.ofList (padded.drop whole)

/-- The digits in scientific notation, the exponent with its sign. -/
def scientific (x : Digits) : String :=
  let text := (toString x.d).toList
  let exponent := x.k + (text.length - 1)
  let fraction := text.drop 1
  String.ofList (text.take 1) ++ (if fraction.isEmpty then "" else "." ++ String.ofList fraction) ++ "e" ++
    (if exponent < 0 then "-" else "+") ++ toString exponent.natAbs

/-- Whether a minus sign is written, which zero may have, too. -/
def isNegative (x : Float) : Bool := 0x8000000000000000 ≤ x.toBits.toNat

end Digits

/-- How a number is written in a data file: positional from `10 ^ (-5)` up to `10 ^ 16`, always with a
point, and with an exponent outside. -/
def Digits.dataText (x : Float) : String :=
  let digits := Digits.ofDouble x
  let magnitude := digits.k + (toString digits.d).length
  let body := if digits.d == 0 then "0.0"
    else if -5 < magnitude && magnitude ≤ 16 then digits.positional true else digits.scientific
  if isNegative x then "-" ++ body else body

/-- How a single-precision number is written in a message: positional, and an integer without a
point. -/
def Digits.messageText (x : Float) : String :=
  if x.isNaN then "NaN"
  else
    let body := if x.isInf then "inf" else (Digits.ofSingle x).positional false
    if isNegative x then "-" ++ body else body

end PdfContent
