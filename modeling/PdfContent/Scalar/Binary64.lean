import PdfContent.Scalar
import PdfContent.Decimal.Shortest

/-!
# Binary floating point as a number type

What doubles need beyond the arithmetic of the machine is computed exactly on their dyadic values. The
instance at the end is the arithmetic that programs run with.
-/

namespace PdfContent

namespace Binary64

def infinity : Float := 1.0 / 0.0

/-- The integer part moved into `[lo, hi]`; the infinities go to the ends, and what is not a number
to zero. -/
def clampInt (lo hi : Int) (x : Float) : Int :=
  match Dyadic.ofFloat? x with
  | some d => max lo (min hi d.truncate)
  | none => if x < 0.0 then lo else if 0.0 < x then hi else 0

/-- The double nearest to `n · 2 ^ e`. All but the leading hundred bits are dropped first; they can
decide the rounding only by not being zero. -/
def ofScaled (n : Nat) (e : Int) : Float :=
  let extra := n.log2 - 100
  let lead := n >>> extra
  let sticky := if lead <<< extra == n then lead else lead ||| 1
  (Float.ofNat sticky).scaleB (e + extra)

/-- The integer square root, by Newton's iteration from `guess`, which is not below it. -/
def rootFrom (n guess : Nat) : (steps : Nat) → Nat
  | 0 => guess
  | steps + 1 =>
    let next := (guess + n / guess) / 2
    if next < guess then rootFrom n next steps else guess

/-- The integer square root. -/
def root (n : Nat) : Nat :=
  if n ≤ 1 then n else rootFrom n (1 <<< (n.log2 / 2 + 1)) (n.log2 + 2)

/-- The square root of `m · 2 ^ e` for even `e`: 64 or more digits of the root are taken before
rounding, and the last digit is made odd when the root goes on. -/
def sqrtScaled (m : Nat) (e : Int) : Float :=
  let extra := if m.log2 < 130 then 130 - m.log2 else 0
  let extra := extra + extra % 2
  let wide := m <<< extra
  let r := root wide
  let sticky := if r * r == wide then r else r ||| 1
  ofScaled sticky ((e - extra) / 2)

/-- The length of `(x, y)`, from the exact sum of the squares. An infinite side makes the length
infinite, even beside what is not a number. -/
def hypot (x y : Float) : Float :=
  match Dyadic.ofFloat? x, Dyadic.ofFloat? y with
  | some a, some b =>
    let e := min a.e b.e
    let m := a.m <<< (a.e - e).toNat
    let n := b.m <<< (b.e - e).toNat
    sqrtScaled (m * m + n * n) (2 * e)
  | _, _ => if x.isInf || y.isInf then infinity else x + y

/-- Doubles in the order of their bit patterns, the negative ones reversed. -/
def orderKey (x : Float) : Int :=
  let bits := Int.ofNat x.toBits.toNat
  if bits < 0x8000000000000000 then bits else 0x7FFFFFFFFFFFFFFF - bits

def least (x y : Float) : Float :=
  if x.isNaN then y else if y < x then y else x

def greatest (x y : Float) : Float :=
  if x.isNaN then y else if x < y then y else x

/-- The double nearest to a decimal number. -/
def ofDecimal (negative : Bool) (m places : Nat) : Float :=
  let magnitude := Float.ofScientific m true places
  if negative then -magnitude else magnitude

end Binary64

instance : Scalar Float where
  zero := 0.0
  one := 1.0
  decLt := inferInstance
  decLe := inferInstance
  ofInt := Float.ofInt
  ofDecimal := Binary64.ofDecimal
  single x := x.toFloat32.toFloat
  abs := Float.abs
  hypot := Binary64.hypot
  least := Binary64.least
  greatest := Binary64.greatest
  lowest xs := xs.foldl Binary64.least Binary64.infinity
  highest xs := xs.foldl Binary64.greatest (-Binary64.infinity)
  isFinite := Float.isFinite
  isWhole x := (Dyadic.ofFloat? x).any Dyadic.isWhole
  clampInt := Binary64.clampInt
  text := Digits.messageText
  totalCompare x y := compare (Binary64.orderKey x) (Binary64.orderKey y)

end PdfContent
