/-!
# Reading decimal numbers

A number in scientific form becomes the nearest one in double precision. `decimal?` reads the usual
forms: a sign, digits around a point, an exponent, and the words for what is not finite.
-/

namespace PdfContent

namespace Decimal

/-- The number nearest to `m · 10 ^ e`. Exponents far outside the range of double precision are not
expanded. -/
def nearest (m : Nat) (e : Int) : Float :=
  if m = 0 ∨ e < -400 - (m.log2 : Int) then 0
  else if 400 < e then 1 / 0
  else if 0 ≤ e then Float.ofScientific m false e.toNat
  else Float.ofScientific m true (-e).toNat

/-- The value of decimal digits. -/
def ofDigits (digits : List Char) : Nat := digits.foldl (fun n c => n * 10 + (c.toNat - 48)) 0

/-- A natural number of at most 64 bits; a plus sign may stand before the digits. -/
def natural? (text : List Char) : Option Nat :=
  let digits := match text with
    | '+' :: rest => rest
    | _ => text
  if digits.isEmpty || !digits.all Char.isDigit then none
  else if ofDigits digits < 0x10000000000000000 then some (ofDigits digits)
  else none

/-- A sign, and what follows it. -/
def readSign : List Char → Bool × List Char
  | '-' :: rest => (true, rest)
  | '+' :: rest => (false, rest)
  | s => (false, s)

/-- The digits after a point, and what follows them; no point has no digits after it. -/
def readFraction : List Char → List Char × List Char
  | '.' :: rest => (rest.takeWhile Char.isDigit, rest.dropWhile Char.isDigit)
  | s => ([], s)

/-- The exponent that makes up the rest of a number; zero if there is no rest. -/
def exponent? : List Char → Option Int
  | [] => some 0
  | c :: rest =>
    let (negative, digits) := readSign rest
    if (c == 'e' || c == 'E') && !digits.isEmpty && digits.all Char.isDigit then
      let n : Int := ofDigits digits
      some (if negative then -n else n)
    else none

/-- The number of digits around a point and an exponent. -/
def unsigned? (s : List Char) : Option Float :=
  let whole := s.takeWhile Char.isDigit
  let (places, rest) := readFraction (s.dropWhile Char.isDigit)
  if whole.isEmpty && places.isEmpty then none
  else (exponent? rest).map fun e => nearest (ofDigits (whole ++ places)) (e - places.length)

/-- The number that a text denotes. -/
def decimal? (text : String) : Option Float :=
  let (negative, s) := readSign text.toList
  let magnitude := match String.ofList (s.map Char.toLower) with
    | "inf" | "infinity" => some (1 / 0)
    | "nan" => some (0 / 0)
    | _ => unsigned? s
  magnitude.map fun x => if negative then -x else x

end Decimal

end PdfContent
