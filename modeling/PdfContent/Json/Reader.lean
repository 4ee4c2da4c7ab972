import PdfContent.Decimal.Reading
import PdfContent.Json
import PdfContent.Text.HexDigit

/-!
# Reading JSON

`Json.parse?` reads one JSON value from the start of a text. Numbers without a point and an exponent are
integers, however long; all others become the nearest real number. The functions are bounded by the
length of the text, which each of their steps makes shorter.
-/

namespace PdfContent.Json

def skipSpace (s : List Char) : List Char :=
  s.dropWhile fun c => c == ' ' || c == '\n' || c == '\t' || c == '\r'

/-- Four hexadecimal digits. -/
def readHex : List Char → Option (Nat × List Char)
  | a :: b :: c :: d :: rest => do
    let high := (← Text.hexValue? a) * 16 + (← Text.hexValue? b)
    let low := (← Text.hexValue? c) * 16 + (← Text.hexValue? d)
    return (high * 256 + low, rest)
  | _ => none

/-- The character of an escape without a number. -/
def escaped? : Char → Option Char
  | '"' => some '"'
  | '\\' => some '\\'
  | '/' => some '/'
  | 'b' => some (Char.ofNat 8)
  | 'f' => some (Char.ofNat 12)
  | 'n' => some '\n'
  | 'r' => some '\r'
  | 't' => some '\t'
  | _ => none

/-- The character of a numbered escape; two of them may stand for one character. -/
def readNumbered (s : List Char) : Option (Char × List Char) := do
  let (n, rest) ← readHex s
  if 0xD800 ≤ n && n < 0xDC00 then
    match rest with
    | '\\' :: 'u' :: rest => do
      let (m, rest) ← readHex rest
      if 0xDC00 ≤ m && m < 0xE000 then
        return (Char.ofNat (0x10000 + (n - 0xD800) * 1024 + (m - 0xDC00)), rest)
      else none
    | _ => none
  else if 0xDC00 ≤ n && n < 0xE000 then none
  else return (Char.ofNat n, rest)

/-- A string after its opening quote; `done` are the characters read so far, latest first. -/
def readString (done : List Char) : (bound : Nat) → List Char → Option (String × List Char)
  | 0, _ => none
  | _ + 1, [] => none
  | bound + 1, c :: rest =>
    if c == '"' then some (String.ofList done.reverse, rest)
    else if c == '\\' then
      match rest with
      | 'u' :: rest =>
        match readNumbered rest with
        | some (d, rest) => readString (d :: done) bound rest
        | none => none
      | d :: rest =>
        match escaped? d with
        | some e => readString (e :: done) bound rest
        | none => none
      | [] => none
    else readString (c :: done) bound rest

/-- The digits after a decimal point. -/
def readFraction : List Char → Option (List Char) × List Char
  | '.' :: rest => (some (rest.takeWhile Char.isDigit), rest.dropWhile Char.isDigit)
  | s => (none, s)

/-- The power of ten after an `e`. -/
def readExponent : List Char → Option Int × List Char
  | c :: rest =>
    if c == 'e' || c == 'E' then
      let (negative, rest) := match rest with
        | '-' :: rest => (true, rest)
        | '+' :: rest => (false, rest)
        | _ => (false, rest)
      let n : Int := Decimal.ofDigits (rest.takeWhile Char.isDigit)
      (some (if negative then -n else n), rest.dropWhile Char.isDigit)
    else (none, c :: rest)
  | [] => (none, [])

def readNumber (s : List Char) : Option (Json × List Char) :=
  let (negative, s) := match s with
    | '-' :: rest => (true, rest)
    | _ => (false, s)
  let whole := s.takeWhile Char.isDigit
  let (fraction, rest) := readFraction (s.dropWhile Char.isDigit)
  let (exponent, rest) := readExponent rest
  if whole.isEmpty then none
  else
    match fraction, exponent with
    | none, none =>
      let n : Int := Decimal.ofDigits whole
      some (.int (if negative then -n else n), rest)
    | _, _ =>
      let places := fraction.getD []
      let x := Decimal.nearest (Decimal.ofDigits (whole ++ places)) (exponent.getD 0 - places.length)
      some (.num (if negative then -x else x), rest)

mutual

def readValue : (bound : Nat) → List Char → Option (Json × List Char)
  | 0, _ => none
  | bound + 1, s =>
    match skipSpace s with
    | '"' :: rest => (readString [] (bound + 1) rest).map fun (text, rest) => (.str text, rest)
    | '[' :: rest =>
      match skipSpace rest with
      | ']' :: rest => some (.arr [], rest)
      | rest => readItems [] bound rest
    | '\x7b' :: rest =>
      match skipSpace rest with
      | '\x7d' :: rest => some (.obj [], rest)
      | rest => readEntries [] bound rest
    | 't' :: 'r' :: 'u' :: 'e' :: rest => some (.bool true, rest)
    | 'f' :: 'a' :: 'l' :: 's' :: 'e' :: rest => some (.bool false, rest)
    | 'n' :: 'u' :: 'l' :: 'l' :: rest => some (.null, rest)
    | s => readNumber s

/-- The elements of an array after `done`, latest first. -/
def readItems (done : List Json) : (bound : Nat) → List Char → Option (Json × List Char)
  | 0, _ => none
  | bound + 1, s =>
    match readValue bound s with
    | none => none
    | some (v, rest) =>
      match skipSpace rest with
      | ',' :: rest => readItems (v :: done) bound rest
      | ']' :: rest => some (.arr (v :: done).reverse, rest)
      | _ => none

/-- The entries of an object after `done`, latest first. -/
def readEntries (done : List (String × Json)) : (bound : Nat) → List Char → Option (Json × List Char)
  | 0, _ => none
  | bound + 1, s =>
    match skipSpace s with
    | '"' :: rest =>
      match readString [] (bound + 1) rest with
      | none => none
      | some (key, rest) =>
        match skipSpace rest with
        | ':' :: rest =>
          match readValue bound rest with
          | none => none
          | some (v, rest) =>
            match skipSpace rest with
            | ',' :: rest => readEntries ((key, v) :: done) bound rest
            | '\x7d' :: rest => some (.obj ((key, v) :: done).reverse, rest)
            | _ => none
        | _ => none
    | _ => none

end

/-- The JSON value at the start of a text. -/
def parse? (text : String) : Option Json :=
  let s := text.toList
  (readValue (s.length + 1) s).map Prod.fst

end PdfContent.Json
