import PdfContent.Font.GlyphTable
import PdfContent.Text.HexDigit
import PdfContent.Text.Parts

/-!
# Characters from glyph names

A glyph name stands for text. What follows the first point is a variant of the glyph and does not
count; underscores join the names of a ligature. One component is `uni` with groups of four
hexadecimal digits, `u` with four to six, a single letter, or a name of the table, tried in this
order.

A group of digits may start with a plus sign in the place of a digit.
-/

namespace PdfContent.Glyph

/-- The table of names, to be searched by halving. -/
def characters : Array (String × Nat) := characterTable.toArray

/-- The character of a name in the table. -/
def listed? (name : String) : Option Char :=
  (characters.binSearch (name, 0) fun a b => a.1 < b.1).map fun entry => Char.ofNat entry.2

/-- The character of a single letter, or of a name in the table. -/
def character? (name : String) : Option Char :=
  match name.toList with
  | [c] => if c.isAlpha then some c else listed? name
  | _ => listed? name

/-- The number that hexadecimal digits spell after the number `n`. -/
def hexDigits? (n : Nat) : List Char → Option Nat
  | [] => some n
  | c :: rest => do hexDigits? (n * 16 + (← Text.hexValue? c)) rest

/-- The number of a group; a plus sign may stand before its digits. -/
def hexNumber? : List Char → Option Nat
  | '+' :: c :: rest => hexDigits? 0 (c :: rest)
  | ['+'] => none
  | [] => none
  | digits => hexDigits? 0 digits

/-- The character with the given number, unless it is a surrogate or out of range. -/
def scalar? (n : Nat) : Option Char :=
  if n < 0xD800 || (0xDFFF < n && n < 0x110000) then some (Char.ofNat n) else none

/-- The characters of groups of four digits. -/
def fourDigitGroups? : List Char → Option (List Char)
  | a :: b :: c :: d :: rest => do
    let first ← hexNumber? [a, b, c, d] >>= scalar?
    let others ← fourDigitGroups? rest
    some (first :: others)
  | [] => some []
  | _ => none

/-- The text of a name in the form `uni` with digits. -/
def uniForm? : List Char → Option (List Char)
  | 'u' :: 'n' :: 'i' :: digits => if digits.isEmpty then none else fourDigitGroups? digits
  | _ => none

/-- The character of a name in the form `u` with digits. -/
def shortForm? : List Char → Option (List Char)
  | 'u' :: digits =>
    if 4 ≤ digits.length && digits.length ≤ 6 then (hexNumber? digits >>= scalar?).map fun c => [c]
    else none
  | _ => none

/-- The text of one component. -/
def component? (name : List Char) : Option (List Char) :=
  (uniForm? name).or <| (shortForm? name).or <|
    (character? (String.ofList name)).map fun c => [c]

/-- The text of each component, joined; none if one has none. -/
def components? : List (List Char) → Option (List Char)
  | [] => some []
  | part :: others => do
    let text ← component? part
    let rest ← components? others
    some (text ++ rest)

/-- The text of a glyph name. -/
def text? (name : String) : Option String :=
  let base := name.toList.takeWhile fun c => c != '.'
  if base.isEmpty then none else (components? (Text.splitAt '_' base)).map String.ofList

end PdfContent.Glyph
