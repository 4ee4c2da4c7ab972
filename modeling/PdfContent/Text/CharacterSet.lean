import PdfContent.Text.Unicode

/-!
# Character sets

Text that is not in UTF-8 is in one of a few character sets. What text bytes stand for in them is left to
a `Decoder`; of the sets of East Asian text the library knows no more than which bytes are the first of
two, since that is all that splitting a string into codes needs.
-/

namespace PdfContent.Text

inductive CharacterSet
  /-- UTF-16 with the higher byte of each unit first. -/
  | utf16
  /-- The Latin set of Windows. -/
  | windows
  | macintosh
  | gbk
  | big5
  | shiftJis
  | eucJp
  | eucKr
  deriving DecidableEq, Repr

/-- Whether a byte is the first of two. -/
def CharacterSet.isLead (set : CharacterSet) (b : UInt8) : Bool :=
  match set with
  | .shiftJis => (0x81 ≤ b && b ≤ 0x9F) || (0xE0 ≤ b && b ≤ 0xFC)
  | .eucJp => b == 0x8E || (0xA1 ≤ b && b ≤ 0xFE)
  | _ => 0x81 ≤ b && b ≤ 0xFE

/-- Decodes bytes in character sets. -/
class Decoder where
  /-- The text of bytes, with a replacement character for each malformed part, and whether there is such
  a part. -/
  decode : CharacterSet → Bytes → String × Bool

/-- The text of bytes that are well-formed in a set. -/
def wellFormed? [Decoder] (set : CharacterSet) (bytes : Bytes) : Option String :=
  if (Decoder.decode set bytes).2 then none else some (Decoder.decode set bytes).1

/-- Whether a character is a control character. -/
def isControl (c : Char) : Bool := c.toNat < 0x20 || (0x7F ≤ c.toNat && c.toNat < 0xA0)

end PdfContent.Text
