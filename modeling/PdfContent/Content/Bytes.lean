import PdfContent.Text.Unicode

/-!
# Classes of bytes

Every byte of content is white space, a delimiter or regular. White space separates, a delimiter starts
or ends something, and a run of regular bytes is one word.
-/

namespace PdfContent.Content

def isBlank (b : UInt8) : Bool :=
  b == 0x20 || b == 0x09 || b == 0x0D || b == 0x0A || b == 0x0C || b == 0x00

/-- One of `( ) < > [ ] \x7b \x7d / %`. -/
def isDelimiter (b : UInt8) : Bool :=
  b == 0x28 || b == 0x29 || b == 0x3C || b == 0x3E || b == 0x5B || b == 0x5D || b == 0x7B || b == 0x7D ||
    b == 0x2F || b == 0x25

def isRegular (b : UInt8) : Bool := !isBlank b && !isDelimiter b

def isDigit (b : UInt8) : Bool := 0x30 ≤ b && b ≤ 0x39

def isOctalDigit (b : UInt8) : Bool := 0x30 ≤ b && b ≤ 0x37

def isSign (b : UInt8) : Bool := b == 0x2B || b == 0x2D

/-- The bytes that a number starts with: a digit, a sign or a point. -/
def startsNumber (b : UInt8) : Bool := isDigit b || isSign b || b == 0x2E

/-- A visible character of the ASCII range. -/
def isGraphic (b : UInt8) : Bool := 0x21 ≤ b && b ≤ 0x7E

/-- White space, or a character of the ASCII range. -/
def isPlausible (b : UInt8) : Bool := isBlank b || (0x20 ≤ b && b < 0x7F)

/-- The value of a hexadecimal digit in either case. -/
def hexValue? (b : UInt8) : Option UInt8 :=
  if isDigit b then some (b - 0x30)
  else if 0x61 ≤ b && b ≤ 0x66 then some (b - 0x61 + 10)
  else if 0x41 ≤ b && b ≤ 0x46 then some (b - 0x41 + 10)
  else none

/-- The leading word. -/
def word (s : Bytes) : Bytes := s.takeWhile isRegular

/-- What follows the leading word. -/
def afterWord (s : Bytes) : Bytes := s.dropWhile isRegular

/-- What follows a comment: everything from the next line end on. -/
def afterComment (s : Bytes) : Bytes := s.dropWhile fun b => b != 0x0A && b != 0x0D

theorem length_dropWhile_le (p : UInt8 → Bool) (s : Bytes) : (s.dropWhile p).length ≤ s.length :=
  (List.dropWhile_sublist p).length_le

theorem length_afterWord_le (s : Bytes) : (afterWord s).length ≤ s.length := length_dropWhile_le _ s

theorem length_afterComment_le (s : Bytes) : (afterComment s).length ≤ s.length :=
  length_dropWhile_le _ s

/-- Skips white space and comments. -/
def skipBlank : Bytes → Bytes
  | [] => []
  | b :: rest =>
    if isBlank b then skipBlank rest
    else if b == 0x25 then skipBlank (afterComment rest)
    else b :: rest
termination_by s => s.length
decreasing_by
  · simp
  · have := length_afterComment_le rest
    simp; omega

theorem length_skipBlank_le (s : Bytes) : (skipBlank s).length ≤ s.length := by
  fun_induction skipBlank s with
  | case1 => simp
  | case2 b rest _ ih => simp; omega
  | case3 b rest _ _ ih =>
    have := length_afterComment_le rest
    simp; omega
  | case4 => simp

theorem length_of_skipBlank {s rest : Bytes} {b : UInt8} (h : skipBlank s = b :: rest) :
    rest.length < s.length := by
  have := length_skipBlank_le s
  rw [h] at this
  exact this

end PdfContent.Content
