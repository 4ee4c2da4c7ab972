/-!
# Text from bytes

`decodeUtf8` never fails: it puts one replacement character for each maximal part of the input that starts
like a character but does not go on as one.
-/

namespace PdfContent

/-- A string of bytes. -/
abbrev Bytes := List UInt8

namespace Text

def replacement : Char := Char.ofNat 0xFFFD

/-- The rest of a multi-byte character: how many bytes are missing, the range of the next one, and the
bits read so far. -/
structure Utf8Rest where
  missing : Nat
  low : UInt8
  high : UInt8
  bits : Nat

/-- What a byte at the start of a character gives: characters that are complete, and what is open. -/
def utf8Start (b : UInt8) : List Char × Option Utf8Rest :=
  let n := b.toNat
  if n < 0x80 then ([Char.ofNat n], none)
  else if 0xC2 ≤ n && n ≤ 0xDF then ([], some ⟨1, 0x80, 0xBF, n - 0xC0⟩)
  else if n == 0xE0 then ([], some ⟨2, 0xA0, 0xBF, 0⟩)
  else if n == 0xED then ([], some ⟨2, 0x80, 0x9F, 0xD⟩)
  else if 0xE1 ≤ n && n ≤ 0xEF then ([], some ⟨2, 0x80, 0xBF, n - 0xE0⟩)
  else if n == 0xF0 then ([], some ⟨3, 0x90, 0xBF, 0⟩)
  else if n == 0xF4 then ([], some ⟨3, 0x80, 0x8F, 4⟩)
  else if 0xF1 ≤ n && n ≤ 0xF3 then ([], some ⟨3, 0x80, 0xBF, n - 0xF0⟩)
  else ([replacement], none)

/-- One byte of input. A byte that cannot go on the open character ends it as invalid and starts a new
one. -/
def utf8Step : Option Utf8Rest → UInt8 → List Char × Option Utf8Rest
  | none, b => utf8Start b
  | some r, b =>
    if r.low ≤ b && b ≤ r.high then
      let bits := r.bits * 64 + (b.toNat - 0x80)
      if r.missing ≤ 1 then ([Char.ofNat bits], none)
      else ([], some ⟨r.missing - 1, 0x80, 0xBF, bits⟩)
    else
      let (chars, next) := utf8Start b
      (replacement :: chars, next)

def utf8Chars : Option Utf8Rest → Bytes → List Char
  | none, [] => []
  | some _, [] => [replacement]
  | r, b :: rest => (utf8Step r b).1 ++ utf8Chars (utf8Step r b).2 rest

/-- The text of UTF-8 bytes, with replacement characters for what is invalid. -/
def decodeUtf8 (bytes : Bytes) : String := String.ofList (utf8Chars none bytes)

/-- The UTF-8 bytes of a text. -/
def encodeUtf8 (s : String) : Bytes := s.toUTF8.toList

end Text

end PdfContent
