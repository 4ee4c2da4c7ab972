import PdfContent.Font.GlyphName
import PdfContent.Font.Overflow
import PdfContent.Text.CharacterSet

/-!
# Encodings of simple fonts

A simple font has one-byte codes. Its encoding is a base encoding and differences from it: names given
to single codes. A list of differences counts on from each code that it states, one code per name, and
the last name for a code holds. Counting on from the greatest number of 32 bits ends the program.
-/

namespace PdfContent

inductive BaseEncoding
  | standard
  | winAnsi
  | macRoman
  deriving DecidableEq, Repr

namespace BaseEncoding

def ofName? : String → Option BaseEncoding
  | "StandardEncoding" => some .standard
  | "WinAnsiEncoding" => some .winAnsi
  | "MacRomanEncoding" => some .macRoman
  | _ => none

variable [Text.Decoder]

/-- The text of a character set's code; control characters are none. -/
def visible? (set : Text.CharacterSet) (code : UInt8) : Option String :=
  if code < 0x20 then none
  else (Text.wellFormed? set [code]).filter fun text => !text.toList.all Text.isControl

/-- The text of a code. -/
def text? (base : BaseEncoding) (code : UInt8) : Option String :=
  match base with
  | .standard => Glyph.standardName? code.toNat >>= Glyph.text?
  | .winAnsi => visible? .windows code
  | .macRoman => visible? .macintosh code

end BaseEncoding

/-- One entry of a list of differences. Codes are 32-bit numbers. -/
inductive Difference
  | code (start : UInt32)
  | name (glyph : String)
  deriving DecidableEq, Repr

structure SimpleEncoding where
  base : BaseEncoding
  /-- Names of single codes, the latest first. -/
  names : List (UInt8 × String)
  deriving DecidableEq, Repr

namespace SimpleEncoding

def ofBase (base : BaseEncoding) : SimpleEncoding := ⟨base, []⟩

/-- Gives a name to a code. -/
def setName (e : SimpleEncoding) (code : UInt8) (glyph : String) : SimpleEncoding :=
  { e with names := (code, glyph) :: e.names }

/-- The name that the differences give to a code. -/
def difference? (e : SimpleEncoding) (code : UInt8) : Option String :=
  (e.names.find? fun entry => entry.1 == code).map Prod.snd

/-- Applies differences. `position` is the code of the next name; before the first stated code there is
none. Positions beyond a byte name nothing, but they have to fit in 32 bits, the one after the last name
as well. -/
def applyFrom (position : Option UInt32) (e : SimpleEncoding) :
    List Difference → Except Overflow SimpleEncoding
  | [] => .ok e
  | .code start :: rest => applyFrom (some start) e rest
  | .name glyph :: rest =>
    match position with
    | none => applyFrom none e rest
    | some p =>
      match exactSum p 1 with
      | .error overflow => .error overflow
      | .ok next => applyFrom (some next) (if p < 256 then e.setName p.toUInt8 glyph else e) rest

def applyDifferences (e : SimpleEncoding) (entries : List Difference) :
    Except Overflow SimpleEncoding :=
  applyFrom none e entries

def glyphName? (e : SimpleEncoding) (code : UInt8) : Option String :=
  match e.difference? code with
  | some glyph => some glyph
  | none => if e.base = .standard then Glyph.standardName? code.toNat else none

def text? [Text.Decoder] (e : SimpleEncoding) (code : UInt8) : Option String :=
  match e.difference? code with
  | some glyph => Glyph.text? glyph
  | none => e.base.text? code

end SimpleEncoding

end PdfContent
