import PdfContent.Font.StandardWidths
import PdfContent.Geometry

/-!
# The standard fonts

Metrics of the fonts that a document may use without describing them. A font is found by its family
name; a tag in front, a style behind and the suffixes of some vendors do not matter, except that the
style selects the bold and italic cuts.
-/

namespace PdfContent

inductive GlyphWidths
  | fixed (width : Nat)
  | table (widths : Array Nat)

/-- The metrics of a standard font in thousandths of its size. -/
structure StandardFont where
  name : String
  widths : GlyphWidths
  box : Int × Int × Int × Int
  capHeight : Option Nat

namespace StandardFont

def courier : StandardFont := ⟨"Courier", .fixed 600, (-23, -250, 715, 805), some 562⟩

def helvetica : StandardFont := ⟨"Helvetica", .table helveticaWidths, (-166, -225, 1000, 931), some 718⟩

def helveticaBold : StandardFont :=
  ⟨"Helvetica-Bold", .table helveticaBoldWidths, (-170, -228, 1003, 962), some 718⟩

def timesRoman : StandardFont := ⟨"Times-Roman", .table timesRomanWidths, (-168, -218, 1000, 898), some 662⟩

def timesBold : StandardFont := ⟨"Times-Bold", .table timesBoldWidths, (-168, -218, 1000, 935), some 676⟩

def timesItalic : StandardFont :=
  ⟨"Times-Italic", .table timesItalicWidths, (-169, -217, 1010, 883), some 653⟩

def timesBoldItalic : StandardFont :=
  ⟨"Times-BoldItalic", .table timesBoldItalicWidths, (-200, -218, 996, 921), some 669⟩

def symbol : StandardFont := ⟨"Symbol", .table symbolWidths, (-180, -293, 1090, 1010), none⟩

def zapfDingbats : StandardFont := ⟨"ZapfDingbats", .table zapfDingbatsWidths, (-1, -143, 981, 820), none⟩

/-- Whether `part` stands somewhere in a text. -/
def hasPart (part : List Char) : List Char → Bool
  | [] => part.isEmpty
  | c :: rest => part.isPrefixOf (c :: rest) || hasPart part rest

/-- Drops a two-letter ending as often as it is there, from a reversed text. -/
def dropEnding (a b : Char) : List Char → List Char
  | c :: d :: rest => if c == b && d == a then dropEnding a b rest else c :: d :: rest
  | s => s

/-- What follows a tag of six bytes and a plus sign; the whole name if there is no such tag. -/
def withoutTag (name : List Char) : List Char :=
  let tag := name.takeWhile fun c => c != '+'
  if tag.length < name.length && (String.ofList tag).utf8ByteSize == 6 then name.drop (tag.length + 1)
  else name

/-- The family part of a name. -/
def family (name : List Char) : String :=
  let head := name.takeWhile fun c => c != ',' && c != '-'
  String.ofList (dropEnding 'P' 'S' (dropEnding 'M' 'T' head.reverse)).reverse

/-- The font that a name stands for. -/
def ofName? (fullName : String) : Option StandardFont :=
  let name := withoutTag fullName.toList
  let bold := hasPart "Bold".toList name
  let italic := hasPart "Italic".toList name || hasPart "Oblique".toList name
  let helveticaCut := if bold then helveticaBold else helvetica
  let timesCut :=
    if bold && italic then timesBoldItalic
    else if bold then timesBold
    else if italic then timesItalic
    else timesRoman
  match family name with
  | "Courier" => some courier
  | "CourierNew" => some courier
  | "Helvetica" => some helveticaCut
  | "Arial" => some helveticaCut
  | "Times" => some timesCut
  | "TimesNewRoman" => some timesCut
  | "Symbol" => some symbol
  | "ZapfDingbats" => some zapfDingbats
  | _ => none

/-- The advance width of a code; none where there is no glyph. -/
def width? (font : StandardFont) (code : Nat) : Option Nat :=
  if code < 32 then none
  else
    let width := match font.widths with
      | .fixed w => if code < 256 then w else 0
      | .table widths => widths.getD (code - 32) 0
    if 0 < width then some width else none

/-- The widths of all codes that have a glyph. -/
def definedWidths (font : StandardFont) : List Nat :=
  (List.range 224).filterMap fun i => font.width? (i + 32)

variable {K : Type} [Scalar K]

/-- The mean width of the codes that have a glyph. -/
def averageWidth (font : StandardFont) : K :=
  if font.definedWidths.isEmpty then 0
  else Scalar.ofNat (font.definedWidths.foldl (· + ·) 0) / Scalar.ofNat font.definedWidths.length

def bbox (font : StandardFont) : BBox K :=
  BBox.ofCorners (Scalar.ofInt font.box.1) (Scalar.ofInt font.box.2.1) (Scalar.ofInt font.box.2.2.1)
    (Scalar.ofInt font.box.2.2.2)

end StandardFont

end PdfContent
