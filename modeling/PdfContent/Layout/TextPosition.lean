import PdfContent.Font.GlyphName
import PdfContent.Interpreter.Event
import PdfContent.Layout.ReadingOrder

/-!
# The text of glyphs

A glyph event becomes a piece of text on the page if there is any way to tell what it stands for: the
font's own mapping, the name of the glyph, or, for a font with one byte per code, the code itself.
-/

namespace PdfContent

/-- The text of a glyph in its place. -/
structure TextPosition (K σ : Type) extends PlacedText K where
  glyph : GlyphEvent K σ

variable {K σ : Type} [Scalar K]

namespace GlyphEvent

/-- The text that a glyph stands for, by all that is known about it. -/
def impliedText? (g : GlyphEvent K σ) : Option String :=
  (g.text.or ((g.font.glyphName? g.code).bind Glyph.text?)).or
    (match g.font.kind with
      | .composite => none
      | _ => if g.code.toNat.isValidChar then some (String.singleton (Char.ofNat g.code.toNat)) else none)

/-- The height of a font's glyphs in glyph space: half its box, or the height of its capitals if that is
less or there is no box. -/
def glyphHeight (font : Font K σ) : K :=
  let half := match font.bbox with
    | some b => Scalar.half b.height
    | none => 0
  match font.capHeight with
  | some cap => if !Scalar.same cap 0 && (cap < half || Scalar.same half 0) then cap else half
  | none => half

/-- The width of a space in text space: the font's own, else eight tenths of its average width, else
one. -/
def spaceWidth (font : Font K σ) : K :=
  let own := font.spaceWidth.getD 0 * font.matrix.a
  if !Scalar.same own 0 then own
  else
    let average := font.averageWidth.getD 0 * font.matrix.a * Scalar.ofDecimal false 8 1
    if !Scalar.same average 0 then average else 1

/-- The font size along the line. -/
def sizeInPoints (g : GlyphEvent K σ) : K := g.fontSize * g.textMatrix.scaleX

/-- The map to device space of the glyph that would follow without any extra spacing. -/
def nextMatrix (g : GlyphEvent K σ) : Matrix K :=
  ((Matrix.shift (g.displacement.x * g.fontSize * g.horizontalScale) 0).concat
    g.textMatrix).concat g.ctm

end GlyphEvent

/-- A glyph as text on a page. -/
def TextPosition.ofGlyph? (frame : PageFrame K) (g : GlyphEvent K σ) : Option (TextPosition K σ) := do
  let text ← g.impliedText?
  let origin := frame.origin
  let next := g.nextMatrix
  return {
    text
    matrix := g.renderingMatrix.concat (Matrix.shift (-origin.x) (-origin.y))
    stop := ⟨next.e - origin.x, next.f - origin.y⟩
    height := (g.font.matrix.applyVector ⟨0, GlyphEvent.glyphHeight g.font⟩).y * g.renderingMatrix.scaleY
    spaceWidth := GlyphEvent.spaceWidth g.font * g.renderingMatrix.scaleX
    pageWidth := frame.width
    pageHeight := frame.height
    pageRotation := frame.rotation
    glyph := g }

namespace TextPosition

/-- The pieces of text of a log, in the order in which they were shown. -/
def ofLog (frame : PageFrame K) (log : List (Entry K σ)) : List (TextPosition K σ) :=
  (Entry.glyphs log).filterMap (ofGlyph? frame)

omit [Scalar K] in
/-- What placing the glyphs of a log overflows by. Each of them asks for the width of a space. -/
def overflow? (log : List (Entry K σ)) : Option Overflow :=
  (Entry.glyphs log).findSome? fun g => g.font.overflow? .spaceWidth

/-- Pieces of text in reading order. -/
def inReadingOrder (tolerance : K) (positions : List (TextPosition K σ)) : List (TextPosition K σ) :=
  sortBy (fun s t => PlacedText.readingOrder tolerance s.toPlacedText t.toPlacedText) positions

/-- The text of pieces in the given order. -/
def joinText (tolerance : K) (positions : List (TextPosition K σ)) : String :=
  PlacedText.joinText tolerance (positions.map TextPosition.toPlacedText)

end TextPosition

end PdfContent
