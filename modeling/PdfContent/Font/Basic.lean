import PdfContent.Font.Overflow
import PdfContent.Geometry
import PdfContent.Text.Unicode

/-!
# Fonts as the interpreter sees them

A font splits strings into codes and says how wide each code's glyph is, what text it stands for, and,
for a Type 3 font, which content draws it. Resources are looked up in scopes of type `σ`; a glyph
procedure without a scope of its own uses the one of the stream that shows the text.
-/

namespace PdfContent

inductive FontKind
  | simple
  | composite
  | type3
  deriving DecidableEq, Repr

def FontKind.label : FontKind → String
  | .simple => "simple"
  | .composite => "composite"
  | .type3 => "Type3"

/-- What a font is asked for. -/
inductive FontRequest
  /-- To be there at all. -/
  | selection
  | width (code : UInt32)
  | spaceWidth
  deriving DecidableEq, Repr

/-- The content that draws a glyph. -/
structure GlyphProcedure (σ : Type) where
  content : Bytes
  scope : Option σ

structure Font (K σ : Type) where
  name : String
  kind : FontKind
  /-- The code at the start of a string and its length, which callers keep within the string. -/
  readCode : Bytes → UInt32 × Nat
  /-- The advance width of a code in glyph space. -/
  width : UInt32 → K
  /-- From glyph space to text space. -/
  matrix : Matrix K
  bbox : Option (BBox K)
  capHeight : Option K
  spaceWidth : Option K
  averageWidth : Option K
  text? : UInt32 → Option String
  glyphName? : UInt32 → Option String
  vertical : Bool
  procedure? : UInt32 → Option (GlyphProcedure σ)
  /-- The object that the font was made from, if it has a number of its own. -/
  source : Option (Nat × Nat)
  /-- What the font is not asked for without the program ending by an overflow. What stands in the other
  fields for it does not matter. -/
  overflow? : FontRequest → Option Overflow

namespace Font

variable {K σ : Type} [Scalar K]

/-- One code per byte. -/
def readByte : Bytes → UInt32 × Nat
  | b :: _ => (b.toUInt32, 1)
  | [] => (0, 1)

/-- Glyph space in thousandths of text space. -/
def thousandths : Matrix K :=
  ⟨Scalar.ofDecimal false 1 3, 0, 0, Scalar.ofDecimal false 1 3, 0, 0⟩

/-- A font that says no more than how wide its glyphs are. -/
def ofWidth (name : String) (kind : FontKind) (width : UInt32 → K) : Font K σ where
  name
  kind
  readCode := readByte
  width
  matrix := thousandths
  bbox := none
  capHeight := none
  spaceWidth := none
  averageWidth := none
  text? _ := none
  glyphName? _ := none
  vertical := false
  procedure? _ := none
  source := none
  overflow? _ := none

/-- The width that is assumed for a glyph of which nothing is known. -/
def fallbackWidth : K := Scalar.ofInt 500

/-- The font that stands in for one that cannot be found. -/
def fallback : Font K σ :=
  { ofWidth "Fallback" .simple fun _ => fallbackWidth with
    spaceWidth := some (Scalar.half fallbackWidth)
    averageWidth := some fallbackWidth }

/-- How many bytes of `s` belong to its first code: at least one, and no more than there are. -/
def codeLength (font : Font K σ) (s : Bytes) : Nat := max 1 (min (font.readCode s).2 s.length)

omit [Scalar K] in
theorem codeLength_pos (font : Font K σ) (s : Bytes) : 0 < font.codeLength s :=
  Nat.le_max_left 1 _

/-- The codes of a string, each with the bytes that spell it. -/
def decode (font : Font K σ) (s : Bytes) : List (UInt32 × Bytes) :=
  match s with
  | [] => []
  | b :: rest =>
    let n := font.codeLength (b :: rest)
    ((font.readCode (b :: rest)).1, (b :: rest).take n) :: font.decode ((b :: rest).drop n)
termination_by s.length
decreasing_by
  have := font.codeLength_pos (b :: rest)
  simp only [List.length_drop, List.length_cons]
  omega

/-- Whether two fonts are known to be the same object. -/
def sameSource (a b : Font K σ) : Bool :=
  match a.source, b.source with
  | some x, some y => x == y
  | _, _ => false

end Font

end PdfContent
