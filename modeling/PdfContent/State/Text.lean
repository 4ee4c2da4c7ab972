import PdfContent.Font.Basic

/-!
# Text state and text objects

The text state is the part of the graphics state that governs how strings are shown. A text object has
two matrices: the text matrix places the next glyph, and the line matrix remembers where the line
started.
-/

namespace PdfContent

inductive TextRenderMode
  | fill
  | stroke
  | fillStroke
  | invisible
  | fillClip
  | strokeClip
  | fillStrokeClip
  | clip
  deriving DecidableEq, Repr

namespace TextRenderMode

def ofInt? : Int → Option TextRenderMode
  | 0 => some .fill
  | 1 => some .stroke
  | 2 => some .fillStroke
  | 3 => some .invisible
  | 4 => some .fillClip
  | 5 => some .strokeClip
  | 6 => some .fillStrokeClip
  | 7 => some .clip
  | _ => none

/-- The modes with their names. -/
def names : List (TextRenderMode × String) :=
  [(.fill, "Fill"), (.stroke, "Stroke"), (.fillStroke, "FillStroke"), (.invisible, "Invisible"),
    (.fillClip, "FillClip"), (.strokeClip, "StrokeClip"), (.fillStrokeClip, "FillStrokeClip"),
    (.clip, "Clip")]

/-- Whether glyphs are added to the clip. -/
def isClip : TextRenderMode → Bool
  | .fillClip => true
  | .strokeClip => true
  | .fillStrokeClip => true
  | .clip => true
  | _ => false

end TextRenderMode

structure TextState (K σ : Type) where
  charSpacing : K
  wordSpacing : K
  /-- In per cent. -/
  horizontalScaling : K
  leading : K
  /-- The resource name that the font was selected by. -/
  fontName : Option String
  font : Option (Font K σ)
  fontSize : K
  renderMode : TextRenderMode
  rise : K
  knockout : Bool

variable {K σ : Type} [Scalar K]

namespace TextState

def initial : TextState K σ where
  charSpacing := 0
  wordSpacing := 0
  horizontalScaling := Scalar.ofInt 100
  leading := 0
  fontName := none
  font := none
  fontSize := 0
  renderMode := .fill
  rise := 0
  knockout := true

/-- The horizontal scaling as a factor. -/
def horizontalScale (t : TextState K σ) : K := t.horizontalScaling / Scalar.ofInt 100

/-- From unscaled text space to text space: size, horizontal scaling and rise. -/
def parameterMatrix (t : TextState K σ) : Matrix K :=
  ⟨t.fontSize * t.horizontalScale, 0, 0, t.fontSize, 0, t.rise⟩

def same (s t : TextState K σ) : Bool :=
  (match s.font, t.font with
    | none, none => true
    | some f, some g => f.sameSource g
    | _, _ => false) &&
  Scalar.sameList
    [s.charSpacing, s.wordSpacing, s.horizontalScaling, s.leading, s.fontSize, s.rise]
    [t.charSpacing, t.wordSpacing, t.horizontalScaling, t.leading, t.fontSize, t.rise] &&
  s.fontName == t.fontName && s.renderMode == t.renderMode && s.knockout == t.knockout

end TextState

structure TextObject (K : Type) where
  matrix : Matrix K
  lineMatrix : Matrix K

namespace TextObject

def initial : TextObject K := ⟨Matrix.identity, Matrix.identity⟩

def setMatrix (_ : TextObject K) (m : Matrix K) : TextObject K := ⟨m, m⟩

/-- Moves to a new line, `(tx, ty)` away from the start of this one. -/
def moveLine (t : TextObject K) (tx ty : K) : TextObject K :=
  let line := (Matrix.shift tx ty).concat t.lineMatrix
  ⟨line, line⟩

/-- Moves on within the line. -/
def advance (t : TextObject K) (tx ty : K) : TextObject K :=
  { t with matrix := (Matrix.shift tx ty).concat t.matrix }

end TextObject

end PdfContent
