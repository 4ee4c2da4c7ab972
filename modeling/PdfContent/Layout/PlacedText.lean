import PdfContent.Geometry

/-!
# Text in its place on a page

A piece of text has a matrix, whose last two entries are where the text starts, and a point where it ends,
both measured from the lower left corner of the page. Its direction tells which way it runs; the
adjusted coordinates are those of the page turned so that the text runs from left to right, with `y`
growing downwards.
-/

namespace PdfContent

/-- The box of a page, and how far the page is turned clockwise for display. -/
structure PageFrame (K : Type) where
  width : K
  height : K
  /-- In degrees. -/
  rotation : Int
  origin : Point K

structure PlacedText (K : Type) where
  text : String
  matrix : Matrix K
  stop : Point K
  height : K
  spaceWidth : K
  pageWidth : K
  pageHeight : K
  /-- In degrees. -/
  pageRotation : Int

variable {K : Type} [Scalar K]

/-- The frame of a page with a given box. The rotation is taken down to a quarter turn. -/
def PageFrame.ofBox (box : BBox K) (rotation : Int) : PageFrame K where
  width := box.width
  height := box.height
  rotation := rotation % 360 / 90 * 90
  origin := ⟨box.x0, box.y0⟩

/-- The frame that is assumed where none is known: eight and a half by eleven inches. -/
def PageFrame.letter : PageFrame K :=
  .ofBox (.ofCorners 0 0 (Scalar.ofInt 612) (Scalar.ofInt 792)) 0

namespace PlacedText

variable (t : PlacedText K)

/-- How far the text goes to the right on the unturned page. -/
def width : K := t.stop.x - t.matrix.e

/-- The direction that the text runs in, in degrees against the clock. Text that stands upright in none
of the four directions counts as running to the right. -/
def direction : Int :=
  let a := t.matrix.a
  let b := t.matrix.b
  let c := t.matrix.c
  let d := t.matrix.d
  if 0 < a ∧ Scalar.abs b < d ∧ Scalar.abs c < a ∧ 0 < d then 0
  else if a < 0 ∧ Scalar.abs b < Scalar.abs d ∧ Scalar.abs c < Scalar.abs a ∧ d < 0 then 180
  else if Scalar.abs a < Scalar.abs c ∧ 0 < b ∧ c < 0 ∧ Scalar.abs d < b then 90
  else if Scalar.abs a < c ∧ b < 0 ∧ 0 < c ∧ Scalar.abs d < Scalar.abs b then 270
  else 0

/-- The distance of the start from the left side of the page turned by some degrees. -/
def fromLeft (rotation : Int) : K :=
  if rotation = 90 then t.matrix.f
  else if rotation = 180 then t.pageWidth - t.matrix.e
  else if rotation = 270 then t.pageHeight - t.matrix.f
  else t.matrix.e

/-- The distance of the start from the lower side of the page turned by some degrees. -/
def fromBottom (rotation : Int) : K :=
  if rotation = 90 then t.pageWidth - t.matrix.e
  else if rotation = 180 then t.pageHeight - t.matrix.f
  else if rotation = 270 then t.matrix.e
  else t.matrix.f

/-- The distance of the start from the upper side of the page turned by some degrees. -/
def fromTop (rotation : Int) : K :=
  if rotation = 0 ∨ rotation = 180 then t.pageHeight - t.fromBottom rotation
  else t.pageWidth - t.fromBottom rotation

/-- How long the text is on the page turned by some degrees. -/
def length (rotation : Int) : K :=
  if rotation = 90 ∨ rotation = 270 then Scalar.abs (t.stop.y - t.matrix.f)
  else Scalar.abs (t.stop.x - t.matrix.e)

/-- The horizontal coordinate on the page as it is displayed. -/
def x : K := t.fromLeft t.pageRotation

/-- The vertical coordinate on the page as it is displayed, from the top. -/
def y : K := t.fromTop t.pageRotation

/-- The horizontal coordinate on the page turned so that the text runs from left to right. -/
def adjustedX : K := t.fromLeft t.direction

/-- The distance of the baseline from the top of the page turned so that the text runs from left to
right. -/
def adjustedY : K := t.fromTop t.direction

/-- The length of the text along its direction. -/
def adjustedWidth : K := t.length t.direction

end PlacedText

end PdfContent
