import PdfContent.Layout.PlacedText

/-!
# Reading order

Pieces of text are compared by their direction, then by the line that they are on, then along the line.
Two pieces are on one line if their baselines are close or if the baseline of one passes through the
height of the other. This is no equivalence, so comparing is not always a total order; `sortBy` is
therefore fixed in every step, and gives a rearrangement of its input for any comparison.
-/

namespace PdfContent

/-- Sorts by halving and merging, with the smaller half in front. An element of the later half goes first
only if it compares less. -/
def sortBy {α : Type} (compare : α → α → Ordering) (items : List α) : List α :=
  if items.length ≤ 1 then items
  else
    (sortBy compare (items.take (items.length / 2))).merge
      (sortBy compare (items.drop (items.length / 2))) fun a b => compare b a != .lt
termination_by items.length
decreasing_by
  · simp
    omega
  · simp
    omega

namespace PlacedText

variable {K : Type} [Scalar K]

/-- Baselines closer than this are on one line. -/
def standardTolerance : K := Scalar.ofDecimal false 1 1

/-- Whether two pieces of text are on one line. -/
def sameLine (tolerance : K) (s t : PlacedText K) : Bool :=
  let bottom := s.adjustedY
  let top := bottom - s.height
  let bottom' := t.adjustedY
  let top' := bottom' - t.height
  Scalar.abs (bottom - bottom') < tolerance ||
    (top ≤ bottom' && bottom' ≤ bottom) || (top' ≤ bottom && bottom ≤ bottom')

/-- Which of two pieces of text is read first. -/
def readingOrder (tolerance : K) (s t : PlacedText K) : Ordering :=
  (compare s.direction t.direction).then
    (if sameLine tolerance s t then Scalar.totalCompare s.adjustedX t.adjustedX
    else if s.adjustedY < t.adjustedY then .lt
    else .gt)

/-- Whether a space belongs between two pieces on one line: the gap is wider than half a space, and
there is no space character already. -/
def needsSpace (s t : PlacedText K) : Bool :=
  let gap := t.adjustedX - (s.adjustedX + s.adjustedWidth)
  let space := Scalar.greatest s.spaceWidth t.spaceWidth
  Scalar.half space < gap && !s.text.endsWith " " && t.text != " "

/-- What is written between two pieces that follow each other. -/
def separator (tolerance : K) (s t : PlacedText K) : String :=
  if s.direction == t.direction && sameLine tolerance s t then
    if needsSpace s t then " " else ""
  else "\n"

/-- The text after a piece. -/
def textAfter (tolerance : K) (s : PlacedText K) : List (PlacedText K) → String
  | [] => ""
  | t :: rest => separator tolerance s t ++ t.text ++ textAfter tolerance t rest

/-- The text of pieces in the given order. -/
def joinText (tolerance : K) : List (PlacedText K) → String
  | [] => ""
  | t :: rest => t.text ++ textAfter tolerance t rest

end PlacedText

end PdfContent
