import Mathlib.Tactic.Linarith
import PdfContent.Proofs.ExactArithmetic
import PdfContent.Proofs.TextAssembly

/-!
# Text on turned pages

A page may be turned by quarters with everything on it. Text that stood upright then runs in another
direction, which is read off its matrix, and each of the adjusted coordinates comes from another
side of the page. What they come to is the same, so reading order and text do not depend on how
the page is turned.
-/

namespace PdfContent

/-- How far a page is turned against the clock. -/
inductive QuarterTurns
  | one
  | two
  | three
  deriving DecidableEq, Repr

namespace QuarterTurns

def degrees : QuarterTurns → Int
  | one => 90
  | two => 180
  | three => 270

variable {K : Type} [Scalar K]

/-- The turn around the lower left corner. -/
def rotation : QuarterTurns → Matrix K
  | one => ⟨0, 1, -1, 0, 0, 0⟩
  | two => ⟨-1, 0, 0, -1, 0, 0⟩
  | three => ⟨0, -1, 1, 0, 0, 0⟩

/-- Where a point of a page of the given size comes to lie, measured from the corner that is then the
lower left one. -/
def place (width height : K) : QuarterTurns → Point K → Point K
  | one, p => ⟨height - p.y, p.x⟩
  | two, p => ⟨width - p.x, height - p.y⟩
  | three, p => ⟨p.y, width - p.x⟩

end QuarterTurns

namespace PlacedText

section

variable {K : Type} [Scalar K]

/-- Text on its page after the page is turned. -/
def turned (turns : QuarterTurns) (t : PlacedText K) : PlacedText K :=
  let start := turns.place t.pageWidth t.pageHeight ⟨t.matrix.e, t.matrix.f⟩
  { t with
    matrix := { t.matrix.concat turns.rotation with e := start.x, f := start.y }
    stop := turns.place t.pageWidth t.pageHeight t.stop
    pageWidth := if turns = .two then t.pageWidth else t.pageHeight
    pageHeight := if turns = .two then t.pageHeight else t.pageWidth }

/-- Text runs to the right, with its upper side up, and is slanted by less than half a right angle. -/
structure Upright (t : PlacedText K) : Prop where
  runsRight : 0 < t.matrix.a
  facesUp : 0 < t.matrix.d
  slope : Scalar.abs t.matrix.b < t.matrix.d
  slant : Scalar.abs t.matrix.c < t.matrix.a

theorem Upright.direction {t : PlacedText K} (upright : t.Upright) : t.direction = 0 := by
  rw [PlacedText.direction, if_pos ⟨upright.runsRight, upright.slope, upright.slant, upright.facesUp⟩]

end

variable {K : Type} [ExactScalar K] {tolerance : K} {s t : PlacedText K}

/-- The entries of a matrix that turn vectors, after a turn. -/
theorem linear_turned (turns : QuarterTurns) (t : PlacedText K) :
    let m := t.matrix
    let m' := (t.turned turns).matrix
    match turns with
    | .one => m'.a = -m.b ∧ m'.b = m.a ∧ m'.c = -m.d ∧ m'.d = m.c
    | .two => m'.a = -m.a ∧ m'.b = -m.b ∧ m'.c = -m.c ∧ m'.d = -m.d
    | .three => m'.a = m.b ∧ m'.b = -m.a ∧ m'.c = m.d ∧ m'.d = -m.c := by
  cases turns <;> simp [turned, Matrix.concat, QuarterTurns.rotation]

/-- Upright text runs after a turn as the turn says. -/
theorem Upright.direction_turned (upright : t.Upright) (turns : QuarterTurns) :
    (t.turned turns).direction = turns.degrees := by
  obtain ⟨runsRight, facesUp, slope, slant⟩ := upright
  rw [ExactScalar.abs_eq] at slope slant
  have entries := linear_turned turns t
  have lowerC := neg_abs_le t.matrix.c
  have upperC := le_abs_self t.matrix.c
  cases turns
  all_goals
    obtain ⟨a, b, c, d⟩ := entries
    simp only [PlacedText.direction, a, b, c, d, ExactScalar.abs_eq, abs_neg, abs_of_pos runsRight,
      abs_of_pos facesUp]
  -- the tests before the one of the direction fail by the sign of one entry
  case one =>
    rw [if_neg fun right => by linarith [right.2.1], if_neg fun left => by linarith [left.2.1],
      if_pos ⟨slope, runsRight, by linarith, slant⟩]
    rfl
  case two =>
    rw [if_neg fun right => by linarith [right.1], if_pos ⟨by linarith, slope, slant, by linarith⟩]
    rfl
  case three =>
    rw [if_neg fun right => by linarith [right.2.1], if_neg fun left => by linarith [left.2.1],
      if_neg fun up => by linarith [up.2.1], if_pos ⟨slope, by linarith, facesUp, slant⟩]
    rfl

/-- Each turn moves the sides of the page that the coordinates of its direction are measured from,
so the coordinates are those of the page as it was. -/
theorem Upright.adjusted_turned (upright : t.Upright) (turns : QuarterTurns) :
    (t.turned turns).adjustedX = t.adjustedX ∧ (t.turned turns).adjustedY = t.adjustedY ∧
      (t.turned turns).adjustedWidth = t.adjustedWidth := by
  rw [adjustedX, adjustedX, adjustedY, adjustedY, adjustedWidth, adjustedWidth,
    upright.direction_turned turns, upright.direction]
  cases turns <;>
    simp [turned, QuarterTurns.degrees, QuarterTurns.place, fromLeft, fromTop, fromBottom, length,
      ExactScalar.abs_eq]
  -- where the page is turned by more than one quarter, the length is measured backwards
  all_goals exact abs_sub_comm ..

section Pairs

variable (uprightS : s.Upright) (uprightT : t.Upright) (turns : QuarterTurns)
include uprightS uprightT

theorem sameLine_turned :
    sameLine tolerance (s.turned turns) (t.turned turns) = sameLine tolerance s t := by
  rw [sameLine, sameLine, (uprightS.adjusted_turned turns).2.1,
    (uprightT.adjusted_turned turns).2.1]
  rfl

theorem readingOrder_turned :
    readingOrder tolerance (s.turned turns) (t.turned turns) = readingOrder tolerance s t := by
  obtain ⟨sameX, sameY, -⟩ := uprightS.adjusted_turned turns
  obtain ⟨sameX', sameY', -⟩ := uprightT.adjusted_turned turns
  rw [readingOrder, readingOrder, sameLine_turned uprightS uprightT, sameX, sameX', sameY, sameY',
    uprightS.direction_turned, uprightT.direction_turned, uprightS.direction, uprightT.direction]
  cases turns <;> rfl

theorem needsSpace_turned : needsSpace (s.turned turns) (t.turned turns) = needsSpace s t := by
  obtain ⟨sameX, -, sameWidth⟩ := uprightS.adjusted_turned turns
  obtain ⟨sameX', -, -⟩ := uprightT.adjusted_turned turns
  rw [needsSpace, needsSpace, sameX, sameX', sameWidth]
  rfl

theorem separator_turned :
    separator tolerance (s.turned turns) (t.turned turns) = separator tolerance s t := by
  rw [separator, separator, sameLine_turned uprightS uprightT, needsSpace_turned uprightS uprightT,
    uprightS.direction_turned, uprightT.direction_turned, uprightS.direction, uprightT.direction]
  simp

end Pairs

end PlacedText

namespace TextPosition

/-- The glyph is the same, in its place on the turned page. -/
def turned {K σ : Type} [Scalar K] (turns : QuarterTurns) (t : TextPosition K σ) :
    TextPosition K σ :=
  { t with toPlacedText := t.toPlacedText.turned turns }

variable {K σ : Type} [ExactScalar K]

theorem joinText_turned (tolerance : K) (turns : QuarterTurns) {positions : List (TextPosition K σ)}
    (upright : ∀ t ∈ positions, t.Upright) :
    joinText tolerance (positions.map (turned turns)) = joinText tolerance positions := by
  let placed := positions.map toPlacedText
  have upright' : ∀ t ∈ placed, t.Upright := by simpa [placed] using upright
  have same : (positions.map (turned turns)).map toPlacedText =
      placed.map (PlacedText.turned turns) := by
    rw [List.map_map, List.map_map]
    rfl
  rw [joinText, joinText, same]
  exact PlacedText.joinText_map (fun t _ => rfl) fun s among t among' =>
    PlacedText.separator_turned (upright' s among) (upright' t among') turns

/-- Text that stands upright is read in the same order, and comes to the same text, whichever way its
page is turned. -/
theorem inReadingOrder_turned (tolerance : K) (turns : QuarterTurns)
    (positions : List (TextPosition K σ)) (upright : ∀ t ∈ positions, t.Upright) :
    (∀ t ∈ positions, (t.turned turns).adjustedX = t.adjustedX ∧
      (t.turned turns).adjustedY = t.adjustedY) ∧
    (∀ s ∈ positions, ∀ t ∈ positions,
      PlacedText.readingOrder tolerance (s.turned turns).toPlacedText (t.turned turns).toPlacedText =
        PlacedText.readingOrder tolerance s.toPlacedText t.toPlacedText) ∧
    inReadingOrder tolerance (positions.map (turned turns)) =
      (inReadingOrder tolerance positions).map (turned turns) ∧
    joinText tolerance (positions.map (turned turns)) = joinText tolerance positions ∧
    joinText tolerance (inReadingOrder tolerance (positions.map (turned turns))) =
      joinText tolerance (inReadingOrder tolerance positions) := by
  have order (s) (among : s ∈ positions) (t) (among' : t ∈ positions) :
      PlacedText.readingOrder tolerance (s.turned turns).toPlacedText (t.turned turns).toPlacedText =
        PlacedText.readingOrder tolerance s.toPlacedText t.toPlacedText :=
    PlacedText.readingOrder_turned (upright s among) (upright t among') turns
  have sorted : inReadingOrder tolerance (positions.map (turned turns)) =
      (inReadingOrder tolerance positions).map (turned turns) := by
    refine (map_sortBy (turned turns) ?_).symm
    exact List.pairwise_of_forall_mem_list fun s among t among' => (order t among' s among).symm
  refine ⟨fun t among => ?_, order, sorted, joinText_turned tolerance turns upright, ?_⟩
  · obtain ⟨sameX, sameY, -⟩ := (upright t among).adjusted_turned turns
    exact ⟨sameX, sameY⟩
  · rw [sorted]
    exact joinText_turned tolerance turns fun t among => upright t (mem_sortBy.mp among)

/-- Two slanted pieces on a page that is turned by three quarters. -/
theorem inReadingOrder_turned_slanted :
    let piece (text : String) (x y : Int) : TextPosition Int Unit := ofPlaced {
      text, matrix := ⟨10, 3, -2, 8, x, y⟩, stop := ⟨x + 5, y + 1⟩, height := 7, spaceWidth := 2,
      pageWidth := 612, pageHeight := 792, pageRotation := 0 }
    let positions := [piece "b" 20 700, piece "a" 10 701]
    (∀ t ∈ positions, t.Upright) ∧
      inReadingOrder 1 (positions.map (turned .three)) =
        (inReadingOrder 1 positions).map (turned .three) ∧
      joinText 1 (inReadingOrder 1 (positions.map (turned .three))) =
        joinText 1 (inReadingOrder 1 positions) := by
  intro piece positions
  have upright : ∀ t ∈ positions, t.Upright := by
    have each (text : String) (x y : Int) : (piece text x y).Upright := {
      runsRight := show (0 : Int) < 10 by decide
      facesUp := show (0 : Int) < 8 by decide
      slope := show Scalar.abs (3 : Int) < 8 by decide
      slant := show Scalar.abs (-2 : Int) < 10 by decide }
    intro t among
    simp only [positions, List.mem_cons, List.not_mem_nil, or_false] at among
    rcases among with rfl | rfl <;> exact each ..
  obtain ⟨-, -, sorted, -, text⟩ := inReadingOrder_turned 1 .three positions upright
  exact ⟨upright, sorted, text⟩

end TextPosition

end PdfContent
