import PdfContent.Proofs.ReadingLines

/-!
# Which of two pieces is read first

Comparing two pieces the other way round gives the reverse, although the comparison ends in a test that
treats its two sides differently: what is not further up counts as further down. With a positive
tolerance, baselines at one height are on one line. So pieces on different lines are never level, the
last test compares their heights, and the whole comparison is one of numbers, number after number.
-/

namespace PdfContent

namespace PlacedText

variable {K : Type} [ExactScalar K] {tolerance : K} {s t : PlacedText K}

/-- The first piece is read before the second one. -/
inductive ReadBefore (tolerance : K) (s t : PlacedText K) : Prop
  | direction : s.direction < t.direction → ReadBefore tolerance s t
  | along : s.direction = t.direction → sameLine tolerance s t → s.adjustedX < t.adjustedX →
      ReadBefore tolerance s t
  | above : s.direction = t.direction → ¬sameLine tolerance s t → s.adjustedY < t.adjustedY →
      ReadBefore tolerance s t

/-- Whatever their heights are, pieces with level baselines are on one line. -/
theorem sameLine_of_level (positive : 0 < tolerance) (level : s.adjustedY = t.adjustedY) :
    sameLine tolerance s t := by
  have close : Scalar.abs (s.adjustedY - t.adjustedY) < tolerance := by
    rwa [level, sub_self, ExactScalar.abs_eq, abs_zero]
  simp [sameLine, close]

/-- On different lines there is no tie for the last test to decide. -/
theorem compare_adjustedY_of_apart (positive : 0 < tolerance) (apart : ¬sameLine tolerance s t) :
    (if s.adjustedY < t.adjustedY then Ordering.lt else .gt) =
      compare s.adjustedY t.adjustedY := by
  rcases lt_trichotomy s.adjustedY t.adjustedY with above | level | below
  · rw [if_pos above, compare_lt_iff_lt.mpr above]
  · exact absurd (sameLine_of_level positive level) apart
  · rw [if_neg below.not_gt, compare_gt_iff_gt.mpr below]

/-- The comparison as one of numbers. -/
theorem readingOrder_eq_then (positive : 0 < tolerance) (s t : PlacedText K) :
    readingOrder tolerance s t = (compare s.direction t.direction).then
      (if sameLine tolerance s t then compare s.adjustedX t.adjustedX
      else compare s.adjustedY t.adjustedY) := by
  rw [readingOrder, ExactScalar.totalCompare_eq]
  congr 1
  split
  next => rfl
  next apart => exact compare_adjustedY_of_apart positive apart

theorem readingOrder_swap (positive : 0 < tolerance) (s t : PlacedText K) :
    readingOrder tolerance s t = (readingOrder tolerance t s).swap := by
  have eq_swap {α : Type} [LinearOrder α] (x y : α) : compare x y = (compare y x).swap :=
    Std.OrientedOrd.eq_swap
  rw [readingOrder_eq_then positive, readingOrder_eq_then positive t, Ordering.swap_then,
    apply_ite Ordering.swap, ← eq_swap, ← eq_swap, ← eq_swap, sameLine_comm tolerance t]

theorem readingOrder_eq_eq_iff (positive : 0 < tolerance) :
    readingOrder tolerance s t = .eq ↔
      s.direction = t.direction ∧ sameLine tolerance s t ∧ s.adjustedX = t.adjustedX := by
  rw [readingOrder_eq_then positive, Ordering.then_eq_eq, compare_eq_iff_eq]
  refine and_congr_right fun _ => ?_
  split
  next together => rw [compare_eq_iff_eq, and_iff_right together]
  next apart =>
    -- level pieces would be on one line, so neither side can hold
    rw [compare_eq_iff_eq]
    refine iff_of_false (fun level => apart (sameLine_of_level positive level)) ?_
    exact fun tied => apart tied.1

theorem readingOrder_eq_lt_iff (positive : 0 < tolerance) :
    readingOrder tolerance s t = .lt ↔ ReadBefore tolerance s t := by
  rw [readingOrder_eq_then positive, Ordering.then_eq_lt, compare_lt_iff_lt, compare_eq_iff_eq]
  constructor
  · rintro (turned | ⟨direction, first⟩)
    · exact .direction turned
    · split at first
      next together => exact .along direction together (compare_lt_iff_lt.mp first)
      next apart => exact .above direction apart (compare_lt_iff_lt.mp first)
  · rintro (turned | ⟨direction, together, left⟩ | ⟨direction, apart, above⟩)
    · exact .inl turned
    · exact .inr ⟨direction, by rw [if_pos together, compare_lt_iff_lt.mpr left]⟩
    · exact .inr ⟨direction, by rw [if_neg apart, compare_lt_iff_lt.mpr above]⟩

/-- Of two pieces in any directions and of any heights, either one is read before the other one, or
they run in one direction on one line from the same place. The comparison says so, whichever of them it
is given first. -/
theorem readingOrder_reverse (tolerance : K) (positive : 0 < tolerance) (s t : PlacedText K) :
    readingOrder tolerance s t = (readingOrder tolerance t s).swap ∧
    (readingOrder tolerance s t = .eq ↔
      s.direction = t.direction ∧ sameLine tolerance s t ∧ s.adjustedX = t.adjustedX) ∧
    (readingOrder tolerance s t = .lt ↔ ReadBefore tolerance s t) ∧
    (readingOrder tolerance s t = .gt ↔ ReadBefore tolerance t s) := by
  refine ⟨readingOrder_swap positive s t, readingOrder_eq_eq_iff positive,
    readingOrder_eq_lt_iff positive, ?_⟩
  rw [readingOrder_swap positive, Ordering.swap_eq_gt, readingOrder_eq_lt_iff positive]

/-- Pieces that reach downwards from their baselines: one, another one a little lower and further to the
left, one that starts at the same place as the first, and one higher up. -/
theorem readingOrder_reverse_inverted :
    let piece (x y height : Int) : PlacedText Int :=
      { text := "a", matrix := ⟨10, 0, 0, 10, x, y⟩, stop := ⟨x + 5, y⟩, height, spaceWidth := 2,
        pageWidth := 612, pageHeight := 792, pageRotation := 0 }
    let a := piece 50 700 (-7)
    let b := piece 10 698 (-12)
    let c := piece 50 701 (-9)
    let d := piece 10 720 (-30)
    (0 : Int) < 3 ∧ (readingOrder 3 a b = .gt ∧ ReadBefore 3 b a) ∧ readingOrder 3 a c = .eq ∧
      (readingOrder 3 d a = .lt ∧ readingOrder 3 a d = .gt) := by
  intro piece a b c d
  have positive : (0 : Int) < 3 := by decide
  obtain ⟨-, -, -, after⟩ := readingOrder_reverse 3 positive a b
  obtain ⟨-, tied, -, -⟩ := readingOrder_reverse 3 positive a c
  obtain ⟨-, -, first, -⟩ := readingOrder_reverse 3 positive d a
  obtain ⟨swapped, -⟩ := readingOrder_reverse 3 positive a d
  have left : ReadBefore 3 b a := .along (by decide) (by decide) (by decide)
  have above : ReadBefore 3 d a := .above (by decide) (by decide) (by decide)
  refine ⟨positive, ⟨after.mpr left, left⟩, tied.mpr (by decide), first.mpr above, ?_⟩
  rw [swapped, first.mpr above]
  rfl

/-- Without a tolerance, a piece that reaches downwards is on no line and is read after itself. -/
example :
    let t : PlacedText Int :=
      { text := "a", matrix := ⟨10, 0, 0, 10, 50, 700⟩, stop := ⟨55, 700⟩, height := -7,
        spaceWidth := 2, pageWidth := 612, pageHeight := 792, pageRotation := 0 }
    readingOrder 0 t t = .gt := by
  decide

end PlacedText

end PdfContent
