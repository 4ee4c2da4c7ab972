import Mathlib.Order.Bounds.Image
import Mathlib.Tactic.Ring
import PdfContent.Interpreter.Page
import PdfContent.Proofs.ExactDivision
import PdfContent.Proofs.ExactGeometry

/-!
# Appearances fill their rectangles

The appearance of an annotation is run with a map to device space that takes its box to the annotation's
rectangle, however its own matrix turns, flips or slants the box. The box around the images of the
corners is known by its sides: each is the least or the greatest coordinate of the images. A stretch
along the axes takes least to least and greatest to greatest, so it takes the box around the placed
appearance to the box around what it is fitted to.
-/

namespace PdfContent

variable {K σ : Type} [ExactDivision K]

namespace BBox

/-- The smallest box around points: it contains them, and each of its sides has one. -/
structure Bounds (b : BBox K) (points : List (Point K)) : Prop where
  left : IsLeast {x | x ∈ points.map Point.x} b.x0
  bottom : IsLeast {y | y ∈ points.map Point.y} b.y0
  right : IsGreatest {x | x ∈ points.map Point.x} b.x1
  top : IsGreatest {y | y ∈ points.map Point.y} b.y1

/-- The point is in the box or on one of its sides. -/
structure Contains (b : BBox K) (p : Point K) : Prop where
  left : b.x0 ≤ p.x
  bottom : b.y0 ≤ p.y
  right : p.x ≤ b.x1
  top : p.y ≤ b.y1

variable {b box placed rect : BBox K} {points : List (Point K)} {m n : Matrix K} {p : Point K}

theorem bounds_transform (box : BBox K) (m : Matrix K) :
    (box.transform m).Bounds (box.corners.map m.applyPoint) where
  left := isLeast_lowest _ _
  bottom := isLeast_lowest _ _
  right := isGreatest_highest _ _
  top := isGreatest_highest _ _

theorem Bounds.unique (bounds : b.Bounds points) (bounds' : box.Bounds points) : b = box := by
  obtain ⟨x0, y0, x1, y1⟩ := b
  obtain ⟨x0', y0', x1', y1'⟩ := box
  obtain rfl : x0 = x0' := bounds.left.unique bounds'.left
  obtain rfl : y0 = y0' := bounds.bottom.unique bounds'.bottom
  obtain rfl : x1 = x1' := bounds.right.unique bounds'.right
  obtain rfl : y1 = y1' := bounds.top.unique bounds'.top
  rfl

/-- A map that moves the coordinates apart from each other and keeps their order keeps the sides. -/
theorem Bounds.map (bounds : b.Bounds points) {f g : K → K} (monoX : Monotone f) (monoY : Monotone g)
    (maps : ∀ p, n.applyPoint p = ⟨f p.x, g p.y⟩) :
    Bounds ⟨f b.x0, g b.y0, f b.x1, g b.y1⟩ (points.map n.applyPoint) := by
  have xs : {x | x ∈ (points.map n.applyPoint).map Point.x} = f '' {x | x ∈ points.map Point.x} := by
    ext x
    simp [maps]
  have ys : {y | y ∈ (points.map n.applyPoint).map Point.y} = g '' {y | y ∈ points.map Point.y} := by
    ext y
    simp [maps]
  exact ⟨xs ▸ monoX.map_isLeast bounds.left, ys ▸ monoY.map_isLeast bounds.bottom,
    xs ▸ monoX.map_isGreatest bounds.right, ys ▸ monoY.map_isGreatest bounds.top⟩

theorem mul_le_of_between {low x high : K} (least : low ≤ x) (most : x ≤ high) (a : K) :
    a * low ≤ a * x ∨ a * high ≤ a * x := by
  rcases le_total 0 a with positive | negative
  · exact .inl (mul_le_mul_of_nonneg_left least positive)
  · exact .inr (mul_le_mul_of_nonpos_left most negative)

/-- A coordinate of the images is least at a corner. -/
theorem Contains.exists_corner_le (inside : box.Contains p) (a c : K) :
    ∃ q ∈ box.corners, a * q.x + c * q.y ≤ a * p.x + c * p.y := by
  rcases mul_le_of_between inside.left inside.right a with x | x <;>
    rcases mul_le_of_between inside.bottom inside.top c with y | y
  · exact ⟨⟨box.x0, box.y0⟩, by simp [corners], add_le_add x y⟩
  · exact ⟨⟨box.x0, box.y1⟩, by simp [corners], add_le_add x y⟩
  · exact ⟨⟨box.x1, box.y0⟩, by simp [corners], add_le_add x y⟩
  · exact ⟨⟨box.x1, box.y1⟩, by simp [corners], add_le_add x y⟩

theorem Contains.exists_le_corner (inside : box.Contains p) (a c : K) :
    ∃ q ∈ box.corners, a * p.x + c * p.y ≤ a * q.x + c * q.y := by
  obtain ⟨q, corner, le⟩ := inside.exists_corner_le (-a) (-c)
  refine ⟨q, corner, ?_⟩
  simpa only [neg_mul, ← neg_add, neg_le_neg_iff] using le

theorem Bounds.contains_of_mem (bounds : b.Bounds points) (mem : p ∈ points) : b.Contains p where
  left := bounds.left.2 (List.mem_map_of_mem mem)
  bottom := bounds.bottom.2 (List.mem_map_of_mem mem)
  right := bounds.right.2 (List.mem_map_of_mem mem)
  top := bounds.top.2 (List.mem_map_of_mem mem)

/-- The box around the images of the corners contains the images of all points of a box. -/
theorem Bounds.contains (bounds : b.Bounds (box.corners.map m.applyPoint)) (inside : box.Contains p) :
    b.Contains (m.applyPoint p) := by
  have image {q : Point K} (corner : q ∈ box.corners) : b.Contains (m.applyPoint q) :=
    bounds.contains_of_mem (List.mem_map_of_mem corner)
  obtain ⟨left, isLeft, leftLe⟩ := inside.exists_corner_le m.a m.c
  obtain ⟨bottom, isBottom, bottomLe⟩ := inside.exists_corner_le m.b m.d
  obtain ⟨right, isRight, leRight⟩ := inside.exists_le_corner m.a m.c
  obtain ⟨top, isTop, leTop⟩ := inside.exists_le_corner m.b m.d
  exact {
    left := (image isLeft).left.trans (add_le_add_left leftLe m.e)
    bottom := (image isBottom).bottom.trans (add_le_add_left bottomLe m.f)
    right := (add_le_add_left leRight m.e).trans (image isRight).right
    top := (add_le_add_left leTop m.f).trans (image isTop).top }

/-- Both boxes have a size in both directions. -/
def HaveSize (placed rect : BBox K) : Prop :=
  0 < rect.width ∧ 0 < rect.height ∧ 0 < placed.width ∧ 0 < placed.height

theorem fit?_eq_none (hidden : ¬ HaveSize placed rect) : placed.fit? rect = none := by
  refine if_pos ?_
  by_contra some
  simp only [not_or, not_le] at some
  exact hidden some

/-- What fits one coordinate: its low side goes to the low side, and a size to the other size. -/
def stretch (low low' size size' x : K) : K :=
  (x - low) * (size' / size) + low'

theorem stretch_low (low low' size size' : K) : stretch low low' size size' low = low' := by
  rw [stretch, sub_self, zero_mul, zero_add]

theorem stretch_high {low high : K} (low' high' : K) (sized : 0 < high - low) :
    stretch low low' (high - low) (high' - low') high = high' := by
  rw [stretch, mul_comm, ExactDivision.div_mul_cancel _ _ sized.ne', sub_add_cancel]

theorem monotone_stretch (low low' : K) {size size' : K} (positive : 0 < size)
    (positive' : 0 < size') : Monotone (stretch low low' size size') := by
  intro x y le
  have quotient := (div_pos_of_pos positive' positive).le
  exact add_le_add_left (mul_le_mul_of_nonneg_right (sub_le_sub_right le low) quotient) low'

theorem exists_fit? (sized : HaveSize placed rect) :
    ∃ n, placed.fit? rect = some n ∧ ∀ p, n.applyPoint p =
      ⟨stretch placed.x0 rect.x0 placed.width rect.width p.x,
        stretch placed.y0 rect.y0 placed.height rect.height p.y⟩ := by
  obtain ⟨width, height, placedWidth, placedHeight⟩ := sized
  refine ⟨_, if_neg ?_, fun p => ?_⟩
  · simp only [not_or, not_le]
    exact ⟨width, height, placedWidth, placedHeight⟩
  · simp only [Matrix.applyPoint_concat, Matrix.applyPoint_shift, Matrix.applyPoint_scaling,
      Point.moved, stretch, sub_eq_add_neg]

/-- The fitting map takes the box around any points to the box around their images. -/
theorem Bounds.fit (bounds : placed.Bounds points) (sized : HaveSize placed rect) :
    ∃ n, placed.fit? rect = some n ∧ rect.Bounds (points.map n.applyPoint) := by
  obtain ⟨n, isFit, maps⟩ := exists_fit? sized
  obtain ⟨width, height, placedWidth, placedHeight⟩ := sized
  have fitted := bounds.map (monotone_stretch _ _ placedWidth width)
    (monotone_stretch _ _ placedHeight height) maps
  have x1 : stretch placed.x0 rect.x0 placed.width rect.width placed.x1 = rect.x1 :=
    stretch_high _ _ placedWidth
  have y1 : stretch placed.y0 rect.y0 placed.height rect.height placed.y1 = rect.y1 :=
    stretch_high _ _ placedHeight
  rw [stretch_low, stretch_low, x1, y1] at fitted
  exact ⟨n, isFit, fitted⟩

end BBox

/-- An appearance with a size in a rectangle with a size is run, between its two events, with a map to
device space that makes the rectangle the box around the images of the corners of its box and takes no
point of its box out of the rectangle. Any other appearance tells the device nothing. -/
theorem RunSettings.appearance_fills (r : RunSettings K σ) (form : Form K σ) (rect : BBox K)
    (scope : σ) :
    let sized := BBox.HaveSize (form.bbox.transform form.matrix) rect
    (sized → ∃ ctm : Matrix K,
      rect.Bounds (form.bbox.corners.map ctm.applyPoint) ∧
      (∀ p, form.bbox.Contains p → rect.Contains (ctm.applyPoint p)) ∧
      let start := (RunState.initial r.baseMatrix).updateContext fun c =>
        c.updateState fun s => { s with ctm }.clipToBox form.bbox
      let o := r.run form.content (form.scope.getD scope) start
      r.appearance form rect scope =
        { o with
          log := .event (.beginForm ⟨"appearance", ctm, rect, form.group⟩) :: o.log ++
            [.event .endForm] }) ∧
    (¬ sized → (r.appearance form rect scope).result = .ok () ∧
      (r.appearance form rect scope).log = []) := by
  intro sized
  constructor
  · intro isSized
    obtain ⟨n, isFit, bounds⟩ := (form.bbox.bounds_transform form.matrix).fit isSized
    have fills : rect.Bounds (form.bbox.corners.map (form.matrix.concat n).applyPoint) := by
      simpa only [List.map_map, Function.comp_def, ← Matrix.applyPoint_concat] using bounds
    refine ⟨form.matrix.concat n, fills, fun p inside => fills.contains inside, ?_⟩
    have same := (form.bbox.bounds_transform (form.matrix.concat n)).unique fills
    simp only [RunSettings.appearance, Form.appearanceMatrix?, isFit, Option.map_some,
      Operators.formEvent, same]
  · intro unsized
    have noMatrix : form.appearanceMatrix? rect = none := by
      rw [Form.appearanceMatrix?, BBox.fit?_eq_none unsized, Option.map_none]
    simp only [RunSettings.appearance, noMatrix, and_self]

/-- A box that is turned, flipped and slanted, in a rectangle of another shape. -/
theorem RunSettings.appearance_fills_slanted :
    let form : Form ℚ Unit :=
      { content := [0x6E], matrix := ⟨0, 2, 3, 1, 5, 7⟩, bbox := ⟨-1, 0, 3, 2⟩, scope := none,
        group := none }
    let rect : BBox ℚ := ⟨10, 20, 17, 25⟩
    let r : RunSettings ℚ Unit :=
      .graphics ⟨2, true, true, true⟩ .identity (.ofCatalogs fun _ => {})
    BBox.HaveSize (form.bbox.transform form.matrix) rect ∧
      ∃ ctm told, rect.Bounds (form.bbox.corners.map ctm.applyPoint) ∧
        (r.appearance form rect ()).log =
          .event (.beginForm ⟨"appearance", ctm, rect, none⟩) :: told := by
  intro form rect r
  have sized : BBox.HaveSize (form.bbox.transform form.matrix) rect := by
    refine ⟨?_, ?_, ?_, ?_⟩ <;> decide +kernel
  obtain ⟨ctm, bounds, -, runs⟩ := (RunSettings.appearance_fills r form rect ()).1 sized
  exact ⟨sized, ctm, _, bounds, by rw [runs]; rfl⟩

end PdfContent
