import PdfContent.Proofs.Appearances

/-!
# Boxes under maps

The box around the images of the corners of a box is the smallest one around the images of all its
points, whichever way the map turns, flips or slants it. A coordinate of an image is least and greatest
at corners, so the images of the corners decide what is around all of them. The corners of a box inside
another one are points of that one, and the box around their images is inside as well.
-/

namespace PdfContent

variable {K : Type} [ExactDivision K]

namespace BBox

/-- The sides are in order, so that the box has points. -/
structure Normalized (b : BBox K) : Prop where
  horizontal : b.x0 ≤ b.x1
  vertical : b.y0 ≤ b.y1

/-- Every point of the first box is one of the second. -/
def Within (inner outer : BBox K) : Prop := ∀ p, inner.Contains p → outer.Contains p

/-- Each side has one of the points at its height or breadth. -/
structure TouchedBy (b : BBox K) (points : List (Point K)) : Prop where
  left : ∃ p ∈ points, p.x = b.x0
  bottom : ∃ p ∈ points, p.y = b.y0
  right : ∃ p ∈ points, p.x = b.x1
  top : ∃ p ∈ points, p.y = b.y1

variable {b box inner outer : BBox K} {points : List (Point K)} {m : Matrix K}

theorem normalized_ofCorners (x0 y0 x1 y1 : K) : (ofCorners x0 y0 x1 y1).Normalized := by
  constructor <;>
    simp only [ofCorners, ExactScalar.least_eq, ExactScalar.greatest_eq, min_le_max]

theorem Normalized.contains_corner (normalized : box.Normalized) {q : Point K}
    (corner : q ∈ box.corners) : box.Contains q := by
  obtain ⟨horizontal, vertical⟩ := normalized
  simp only [corners, List.mem_cons, List.not_mem_nil, or_false] at corner
  rcases corner with rfl | rfl | rfl | rfl
  · exact ⟨le_rfl, le_rfl, horizontal, vertical⟩
  · exact ⟨horizontal, le_rfl, le_rfl, vertical⟩
  · exact ⟨horizontal, vertical, le_rfl, le_rfl⟩
  · exact ⟨le_rfl, vertical, horizontal, le_rfl⟩

/-! ### The smallest box around points -/

theorem Bounds.touchedBy (bounds : b.Bounds points) : b.TouchedBy points where
  left := List.mem_map.mp bounds.left.1
  bottom := List.mem_map.mp bounds.bottom.1
  right := List.mem_map.mp bounds.right.1
  top := List.mem_map.mp bounds.top.1

theorem Bounds.normalized (bounds : b.Bounds points) : b.Normalized where
  horizontal := bounds.left.2 bounds.right.1
  vertical := bounds.bottom.2 bounds.top.1

/-- No box around the points is smaller. -/
theorem TouchedBy.within (touched : b.TouchedBy points)
    (around : ∀ p ∈ points, outer.Contains p) : b.Within outer := by
  obtain ⟨⟨left, isLeft, atLeft⟩, ⟨bottom, isBottom, atBottom⟩, ⟨right, isRight, atRight⟩,
    ⟨top, isTop, atTop⟩⟩ := touched
  intro p inside
  -- each side of the outer box is beyond the point that touches the same side of the inner one
  exact {
    left := (around left isLeft).left.trans (atLeft.trans_le inside.left)
    bottom := (around bottom isBottom).bottom.trans (atBottom.trans_le inside.bottom)
    right := (inside.right.trans_eq atRight.symm).trans (around right isRight).right
    top := (inside.top.trans_eq atTop.symm).trans (around top isTop).top }

/-! ### Images of boxes -/

theorem transform_within (around : ∀ q ∈ box.corners, outer.Contains (m.applyPoint q)) :
    (box.transform m).Within outer :=
  (bounds_transform box m).touchedBy.within (List.forall_mem_map.mpr around)

/-- A box inside another one has its image inside the image of that one. -/
theorem transform_mono (normalized : inner.Normalized) (within : inner.Within outer) :
    (inner.transform m).Within (outer.transform m) :=
  transform_within fun q corner =>
    (bounds_transform outer m).contains (within q (normalized.contains_corner corner))

/-- The image of a box contains the image of every point of it, has the image of a corner on each side,
is inside every other box around the images of the points, and has no negative size. Images of boxes
inside each other are inside each other. -/
theorem transform_tight (box : BBox K) (m : Matrix K) (normalized : box.Normalized) :
    let image := box.transform m
    (∀ p, box.Contains p → image.Contains (m.applyPoint p)) ∧
    image.TouchedBy (box.corners.map m.applyPoint) ∧
    (∀ other : BBox K, (∀ p, box.Contains p → other.Contains (m.applyPoint p)) →
      image.Within other) ∧
    (0 ≤ image.width ∧ 0 ≤ image.height) ∧
    ∀ inner : BBox K, inner.Normalized → inner.Within box → (inner.transform m).Within image := by
  intro image
  have bounds : image.Bounds (box.corners.map m.applyPoint) := bounds_transform box m
  have ordered := bounds.normalized
  refine ⟨fun p inside => bounds.contains inside, bounds.touchedBy, fun other around => ?_,
    ⟨sub_nonneg.mpr ordered.horizontal, sub_nonneg.mpr ordered.vertical⟩, ?_⟩
  · exact transform_within fun q corner => around q (normalized.contains_corner corner)
  · exact fun inner normalizedInner within => transform_mono normalizedInner within

/-- A box that is turned, flipped and slanted, and one inside it that is a single point wide. -/
theorem transform_tight_slanted :
    let box : BBox ℚ := .ofCorners 3 2 (-1) 0
    let inner : BBox ℚ := .ofCorners 1 2 1 (1 / 2)
    let m : Matrix ℚ := ⟨0, 2, 3, -1, 5, 7⟩
    let image := box.transform m
    (box.Normalized ∧ inner.Normalized ∧ inner.Within box) ∧ image = ⟨5, 3, 11, 13⟩ ∧
      (m.applyPoint ⟨1 / 3, 1⟩ = ⟨8, 20 / 3⟩ ∧ image.Contains (m.applyPoint ⟨1 / 3, 1⟩)) ∧
      image.TouchedBy (box.corners.map m.applyPoint) ∧
      (0 ≤ image.width ∧ 0 ≤ image.height) ∧
      (inner.transform m).Within image := by
  intro box inner m image
  have normalized : box.Normalized := normalized_ofCorners ..
  have normalizedInner : inner.Normalized := normalized_ofCorners ..
  have within : inner.Within box := by
    rintro p ⟨left, bottom, right, top⟩
    refine ⟨le_trans ?_ left, le_trans ?_ bottom, le_trans right ?_, le_trans top ?_⟩ <;>
      decide +kernel
  obtain ⟨contains, touched, -, size, mono⟩ := transform_tight box m normalized
  have point : box.Contains ⟨1 / 3, 1⟩ := by
    constructor <;> decide +kernel
  exact ⟨⟨normalized, normalizedInner, within⟩, by decide +kernel,
    ⟨by decide +kernel, contains _ point⟩, touched, size, mono inner normalizedInner within⟩

end BBox

end PdfContent
