import Mathlib.Tactic.Ring
import PdfContent.Geometry
import PdfContent.Proofs.ExactArithmetic

/-!
# Points under maps

A matrix is a map of points that treats vectors without its shift, and matrices one after the other are
the maps one after the other. With these equations it is not written out what a product of matrices is.
-/

namespace PdfContent

variable {K : Type}

/-- The point, moved by a vector. -/
def Point.moved [Scalar K] (p v : Point K) : Point K := ⟨p.x + v.x, p.y + v.y⟩

variable [ExactScalar K]

theorem Point.moved_right_comm (p v w : Point K) : (p.moved v).moved w = (p.moved w).moved v := by
  simp only [moved, add_right_comm]

theorem Point.moved_eq_self_iff (p v : Point K) : p.moved v = p ↔ v = ⟨0, 0⟩ := by
  obtain ⟨x, y⟩ := p
  obtain ⟨vx, vy⟩ := v
  simp [moved]

namespace Matrix

theorem applyPoint_concat (m n : Matrix K) (p : Point K) :
    (m.concat n).applyPoint p = n.applyPoint (m.applyPoint p) := by
  simp only [applyPoint, concat, Point.mk.injEq]
  constructor <;> ring

theorem applyVector_concat (m n : Matrix K) (v : Point K) :
    (m.concat n).applyVector v = n.applyVector (m.applyVector v) := by
  simp only [applyVector, concat, Point.mk.injEq]
  constructor <;> ring

theorem applyPoint_moved (m : Matrix K) (p v : Point K) :
    m.applyPoint (p.moved v) = (m.applyPoint p).moved (m.applyVector v) := by
  simp only [applyPoint, applyVector, Point.moved, Point.mk.injEq]
  constructor <;> ring

theorem applyPoint_shift (tx ty : K) (p : Point K) :
    (shift tx ty).applyPoint p = p.moved ⟨tx, ty⟩ := by
  simp only [applyPoint, shift, Point.moved, Point.mk.injEq]
  constructor <;> ring

theorem applyVector_shift (tx ty : K) (v : Point K) : (shift tx ty).applyVector v = v := by
  obtain ⟨x, y⟩ := v
  simp only [applyVector, shift, Point.mk.injEq]
  constructor <;> ring

theorem applyPoint_scaling (sx sy : K) (p : Point K) :
    (scaling sx sy).applyPoint p = ⟨p.x * sx, p.y * sy⟩ := by
  simp only [applyPoint, scaling, Point.mk.injEq]
  constructor <;> ring

/-- The last two entries are where the origin goes. -/
theorem applyPoint_origin (m : Matrix K) : m.applyPoint ⟨0, 0⟩ = ⟨m.e, m.f⟩ := by
  simp only [applyPoint, Point.mk.injEq]
  constructor <;> ring

end Matrix

end PdfContent
