import Mathlib.Algebra.Order.Ring.Rat
import Mathlib.Order.Bounds.Basic
import PdfContent.Proofs.ExactArithmetic
import PdfContent.Scalar.Rational

/-!
# Exact division

Numbers that are divided exactly as well, and whose least and greatest ones of a list are those of the
order. Rational numbers are such numbers.
-/

namespace PdfContent

/-- Numbers that are computed with exactly, quotients by other numbers than zero included. -/
class ExactDivision (K : Type) extends ExactScalar K where
  div_mul_cancel (x y : K) : y ≠ 0 → x / y * y = x
  lowest_eq (x : K) (xs : List K) : (x :: xs).min? = some (Scalar.lowest (x :: xs))
  highest_eq (x : K) (xs : List K) : (x :: xs).max? = some (Scalar.highest (x :: xs))

section

variable {K : Type} [ExactDivision K]

theorem isLeast_lowest (x : K) (xs : List K) :
    IsLeast {y | y ∈ x :: xs} (Scalar.lowest (x :: xs)) := by
  obtain ⟨mem, least⟩ := List.min?_eq_some_iff.mp (ExactDivision.lowest_eq x xs)
  exact ⟨mem, least⟩

theorem isGreatest_highest (x : K) (xs : List K) :
    IsGreatest {y | y ∈ x :: xs} (Scalar.highest (x :: xs)) := by
  obtain ⟨mem, greatest⟩ := List.max?_eq_some_iff.mp (ExactDivision.highest_eq x xs)
  exact ⟨mem, greatest⟩

theorem div_pos_of_pos {x y : K} (hx : 0 < x) (hy : 0 < y) : 0 < x / y := by
  refine lt_of_mul_lt_mul_right ?_ hy.le
  rwa [zero_mul, ExactDivision.div_mul_cancel x y hy.ne']

end

instance : ExactScalar ℚ :=
  { (inferInstance : Scalar ℚ), Rat.commRing, Rat.linearOrder, Rat.instIsStrictOrderedRing with
    ofInt_eq := fun _ => rfl
    single_eq := fun _ => rfl
    isFinite_eq := fun _ => rfl
    abs_eq := fun _ => rfl
    least_eq := fun _ _ => rfl
    greatest_eq := fun _ _ => rfl
    totalCompare_eq := fun x y => (LinearOrder.compare_eq_compareOfLessAndEq x y).symm }

theorem Rational.least_eq_min : Rational.least = min := rfl

theorem Rational.greatest_eq_max : Rational.greatest = max := rfl

instance : ExactDivision ℚ where
  div_mul_cancel _ _ := div_mul_cancel₀ _
  lowest_eq x xs := by
    simp only [Scalar.lowest, Rational.least_eq_min, List.min?_cons', List.headD_cons, List.foldl_cons,
      min_self]
  highest_eq x xs := by
    simp only [Scalar.highest, Rational.greatest_eq_max, List.max?_cons', List.headD_cons,
      List.foldl_cons, max_self]

end PdfContent
