import Mathlib.Algebra.Order.Ring.Int
import Mathlib.Order.Compare
import PdfContent.Scalar.Whole

/-!
# Exact arithmetic

The arithmetic in which geometric facts are stated: numbers form an ordered ring, nothing is rounded,
every number is finite, and the operations that pages are computed with besides those of the ring are
the ones that order gives. Whole numbers are such numbers.
-/

namespace PdfContent

/-- Numbers that are computed with exactly. -/
class ExactScalar (K : Type) extends Scalar K, CommRing K, LinearOrder K, IsStrictOrderedRing K where
  ofInt_eq (i : Int) : Scalar.ofInt i = (i : K)
  single_eq (x : K) : Scalar.single x = x
  isFinite_eq (x : K) : Scalar.isFinite x = true
  abs_eq (x : K) : Scalar.abs x = |x|
  least_eq (x y : K) : Scalar.least x y = min x y
  greatest_eq (x y : K) : Scalar.greatest x y = max x y
  totalCompare_eq (x y : K) : Scalar.totalCompare x y = compare x y

instance : ExactScalar Int :=
  { (inferInstance : Scalar Int), Int.instCommRing, Int.instLinearOrder,
    Int.instIsStrictOrderedRing with
    ofInt_eq := fun _ => rfl
    single_eq := fun _ => rfl
    isFinite_eq := fun _ => rfl
    abs_eq := fun x => x.natCast_natAbs
    least_eq := fun _ _ => rfl
    greatest_eq := fun _ _ => rfl
    totalCompare_eq := fun _ _ => rfl }

end PdfContent
