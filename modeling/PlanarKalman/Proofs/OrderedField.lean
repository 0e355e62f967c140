import Mathlib.Algebra.Order.Field.Basic
import Mathlib.Algebra.Order.Field.Rat
import PlanarKalman.Scalar

/-!
# Exact arithmetic

The number systems without rounding are the ordered fields. Over them every
number is an ordinary one, so the tests for overflow always succeed and a
validated parameter is simply one that is not negative, or positive. The
mathematics of the filter is stated over an arbitrary ordered field; the
rational numbers are the instance that runs.

An operation of a field is found in two ways, as that of the field and as that of
a number system, and they are the same. Modules about fields import the library
first, so that the same way is found in all of them.
-/

namespace PlanarKalman

variable {K : Type} [Field K] [LinearOrder K]

instance : Scalar K where
  isFinite _ := true
  decidableLT := inferInstance
  decidableLE := inferInstance

@[simp] theorem isFinite_exact (a : K) : Scalar.isFinite a = true := rfl

@[simp] theorem isNonNegative_iff {a : K} : IsNonNegative a ↔ 0 ≤ a := by
  simp [IsNonNegative]

@[simp] theorem isPositive_iff {a : K} : IsPositive a ↔ 0 < a := by
  simp [IsPositive]

theorem larger_eq_max (a b : K) : larger a b = max a b := by
  rw [larger, max_def_lt]

theorem magnitude_eq_abs [IsStrictOrderedRing K] (a : K) : magnitude a = |a| := by
  unfold magnitude
  split
  · rename_i hneg
    rw [abs_of_neg hneg]
  · rename_i hneg
    rw [abs_of_nonneg (not_lt.mp hneg)]

end PlanarKalman
