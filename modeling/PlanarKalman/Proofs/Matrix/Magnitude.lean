import Mathlib.Algebra.Order.Field.Basic
import Mathlib.Data.Fintype.Lattice
import Mathlib.Data.Fintype.Prod
import Mathlib.Order.Bounds.Basic
import PlanarKalman.Proofs.Matrix.Entries
import PlanarKalman.Proofs.OrderedField

/-!
# The largest entry of a matrix

In exact arithmetic the largest magnitude is the least bound of all magnitudes
(`Mat.maxMagnitude_le_iff`), and it is that of an entry. Nothing else about the way it is found
is used later.
-/

namespace PlanarKalman

namespace Mat

variable {K : Type} [Field K] [LinearOrder K] [IsStrictOrderedRing K] {m n : ℕ}

theorem foldl_larger_le_iff {l : List K} {a b : K} :
    l.foldl (fun most x => larger most (magnitude x)) a ≤ b ↔ a ≤ b ∧ ∀ x ∈ l, |x| ≤ b := by
  induction l generalizing a with
  | nil => simp
  | cons x rest ih =>
      rw [List.foldl_cons, ih, larger_eq_max, magnitude_eq_abs, max_le_iff, List.forall_mem_cons,
        and_assoc]

theorem maxMagnitude_le_iff {A : Mat m n K} {b : K} (hb : 0 ≤ b) :
    A.maxMagnitude ≤ b ↔ ∀ i j, |A i j| ≤ b := by
  rw [← forall_mem_entries_iff (p := fun a => |a| ≤ b), maxMagnitude]
  split
  · rename_i hnone
    rw [hnone]
    exact iff_of_true hb (List.forall_mem_nil _)
  · rename_i a rest hsome
    rw [hsome, foldl_larger_le_iff, magnitude_eq_abs, List.forall_mem_cons]

theorem maxMagnitude_nonneg (A : Mat m n K) : 0 ≤ A.maxMagnitude := by
  unfold maxMagnitude
  split
  · exact le_rfl
  · rename_i a rest _
    calc 0 ≤ |a| := abs_nonneg a
      _ = magnitude a := (magnitude_eq_abs a).symm
      _ ≤ _ := (foldl_larger_le_iff.mp le_rfl).1

theorem abs_le_maxMagnitude (A : Mat m n K) (i : Fin m) (j : Fin n) :
    |A i j| ≤ A.maxMagnitude :=
  (maxMagnitude_le_iff A.maxMagnitude_nonneg).mp le_rfl i j

/-- The bound is attained, in a matrix that has entries at all. -/
theorem isGreatest_maxMagnitude [NeZero m] [NeZero n] (A : Mat m n K) :
    IsGreatest {a | ∃ i j, a = |A i j|} A.maxMagnitude := by
  obtain ⟨⟨i, j⟩, hmost⟩ := Finite.exists_max fun p : Fin m × Fin n => |A p.1 p.2|
  have hle : A.maxMagnitude ≤ |A i j| :=
    (maxMagnitude_le_iff (abs_nonneg _)).mpr fun k l => hmost (k, l)
  refine ⟨⟨i, j, hle.antisymm (abs_le_maxMagnitude A i j)⟩, ?_⟩
  rintro _ ⟨k, l, rfl⟩
  exact abs_le_maxMagnitude A k l

theorem maxMagnitude_scale (A : Mat m n K) {c : K} (hc : 0 < c) :
    (A.scale c).maxMagnitude = A.maxMagnitude * c := by
  have habs : ∀ i j, |A.scale c i j| = |A i j| * c := fun i j => by
    rw [scale_apply, abs_mul, abs_of_pos hc]
  apply le_antisymm
  · rw [maxMagnitude_le_iff (mul_nonneg A.maxMagnitude_nonneg hc.le)]
    intro i j
    rw [habs]
    exact mul_le_mul_of_nonneg_right (abs_le_maxMagnitude A i j) hc.le
  · rw [← le_div_iff₀ hc, maxMagnitude_le_iff (div_nonneg (maxMagnitude_nonneg _) hc.le)]
    intro i j
    rw [le_div_iff₀ hc, ← habs]
    exact abs_le_maxMagnitude _ i j

end Mat

end PlanarKalman
