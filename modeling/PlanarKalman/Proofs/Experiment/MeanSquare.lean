import Mathlib.Algebra.Order.BigOperators.Group.List
import Mathlib.Analysis.Real.Sqrt
import Mathlib.Data.Finset.Max
import PlanarKalman.Proofs.Experiment.ErrorStats
import PlanarKalman.Proofs.SquareRoot

/-!
# Means of squared errors in exact arithmetic

Statistics that are kept up to date entry by entry say what the list of entries says, in any
number system and in the order of the entries. Without rounding the order is gone: a sum of
squares is a sum over a multiset, and the square of its root mean is an average, which lies
between the smallest and the largest of what it averages.
-/

namespace PlanarKalman.ErrorStats

section Exact

variable {K : Type} [Field K] [LinearOrder K]

theorem squareSum_eq_sum (errors : List K) :
    squareSum errors = (errors.map fun error => error * error).sum := by
  rw [squareSum, List.sum_eq_foldl, List.foldl_map]

theorem squareSum_perm {errors errors' : List K} (h : errors.Perm errors') :
    squareSum errors = squareSum errors' := by
  rw [squareSum_eq_sum, squareSum_eq_sum, (h.map _).sum_eq]

/-- The number lies between the smallest and the largest of the squares. -/
def IsBetweenSquares (errors : List K) (a : K) : Prop :=
  ∃ least ∈ errors, ∃ most ∈ errors,
    (∀ error ∈ errors, least * least ≤ error * error ∧ error * error ≤ most * most) ∧
    least * least ≤ a ∧ a ≤ most * most

variable [IsStrictOrderedRing K]

theorem squareSum_nonneg (errors : List K) : 0 ≤ squareSum errors := by
  rw [squareSum_eq_sum]
  exact List.sum_nonneg (List.forall_mem_map.mpr fun error _ => mul_self_nonneg error)

theorem isBetweenSquares_mean {errors : List K} (hne : errors ≠ []) :
    IsBetweenSquares errors (squareSum errors / errors.length) := by
  have hnonempty : errors.toFinset.Nonempty := (List.toFinset_nonempty_iff errors).mpr hne
  obtain ⟨least, hleast, hsmallest⟩ :=
    errors.toFinset.exists_min_image (fun error => error * error) hnonempty
  obtain ⟨most, hmost, hlargest⟩ :=
    errors.toFinset.exists_max_image (fun error => error * error) hnonempty
  simp only [List.mem_toFinset] at hleast hsmallest hmost hlargest
  have hcount : (0 : K) < errors.length := Nat.cast_pos.mpr (List.length_pos_iff.mpr hne)
  refine ⟨least, hleast, most, hmost, fun error h => ⟨hsmallest error h, hlargest error h⟩,
    ?_, ?_⟩
  · rw [le_div_iff₀ hcount, squareSum_eq_sum, mul_comm, ← nsmul_eq_mul]
    have hsum := List.card_nsmul_le_sum (errors.map fun error => error * error) (least * least)
      (List.forall_mem_map.mpr hsmallest)
    rwa [List.length_map] at hsum
  · rw [div_le_iff₀ hcount, squareSum_eq_sum, mul_comm, ← nsmul_eq_mul]
    have hsum := List.sum_le_card_nsmul (errors.map fun error => error * error) (most * most)
      (List.forall_mem_map.mpr hlargest)
    rwa [List.length_map] at hsum

variable [SquareRoot K]

omit [IsStrictOrderedRing K] in
theorem rootMeanSquare_perm {errors errors' : List K} (h : errors.Perm errors') :
    rootMeanSquare errors = rootMeanSquare errors' := by
  have hnil : errors = [] ↔ errors' = [] := by
    rw [← List.length_eq_zero_iff, h.length_eq, List.length_eq_zero_iff]
  simp only [rootMeanSquare, hnil, squareSum_perm h, h.length_eq]

/-- The root of a mean square, when there is one, squares to the mean. -/
theorem isBetweenSquares_of_rootMeanSquare [LawfulSquareRoot K] {errors : List K} {root : K}
    (h : rootMeanSquare errors = some root) : IsBetweenSquares errors (root * root) := by
  rw [rootMeanSquare] at h
  split at h
  · cases h
  · rename_i hne
    obtain rfl := Option.some.inj h
    have hmean : 0 ≤ squareSum errors / (errors.length : K) :=
      div_nonneg (squareSum_nonneg errors) (Nat.cast_nonneg _)
    rw [LawfulSquareRoot.mul_self_sqrt hmean]
    exact isBetweenSquares_mean hne

end Exact

/-- The statistics of entries, however they are mixed, are those of the list of entries:
their errors in order, the latest of them, and the root mean squares, each `none` without
entries and otherwise the root of the sum of squares from the left over their number. In exact
arithmetic a root mean square lies between the smallest and the largest error by its square,
and entries in another order give the same. -/
theorem statistics_of_entries :
    (∀ {α : Type} [Scalar α] [SquareRoot α] (entries : List (Entry α)),
      (empty.enterAll entries).IsSummaryOf entries) ∧
    ∀ {K : Type} [Field K] [LinearOrder K] [IsStrictOrderedRing K] [SquareRoot K]
      [LawfulSquareRoot K] (entries : List (Entry K)),
      (∀ root, (empty.enterAll entries).estimateRmse = some root →
        IsBetweenSquares (entries.map Entry.estimateError) (root * root)) ∧
      (∀ root, (empty.enterAll entries).readingRmse = some root →
        IsBetweenSquares (entries.map Entry.readingError) (root * root)) ∧
      ∀ entries' : List (Entry K), entries.Perm entries' →
        (empty.enterAll entries).estimateRmse = (empty.enterAll entries').estimateRmse ∧
        (empty.enterAll entries).readingRmse = (empty.enterAll entries').readingRmse := by
  refine ⟨isSummaryOf_enterAll, fun entries => ?_⟩
  have hsummary := isSummaryOf_enterAll entries
  refine ⟨fun root hroot => ?_, fun root hroot => ?_, fun entries' hperm => ?_⟩
  · exact isBetweenSquares_of_rootMeanSquare (hsummary.estimateRmse_eq.symm.trans hroot)
  · exact isBetweenSquares_of_rootMeanSquare (hsummary.readingRmse_eq.symm.trans hroot)
  · have hsummary' := isSummaryOf_enterAll entries'
    rw [hsummary.estimateRmse_eq, hsummary'.estimateRmse_eq, hsummary.readingRmse_eq,
      hsummary'.readingRmse_eq]
    exact ⟨rootMeanSquare_perm (hperm.map _), rootMeanSquare_perm (hperm.map _)⟩

/-- The target is in the origin, the reading and the estimate are at a distance of five. After
that two errors are entered as numbers. -/
noncomputable def mixedEntries : List (Entry ℝ) :=
  [.positions ⟨0, 0⟩ ⟨0, 5.0⟩ ⟨3.0, 4.0⟩, .errors 1 2.0]

theorem estimateErrors_mixedEntries : mixedEntries.map Entry.estimateError = [5, 1] := by
  have hdistance : (⟨0, 0⟩ : Point ℝ).distance ⟨3.0, 4.0⟩ = 5 :=
    (Point.distance_eq_iff (by norm_num)).mpr (by norm_num)
  simp [mixedEntries, Entry.estimateError, hdistance]

theorem statistics_of_entries_of_mixed :
    (empty.enterAll mixedEntries).estimateErrors.toList = [5, 1] ∧
      ∃ root, (empty.enterAll mixedEntries).estimateRmse = some root ∧
        1 ≤ root * root ∧ root * root ≤ 25 ∧
        (empty.enterAll mixedEntries.reverse).estimateRmse = some root := by
  obtain ⟨hsummary, hexact⟩ := statistics_of_entries
  obtain ⟨hbetween, -, horder⟩ := hexact mixedEntries
  obtain ⟨root, hroot⟩ : ∃ root, (empty.enterAll mixedEntries).estimateRmse = some root := by
    rw [(hsummary mixedEntries).estimateRmse_eq, estimateErrors_mixedEntries]
    exact ⟨_, rfl⟩
  obtain ⟨least, hleast, most, hmost, -, hlow, hhigh⟩ := hbetween root hroot
  rw [estimateErrors_mixedEntries] at hleast hmost
  refine ⟨?_, root, hroot, le_trans ?_ hlow, le_trans hhigh ?_, ?_⟩
  · rw [(hsummary mixedEntries).estimateErrors_eq, estimateErrors_mixedEntries]
  · rcases List.mem_pair.mp hleast with rfl | rfl <;> norm_num
  · rcases List.mem_pair.mp hmost with rfl | rfl <;> norm_num
  · rw [← (horder _ mixedEntries.reverse_perm.symm).1, hroot]

end PlanarKalman.ErrorStats
