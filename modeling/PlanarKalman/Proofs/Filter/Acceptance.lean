import Mathlib.Data.Real.Basic
import PlanarKalman.Proofs.Filter.Gain
import PlanarKalman.Proofs.Matrix.Magnitude
import PlanarKalman.Proofs.Matrix.Spectrum

/-!
# What is known of a covariance that was accepted

Three covariances of a filter can be supplied as a full matrix, and all three go through one
check. Over the real numbers, with the smallest eigenvalue taken for what it is said to be,
`full_covariance_checked` says what the check is worth: an accepted matrix is used as it stands,
it is symmetric up to the tolerance, and no combination of its components has a variance below
zero by more than a few tolerances. Nothing that is a covariance is refused.

The eigenvalue is that of the lower triangle alone. What stands above the diagonal may differ
from it by a tolerance, and costs `(N - 1) / 2` tolerances more.
-/

namespace PlanarKalman

open Matrix SmallestEigenvalue

/-! ## Supplying a full matrix -/

/-- The covariances of a filter that can be supplied as a full matrix. -/
inductive CovarianceSlot where
  | initialCovariance
  | measurementNoise
  | processNoise
deriving DecidableEq, Repr

namespace CovarianceSlot

/-- How many rows and columns a matrix has to have there. -/
def size : CovarianceSlot → ℕ
  | initialCovariance => 4
  | measurementNoise => 2
  | processNoise => 4

instance (slot : CovarianceSlot) : NeZero slot.size := ⟨by cases slot <;> decide⟩

/-- The name a fault is reported under. -/
def parameter : CovarianceSlot → CovarianceParameter
  | initialCovariance => .initialCovariance
  | measurementNoise => .measurementVariance
  | processNoise => .processNoise

end CovarianceSlot

section Supply

variable {α : Type} {rows columns : ℕ}

/-- The same parameters with a full matrix in one of the three places. -/
def FilterConfig.supply (c : FilterConfig α) (slot : CovarianceSlot) (m : Mat rows columns α) :
    FilterConfig α :=
  match slot with
  | .initialCovariance => { c with initialCovariance := .full rows columns m }
  | .measurementNoise => { c with measurementNoise := .full rows columns m }
  | .processNoise => { c with processNoise := .full rows columns m }

/-- The matrix that a new filter uses in that place. -/
def Filter.supplied (f : Filter α) : (slot : CovarianceSlot) → Mat slot.size slot.size α
  | .initialCovariance => f.covariance
  | .measurementNoise => f.model.measurementNoise
  | .processNoise => f.model.processNoise

variable [Scalar α] [SmallestEigenvalue α] {config : FilterConfig α} {slot : CovarianceSlot}
  {m : Mat rows columns α}

open FilterConfig

/-- A filter is created only if the matrix passes, and the matrix that passed is the one used. -/
theorem Filter.resolveFull_of_create_supply {f : Filter α}
    (hf : create (config.supply slot m) = .ok f) :
    resolveFull slot.parameter slot.size m = .ok (f.supplied slot) := by
  obtain ⟨covariances, hresolve, rfl⟩ := create_eq_ok_iff.mp hf
  obtain ⟨-, -, hP, hR, hQ⟩ := resolve_eq_ok_iff.mp hresolve
  cases slot with
  | initialCovariance => exact hP
  | measurementNoise => exact hR
  | processNoise => exact hQ

/-- With all else valid, a matrix that passes is enough. -/
theorem Filter.create_supply {f : Filter α} {A : Mat slot.size slot.size α}
    (hf : create config = .ok f) (hA : resolveFull slot.parameter slot.size m = .ok A) :
    ∃ g, create (config.supply slot m) = .ok g ∧ g.supplied slot = A := by
  obtain ⟨⟨P, R, Q⟩, hresolve, -⟩ := create_eq_ok_iff.mp hf
  obtain ⟨htime, hposition, hP, hR, hQ⟩ := resolve_eq_ok_iff.mp hresolve
  cases slot with
  | initialCovariance =>
      exact ⟨_, create_eq_ok_iff.mpr
        ⟨⟨A, R, Q⟩, resolve_eq_ok_iff.mpr ⟨htime, hposition, hA, hR, hQ⟩, rfl⟩, rfl⟩
  | measurementNoise =>
      exact ⟨_, create_eq_ok_iff.mpr
        ⟨⟨P, A, Q⟩, resolve_eq_ok_iff.mpr ⟨htime, hposition, hP, hA, hQ⟩, rfl⟩, rfl⟩
  | processNoise =>
      exact ⟨_, create_eq_ok_iff.mpr
        ⟨⟨P, R, A⟩, resolve_eq_ok_iff.mpr ⟨htime, hposition, hP, hR, hA⟩, rfl⟩, rfl⟩

end Supply

/-! ## The check -/

section Check

variable {K : Type} [Field K] [LinearOrder K] {n : ℕ}

theorem tolerance_eq (A : Mat n n K) :
    FilterConfig.tolerance A = 1e-9 * max 1 A.maxMagnitude := by
  rw [FilterConfig.tolerance, larger_eq_max, max_comm]

variable [IsStrictOrderedRing K]

theorem tolerance_pos (A : Mat n n K) : 0 < FilterConfig.tolerance A := by
  rw [tolerance_eq]
  exact mul_pos (by norm_num) (lt_max_of_lt_left one_pos)

variable [SmallestEigenvalue K]

/-- A covariance up to the tolerance `tol`. The diagonal is looked at without one. -/
structure IsAcceptable (tol : K) (A : Mat n n K) : Prop where
  asymmetry_le : ∀ i j, |A i j - A j i| ≤ tol
  diagonal_nonneg : ∀ i, 0 ≤ A i i
  neg_le_eigenvalue : -tol ≤ smallestEigenvalue A

theorem IsAcceptable.mono {tol tol' : K} {A : Mat n n K} (hA : IsAcceptable tol A)
    (h : tol ≤ tol') : IsAcceptable tol' A :=
  ⟨fun i j => (hA.asymmetry_le i j).trans h, hA.diagonal_nonneg,
    (neg_le_neg h).trans hA.neg_le_eigenvalue⟩

theorem isAcceptable_of_semidefinite [LawfulSmallestEigenvalue K] [NeZero n] {tol : K}
    {A : Mat n n K} (htol : 0 ≤ tol) (hA : Semidefinite A.toMatrix) : IsAcceptable tol A where
  asymmetry_le i j := by
    have hij : A j i = A i j := hA.isSymm.apply i j
    rw [hij, sub_self, abs_zero]
    exact htol
  diagonal_nonneg := hA.diagonal_nonneg
  neg_le_eigenvalue := (neg_nonpos.mpr htol).trans
    (smallestEigenvalue_nonneg (Mat.mirrored_of_isSymm hA.isSymm ▸ hA))

theorem checkCovariance_eq_ok_iff {parameter : CovarianceParameter} {A : Mat n n K} :
    FilterConfig.checkCovariance parameter A = .ok () ↔
      IsAcceptable (FilterConfig.tolerance A) A := by
  have hasymmetry : (A - A.transpose).maxMagnitude ≤ FilterConfig.tolerance A ↔
      ∀ i j, |A i j - A j i| ≤ FilterConfig.tolerance A := by
    simp only [Mat.maxMagnitude_le_iff (tolerance_pos A).le, Mat.sub_apply, Mat.transpose_apply]
  have hdiagonal : A.diagonal.find? (fun a => a < 0) = none ↔ ∀ i, 0 ≤ A i i := by
    simp [List.find?_eq_none, Mat.mem_diagonal_iff]
  unfold FilterConfig.checkCovariance
  split
  · rename_i hlt
    exact ⟨nofun, fun h => absurd (hasymmetry.mpr h.asymmetry_le) (not_le.mpr hlt)⟩
  · rename_i hle
    split
    · rename_i found hfound
      exact ⟨nofun, fun h => by simp [hdiagonal.mpr h.diagonal_nonneg] at hfound⟩
    · rename_i hnone
      dsimp only
      split
      · rename_i hlt
        exact ⟨nofun, fun h => absurd h.neg_le_eigenvalue (not_le.mpr hlt)⟩
      · rename_i heigenvalue
        exact iff_of_true rfl
          ⟨hasymmetry.mp (not_lt.mp hle), hdiagonal.mp hnone, not_lt.mp heigenvalue⟩

/-- Over exact numbers all entries are finite, so only the shape and the check are left. -/
theorem resolveFull_eq_ok_iff_isAcceptable {parameter : CovarianceParameter}
    {rows columns : ℕ} {m : Mat rows columns K} {A : Mat n n K} :
    FilterConfig.resolveFull parameter n m = .ok A ↔
      m.reshape? n n = some A ∧ IsAcceptable (FilterConfig.tolerance A) A := by
  rw [FilterConfig.resolveFull_eq_ok_iff, checkCovariance_eq_ok_iff]
  exact and_congr_right fun _ => and_iff_right A.isFinite_exact

end Check

/-- What an acceptable matrix still guarantees for every combination of the components. -/
theorem IsAcceptable.neg_le_dotProduct [SmallestEigenvalue ℝ] [LawfulSmallestEigenvalue ℝ]
    {n : ℕ} [NeZero n] {tol : ℝ} {A : Mat n n ℝ} (htol : 0 ≤ tol) (hA : IsAcceptable tol A)
    (w : Fin n → ℝ) :
    -(1 + ((n : ℝ) - 1) / 2) * tol * (w ⬝ᵥ w) ≤ w ⬝ᵥ A.toMatrix *ᵥ w := by
  have hmirrored := (semidefinite_sub_smallestEigenvalue A).nonneg w
  rw [sub_mulVec, dotProduct_sub, smul_mulVec, one_mulVec, dotProduct_smul, smul_eq_mul]
    at hmirrored
  have heigenvalue := mul_le_mul_of_nonneg_right hA.neg_le_eigenvalue (dotProduct_self_nonneg w)
  linarith only [hmirrored, heigenvalue, mirrored_sub_le htol hA.asymmetry_le w]

namespace Filter

/-- A full matrix that a filter is created with has the required shape and is used entry by
entry. It is symmetric up to the tolerance, nothing on its diagonal is negative, and no
combination `w` has a variance further below zero than the tolerance allows. Conversely every
covariance is accepted, whether or not some combination in it is certain. -/
theorem full_covariance_checked [SmallestEigenvalue ℝ] [LawfulSmallestEigenvalue ℝ]
    (config : FilterConfig ℝ) (slot : CovarianceSlot) :
    (∀ {rows columns : ℕ} (m : Mat rows columns ℝ) (f : Filter ℝ),
      create (config.supply slot m) = .ok f →
      ∃ (hrows : slot.size = rows) (hcolumns : slot.size = columns) (largest tol : ℝ),
        IsGreatest {a | ∃ i j, a = |m i j|} largest ∧ tol = 1e-9 * max 1 largest ∧
        (∀ i j, f.supplied slot i j = m (i.cast hrows) (j.cast hcolumns)) ∧
        (∀ i j, |f.supplied slot i j - f.supplied slot j i| ≤ tol) ∧
        (∀ i, 0 ≤ f.supplied slot i i) ∧
        ∀ w : Fin slot.size → ℝ,
          -(1 + ((slot.size : ℝ) - 1) / 2) * tol * (w ⬝ᵥ w)
            ≤ w ⬝ᵥ (f.supplied slot).toMatrix *ᵥ w) ∧
    (∀ f₀ : Filter ℝ, create config = .ok f₀ → ∀ A : Mat slot.size slot.size ℝ,
      Semidefinite A.toMatrix →
      ∃ f, create (config.supply slot A) = .ok f ∧ f.supplied slot = A) := by
  refine ⟨fun {rows columns} m f hf => ?_, fun f₀ hf₀ A hA => create_supply hf₀ ?_⟩
  · obtain ⟨hshape, hacceptable⟩ :=
      resolveFull_eq_ok_iff_isAcceptable.mp (resolveFull_of_create_supply hf)
    obtain ⟨rfl, rfl, hentries⟩ := Mat.reshape?_eq_some_iff.mp hshape
    have hm : f.supplied slot = m := Mat.ext hentries
    rw [hm] at hacceptable ⊢
    exact ⟨rfl, rfl, m.maxMagnitude, _, m.isGreatest_maxMagnitude, tolerance_eq m, fun _ _ => rfl,
      hacceptable.asymmetry_le, hacceptable.diagonal_nonneg,
      hacceptable.neg_le_dotProduct (tolerance_pos m).le⟩
  · rw [resolveFull_eq_ok_iff_isAcceptable]
    exact ⟨A.reshape?_self, isAcceptable_of_semidefinite (tolerance_pos A).le hA⟩

/-! ## Two coordinates that err together -/

/-- Every entry is one, so the difference of the coordinates is certain. -/
def sharedNoise : Mat 2 2 ℝ := Mat.ofFn fun _ _ => 1

theorem semidefinite_sharedNoise : Semidefinite sharedNoise.toMatrix := by
  have h := Semidefinite.mul_transpose (Matrix.of fun (_ : Fin 2) (_ : Fin 1) => (1 : ℝ))
  have hones : sharedNoise.toMatrix = (Matrix.of fun (_ : Fin 2) (_ : Fin 1) => (1 : ℝ)) *
      (Matrix.of fun (_ : Fin 2) (_ : Fin 1) => (1 : ℝ))ᵀ := by
    ext i j
    simp [sharedNoise, Matrix.mul_apply]
  rwa [hones]

theorem full_covariance_checked_of_shared :
    letI := SmallestEigenvalue.ofSpectrum
    ∃ f : Filter ℝ,
      create (FilterConfig.demonstration.supply .measurementNoise sharedNoise) = .ok f ∧
      f.model.measurementNoise = sharedNoise ∧
      ∃ largest, IsGreatest {a | ∃ i j, a = |sharedNoise i j|} largest ∧
        ∀ w : Fin 2 → ℝ, -(1 + (((2 : ℕ) : ℝ) - 1) / 2) * (1e-9 * max 1 largest) * (w ⬝ᵥ w)
          ≤ w ⬝ᵥ sharedNoise.toMatrix *ᵥ w := by
  let := SmallestEigenvalue.ofSpectrum
  have := lawful_ofSpectrum
  obtain ⟨hchecked, haccepted⟩ :=
    full_covariance_checked (.demonstration : FilterConfig ℝ) .measurementNoise
  obtain ⟨f, hf, hsupplied⟩ := haccepted _ create_demonstration sharedNoise semidefinite_sharedNoise
  obtain ⟨-, -, largest, tol, hlargest, rfl, -, -, -, hw⟩ := hchecked sharedNoise f hf
  rw [hsupplied] at hw
  exact ⟨f, hf, hsupplied, largest, hlargest, hw⟩

end Filter

end PlanarKalman
