import Mathlib.Data.Real.Basic
import PlanarKalman.Proofs.Filter.Acceptance

/-!
# Units and the tolerance

The tolerance is a share of the largest entry, but of one when no entry is as large as that. So
it depends on the unit in which a covariance is written down. In a unit that makes some entry one
or more it is relative. In a larger unit all entries are small numbers and the tolerance stays
where it is, until it is larger than every asymmetry and every negative variance there may be;
then only the diagonal is checked (`acceptance_across_units`).
-/

namespace PlanarKalman

open Matrix SmallestEigenvalue

variable {K : Type} [Field K] [LinearOrder K] [IsStrictOrderedRing K] [SmallestEigenvalue K]
  [LawfulSmallestEigenvalue K]

omit [IsStrictOrderedRing K] [SmallestEigenvalue K] [LawfulSmallestEigenvalue K] in
theorem Mat.scale_one {m n : ℕ} (A : Mat m n K) : A.scale 1 = A := by
  ext i j
  rw [scale_apply, mul_one]

section Scale

variable {n : ℕ} [NeZero n] {A : Mat n n K} {tol c : K}

/-- All that is compared with the tolerance is multiplied along with the entries. -/
theorem isAcceptable_scale_iff (hc : 0 < c) :
    IsAcceptable (tol * c) (A.scale c) ↔ IsAcceptable tol A := by
  have hasymmetry : ∀ i j,
      |A.scale c i j - A.scale c j i| ≤ tol * c ↔ |A i j - A j i| ≤ tol := fun i j => by
    rw [Mat.scale_apply, Mat.scale_apply, ← sub_mul, abs_mul, abs_of_pos hc,
      mul_le_mul_iff_left₀ hc]
  have hdiagonal : ∀ i, 0 ≤ A.scale c i i ↔ 0 ≤ A i i := fun i => by
    rw [Mat.scale_apply, mul_nonneg_iff_left_nonneg_of_pos hc]
  have heigenvalue : -(tol * c) ≤ smallestEigenvalue (A.scale c) ↔ -tol ≤ smallestEigenvalue A := by
    rw [smallestEigenvalue_scale A hc, ← neg_mul, mul_le_mul_iff_left₀ hc]
  constructor
  · rintro ⟨h, hnonneg, hleast⟩
    exact ⟨fun i j => (hasymmetry i j).mp (h i j), fun i => (hdiagonal i).mp (hnonneg i),
      heigenvalue.mp hleast⟩
  · rintro ⟨h, hnonneg, hleast⟩
    exact ⟨fun i j => (hasymmetry i j).mpr (h i j), fun i => (hdiagonal i).mpr (hnonneg i),
      heigenvalue.mpr hleast⟩

/-- A multiple passes the check when the matrix itself passes it with the tolerance divided by
the factor. -/
theorem isAcceptable_tolerance_scale_iff (hc : 0 < c) :
    IsAcceptable (FilterConfig.tolerance (A.scale c)) (A.scale c) ↔
      IsAcceptable (1e-9 * max c⁻¹ A.maxMagnitude) A := by
  have htolerance : FilterConfig.tolerance (A.scale c) = 1e-9 * max c⁻¹ A.maxMagnitude * c := by
    rw [tolerance_eq, Mat.maxMagnitude_scale A hc, mul_assoc, max_mul_of_nonneg _ _ hc.le,
      inv_mul_cancel₀ hc.ne']
  rw [htolerance, isAcceptable_scale_iff hc]

omit [LawfulSmallestEigenvalue K] [NeZero n] in
/-- Every matrix is acceptable with some tolerance, if its diagonal is not negative. -/
theorem exists_isAcceptable_iff : (∃ tol, IsAcceptable tol A) ↔ ∀ i, 0 ≤ A i i := by
  constructor
  · rintro ⟨tol, hA⟩
    exact hA.diagonal_nonneg
  · intro hdiagonal
    refine ⟨max (A.maxMagnitude + A.maxMagnitude) (-smallestEigenvalue A), fun i j => ?_, hdiagonal,
      neg_le.mp (le_max_right _ _)⟩
    calc |A i j - A j i| ≤ |A i j| + |A j i| := abs_sub _ _
      _ ≤ A.maxMagnitude + A.maxMagnitude :=
          add_le_add (A.abs_le_maxMagnitude i j) (A.abs_le_maxMagnitude j i)
      _ ≤ _ := le_max_left _ _

theorem isAcceptable_zero_of_maxMagnitude_eq_zero (hA : A.maxMagnitude = 0) :
    IsAcceptable 0 A := by
  have hzero : A.toMatrix = 0 := by
    ext i j
    exact abs_nonpos_iff.mp (hA ▸ A.abs_le_maxMagnitude i j)
  refine isAcceptable_of_semidefinite le_rfl ?_
  rw [hzero, ← sub_self 0]
  exact Semidefinite.sub_self 0

end Scale

namespace Filter

variable {config : FilterConfig K} {slot : CovarianceSlot} {rows columns : ℕ}

/-- A filter is created with this matrix in that place. -/
def Accepts (config : FilterConfig K) (slot : CovarianceSlot) (m : Mat rows columns K) : Prop :=
  ∃ f, create (config.supply slot m) = .ok f

/-- The matrix has the required shape and passes the check with the tolerance `tol`. -/
def Withstands (slot : CovarianceSlot) (m : Mat rows columns K) (tol : K) : Prop :=
  ∃ A, m.reshape? slot.size slot.size = some A ∧ IsAcceptable tol A

variable {f : Filter K} {m : Mat rows columns K} {c : K}

theorem accepts_scale_iff (hf : create config = .ok f) (hc : 0 < c) :
    Accepts config slot (m.scale c) ↔ Withstands slot m (1e-9 * max c⁻¹ m.maxMagnitude) := by
  constructor
  · rintro ⟨g, hg⟩
    obtain ⟨hshape, hacceptable⟩ :=
      resolveFull_eq_ok_iff_isAcceptable.mp (resolveFull_of_create_supply hg)
    obtain ⟨rfl, rfl, hentries⟩ := Mat.reshape?_eq_some_iff.mp hshape
    rw [show g.supplied slot = m.scale c from Mat.ext hentries,
      isAcceptable_tolerance_scale_iff hc] at hacceptable
    exact ⟨m, m.reshape?_self, hacceptable⟩
  · rintro ⟨A, hshape, hacceptable⟩
    obtain ⟨rfl, rfl, hentries⟩ := Mat.reshape?_eq_some_iff.mp hshape
    rw [show A = m from Mat.ext hentries, ← isAcceptable_tolerance_scale_iff hc] at hacceptable
    obtain ⟨g, hg, -⟩ := create_supply hf (resolveFull_eq_ok_iff_isAcceptable.mpr
      ⟨(m.scale c).reshape?_self, hacceptable⟩)
    exact ⟨g, hg⟩

theorem accepts_iff (hf : create config = .ok f) :
    Accepts config slot m ↔ Withstands slot m (1e-9 * max 1 m.maxMagnitude) := by
  have h : Accepts config slot (m.scale 1) ↔ Withstands slot m (1e-9 * max 1⁻¹ m.maxMagnitude) :=
    accepts_scale_iff hf one_pos
  rwa [Mat.scale_one, inv_one] at h

/-- In a small enough unit the largest entry alone sets the tolerance. -/
theorem forall_accepts_scale_iff (hf : create config = .ok f) :
    (∀ c, 0 < c → Accepts config slot (m.scale c)) ↔
      Withstands slot m (1e-9 * m.maxMagnitude) := by
  constructor
  · intro h
    obtain hzero | hpos := m.maxMagnitude_nonneg.eq_or_lt'
    · obtain ⟨A, hshape, -⟩ := (accepts_scale_iff hf one_pos).mp (h 1 one_pos)
      obtain ⟨rfl, rfl, -⟩ := Mat.reshape?_eq_some_iff.mp hshape
      rw [hzero, mul_zero]
      exact ⟨m, m.reshape?_self, isAcceptable_zero_of_maxMagnitude_eq_zero hzero⟩
    · have hunit := (accepts_scale_iff hf (inv_pos.mpr hpos)).mp (h _ (inv_pos.mpr hpos))
      rwa [inv_inv, max_self] at hunit
  · rintro ⟨A, hshape, hA⟩ c hc
    exact (accepts_scale_iff hf hc).mpr
      ⟨A, hshape, hA.mono (mul_le_mul_of_nonneg_left (le_max_right _ _) (by norm_num))⟩

/-- In a large enough unit the tolerance is as large as one likes. -/
theorem exists_accepts_scale_iff (hf : create config = .ok f) :
    (∃ c, 0 < c ∧ Accepts config slot (m.scale c)) ↔
      ∃ A, m.reshape? slot.size slot.size = some A ∧ ∀ i, 0 ≤ A i i := by
  constructor
  · rintro ⟨c, hc, h⟩
    obtain ⟨A, hshape, hA⟩ := (accepts_scale_iff hf hc).mp h
    exact ⟨A, hshape, hA.diagonal_nonneg⟩
  · rintro ⟨A, hshape, hdiagonal⟩
    obtain ⟨tol, hA⟩ := exists_isAcceptable_iff.mpr hdiagonal
    have hpos : 0 < 1e9 * max 1 tol := mul_pos (by norm_num) (lt_max_of_lt_left one_pos)
    refine ⟨(1e9 * max 1 tol)⁻¹, inv_pos.mpr hpos, (accepts_scale_iff hf (inv_pos.mpr hpos)).mpr
      ⟨A, hshape, hA.mono ?_⟩⟩
    rw [inv_inv]
    calc tol ≤ max 1 tol := le_max_right _ _
      _ = 1e-9 * (1e9 * max 1 tol) := by rw [← mul_assoc]; norm_num
      _ ≤ 1e-9 * max (1e9 * max 1 tol) m.maxMagnitude := by
          gcongr
          exact le_max_left _ _

/-- What the unit in which a matrix is written does to its acceptance. The matrix multiplied by
`c` is accepted when the matrix itself passes with a tolerance that is a share of `c⁻¹` or of its
largest entry, whichever is more. So two multiples are treated alike when both have an entry of
one or more; a matrix is accepted in every unit when it passes with the share of its largest
entry; and it is accepted in some unit whenever its shape is right and its diagonal is not
negative, however asymmetric or indefinite it is. -/
theorem acceptance_across_units (hf : create config = .ok f) (slot : CovarianceSlot)
    (m : Mat rows columns K) :
    (∀ c, 0 < c → (Accepts config slot (m.scale c) ↔
      Withstands slot m (1e-9 * max c⁻¹ m.maxMagnitude))) ∧
    (∀ c, 0 < c → 1 ≤ m.maxMagnitude → 1 ≤ (m.scale c).maxMagnitude →
      (Accepts config slot m ↔ Accepts config slot (m.scale c))) ∧
    ((∀ c, 0 < c → Accepts config slot (m.scale c)) ↔
      Withstands slot m (1e-9 * m.maxMagnitude)) ∧
    ((∃ c, 0 < c ∧ Accepts config slot (m.scale c)) ↔
      ∃ A, m.reshape? slot.size slot.size = some A ∧ ∀ i, 0 ≤ A i i) := by
  refine ⟨fun c hc => accepts_scale_iff hf hc, fun c hc hm hscaled => ?_,
    forall_accepts_scale_iff hf, exists_accepts_scale_iff hf⟩
  rw [Mat.maxMagnitude_scale m hc, ← inv_le_iff_one_le_mul₀ hc] at hscaled
  rw [accepts_iff hf, accepts_scale_iff hf hc, max_eq_right hm, max_eq_right hscaled]

/-! ## An asymmetric matrix in two units

The unit of the second is a million times that of the first, so its square is `1e12` times as
large. -/

/-- The errors of the two coordinates go together in one order and not in the other. -/
noncomputable def lopsidedNoise : Mat 2 2 ℝ :=
  Mat.ofFn fun i j => if i = j then 2.0 else if i < j then 0.5 else 0

theorem lopsidedNoise_apply (i j : Fin 2) :
    lopsidedNoise i j = if i = j then 2 else if i < j then 1 / 2 else 0 := by
  rw [lopsidedNoise, Mat.ofFn_apply]
  norm_num

theorem maxMagnitude_lopsidedNoise_le : lopsidedNoise.maxMagnitude ≤ 2 := by
  rw [Mat.maxMagnitude_le_iff two_pos.le]
  intro i j
  rw [lopsidedNoise_apply]
  split_ifs <;> norm_num

theorem half_le_of_isAcceptable_lopsidedNoise [SmallestEigenvalue ℝ] {tol : ℝ}
    (h : IsAcceptable tol lopsidedNoise) : 1 / 2 ≤ tol := by
  have hcorner := h.asymmetry_le 0 1
  rw [lopsidedNoise_apply, lopsidedNoise_apply] at hcorner
  norm_num at hcorner
  exact hcorner

theorem isAcceptable_lopsidedNoise [SmallestEigenvalue ℝ] [LawfulSmallestEigenvalue ℝ] :
    IsAcceptable (1 / 2) lopsidedNoise := by
  have hmirrored : lopsidedNoise.mirrored = (2 : ℝ) • (1 : Matrix (Fin 2) (Fin 2) ℝ) := by
    ext i j
    rw [Mat.mirrored_apply, lopsidedNoise_apply]
    fin_cases i <;> fin_cases j <;> simp
  refine ⟨fun i j => ?_, fun i => ?_, ?_⟩
  · rw [lopsidedNoise_apply, lopsidedNoise_apply]
    fin_cases i <;> fin_cases j <;> norm_num
  · rw [lopsidedNoise_apply, if_pos rfl]
    exact two_pos.le
  · have hnonneg : 0 ≤ smallestEigenvalue lopsidedNoise := by
      refine smallestEigenvalue_nonneg ?_
      rw [hmirrored]
      exact Semidefinite.one.smul two_pos.le
    linarith

theorem acceptance_across_units_of_lopsided :
    letI := SmallestEigenvalue.ofSpectrum
    ¬ Accepts (.demonstration : FilterConfig ℝ) .measurementNoise lopsidedNoise ∧
      Accepts (.demonstration : FilterConfig ℝ) .measurementNoise (lopsidedNoise.scale 1e-12) := by
  let := SmallestEigenvalue.ofSpectrum
  have := lawful_ofSpectrum
  obtain ⟨hscale, -⟩ := acceptance_across_units (K := ℝ) create_demonstration .measurementNoise
    lopsidedNoise
  constructor
  · intro h
    obtain ⟨A, hshape, hA⟩ := (accepts_iff create_demonstration).mp h
    obtain ⟨_, _, hentries⟩ := Mat.reshape?_eq_some_iff.mp hshape
    rw [show A = lopsidedNoise from Mat.ext hentries] at hA
    have hlargest : max 1 lopsidedNoise.maxMagnitude ≤ 2 :=
      max_le one_le_two maxMagnitude_lopsidedNoise_le
    linarith [half_le_of_isAcceptable_lopsidedNoise hA]
  · refine (hscale 1e-12 (by norm_num)).mpr ⟨lopsidedNoise, lopsidedNoise.reshape?_self, ?_⟩
    refine isAcceptable_lopsidedNoise.mono ?_
    calc (1 / 2 : ℝ) ≤ 1e-9 * (1e-12)⁻¹ := by norm_num
      _ ≤ _ := mul_le_mul_of_nonneg_left (le_max_left _ _) (by norm_num)

end Filter

end PlanarKalman
