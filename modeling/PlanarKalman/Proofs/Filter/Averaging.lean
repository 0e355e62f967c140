import PlanarKalman.Proofs.Filter.Textbook

/-!
# Several readings at one time

A permissive filter takes readings in one after the other without a prediction between them.
Each of them meets another covariance and so another gain, and yet their order does not
matter: together they are worth one reading, their mean, from a sensor whose noise is divided
by their number.

What is carried along is the belief after `n` readings in terms of the belief before the
first (`HasTaken`). The number stands in the matrix `n H P Hᵀ + R` there (`pooled`), which
makes sense for no readings as well; the noise `R / n` of a mean does not. One more reading
adds `H P Hᵀ` to that matrix, and all that is needed of the inverses before and after is
their difference.
-/

namespace PlanarKalman

open Matrix

/-! ## One more reading in linear algebra -/

section Pooled

variable {ι κ K : Type} [Fintype ι] [Fintype κ] [DecidableEq κ] [Field K]

/-- How `n` readings vary together, `n` times as much as their mean. -/
def pooled (P : Matrix ι ι K) (R : Matrix κ κ K) (H : Matrix κ ι K) (n : ℕ) : Matrix κ κ K :=
  (n : K) • (H * P * Hᵀ) + R

/-- The covariance that `n` readings leave. -/
noncomputable def pooledCovariance (P : Matrix ι ι K) (R : Matrix κ κ K) (H : Matrix κ ι K)
    (n : ℕ) : Matrix ι ι K :=
  P - (n : K) • (P * Hᵀ * (pooled P R H n)⁻¹ * (H * P))

/-- The mean that `n` readings lead to, which add up to `total`. -/
noncomputable def pooledMean (P : Matrix ι ι K) (R : Matrix κ κ K) (H : Matrix κ ι K)
    (x : Matrix ι (Fin 1) K) (n : ℕ) (total : Matrix κ (Fin 1) K) : Matrix ι (Fin 1) K :=
  x + P * Hᵀ * (pooled P R H n)⁻¹ * (total - (n : K) • (H * x))

variable {P : Matrix ι ι K} {R : Matrix κ κ K} {H : Matrix κ ι K} {x : Matrix ι (Fin 1) K}
  {n : ℕ} {total z : Matrix κ (Fin 1) K}

omit [Fintype κ] [DecidableEq κ] in
theorem pooled_succ : pooled P R H (n + 1) = pooled P R H n + H * P * Hᵀ := by
  rw [pooled, pooled, Nat.cast_succ, add_smul, one_smul, add_right_comm]

/-- What the inverses before and after one more reading differ by. -/
theorem pooled_inv_sub (hn : IsUnit (pooled P R H n).det)
    (hsucc : IsUnit (pooled P R H (n + 1)).det) :
    (pooled P R H n)⁻¹ - (pooled P R H (n + 1))⁻¹
      = (pooled P R H (n + 1))⁻¹ * (H * P * Hᵀ) * (pooled P R H n)⁻¹ := by
  have hunits : IsUnit (pooled P R H (n + 1)) ↔ IsUnit (pooled P R H n) := by
    simp only [isUnit_iff_isUnit_det, hn, hsucc]
  have hdifference := inv_sub_inv hunits
  rw [pooled_succ, sub_add_cancel_left, ← pooled_succ, Matrix.mul_neg,
    Matrix.neg_mul] at hdifference
  rw [← neg_sub, hdifference, neg_neg]

theorem one_sub_pooled_inv_mul (hn : IsUnit (pooled P R H n).det) :
    1 - (n : K) • ((pooled P R H n)⁻¹ * (H * P * Hᵀ)) = (pooled P R H n)⁻¹ * R := by
  have hnoise : pooled P R H n - (n : K) • (H * P * Hᵀ) = R := by
    rw [pooled, add_sub_cancel_left]
  rw [← nonsing_inv_mul _ hn, ← Matrix.mul_smul, ← Matrix.mul_sub, hnoise]

theorem one_sub_mul_pooled_inv (hn : IsUnit (pooled P R H n).det) :
    1 - (n : K) • (H * P * Hᵀ * (pooled P R H n)⁻¹) = R * (pooled P R H n)⁻¹ := by
  have hnoise : pooled P R H n - (n : K) • (H * P * Hᵀ) = R := by
    rw [pooled, add_sub_cancel_left]
  rw [← mul_nonsing_inv _ hn, ← Matrix.smul_mul, ← Matrix.sub_mul, hnoise]

theorem pooledCovariance_mul_transpose (hn : IsUnit (pooled P R H n).det) :
    pooledCovariance P R H n * Hᵀ = P * Hᵀ * ((pooled P R H n)⁻¹ * R) := by
  rw [← one_sub_pooled_inv_mul hn, pooledCovariance, Matrix.sub_mul, Matrix.mul_sub,
    Matrix.mul_one, Matrix.smul_mul, Matrix.mul_smul]
  simp only [Matrix.mul_assoc]

theorem mul_pooledCovariance (hn : IsUnit (pooled P R H n).det) :
    H * pooledCovariance P R H n = R * (pooled P R H n)⁻¹ * (H * P) := by
  rw [← one_sub_mul_pooled_inv hn, pooledCovariance, Matrix.mul_sub, Matrix.sub_mul,
    Matrix.one_mul, Matrix.smul_mul, Matrix.mul_smul]
  simp only [Matrix.mul_assoc]

/-- How the next reading is expected to vary. -/
theorem innovation_pooledCovariance (hn : IsUnit (pooled P R H n).det) :
    H * pooledCovariance P R H n * Hᵀ + R
      = pooled P R H (n + 1) * ((pooled P R H n)⁻¹ * R) := by
  rw [Matrix.mul_assoc, pooledCovariance_mul_transpose hn, pooled_succ, Matrix.add_mul,
    mul_nonsing_inv_cancel_left _ _ hn, add_comm]
  simp only [Matrix.mul_assoc]

/-- The gain for the next reading. -/
theorem gain_pooledCovariance {G : Matrix ι κ K} (hn : IsUnit (pooled P R H n).det)
    (hsucc : IsUnit (pooled P R H (n + 1)).det) (hR : IsUnit R.det)
    (hG : G * (H * pooledCovariance P R H n * Hᵀ + R) = pooledCovariance P R H n * Hᵀ) :
    G = P * Hᵀ * (pooled P R H (n + 1))⁻¹ := by
  have hrest : IsUnit ((pooled P R H n)⁻¹ * R).det := by
    rw [det_mul]
    exact (isUnit_nonsing_inv_det _ hn).mul hR
  rw [innovation_pooledCovariance hn, pooledCovariance_mul_transpose hn, ← Matrix.mul_assoc] at hG
  have hcancelled := congrArg (· * ((pooled P R H n)⁻¹ * R)⁻¹) hG
  simp only [mul_nonsing_inv_cancel_right _ _ hrest] at hcancelled
  rw [← hcancelled, mul_nonsing_inv_cancel_right _ _ hsucc]

theorem pooledCovariance_succ (hn : IsUnit (pooled P R H n).det)
    (hsucc : IsUnit (pooled P R H (n + 1)).det) :
    pooledCovariance P R H n
        - P * Hᵀ * (pooled P R H (n + 1))⁻¹ * (H * pooledCovariance P R H n)
      = pooledCovariance P R H (n + 1) := by
  have hinverse : (n : K) • (pooled P R H n)⁻¹
        + (pooled P R H (n + 1))⁻¹ * (R * (pooled P R H n)⁻¹)
      = ((n + 1 : ℕ) : K) • (pooled P R H (n + 1))⁻¹ := by
    rw [← one_sub_mul_pooled_inv hn, Matrix.mul_sub, Matrix.mul_one, Matrix.mul_smul,
      ← Matrix.mul_assoc, ← pooled_inv_sub hn hsucc, Nat.cast_succ, add_smul, one_smul, smul_sub]
    abel
  rw [mul_pooledCovariance hn, pooledCovariance, pooledCovariance, sub_sub]
  congr 1
  calc (n : K) • (P * Hᵀ * (pooled P R H n)⁻¹ * (H * P))
        + P * Hᵀ * (pooled P R H (n + 1))⁻¹ * (R * (pooled P R H n)⁻¹ * (H * P))
      = P * Hᵀ * ((n : K) • (pooled P R H n)⁻¹
          + (pooled P R H (n + 1))⁻¹ * (R * (pooled P R H n)⁻¹)) * (H * P) := by
        simp only [Matrix.mul_add, Matrix.add_mul, Matrix.mul_smul, Matrix.smul_mul,
          Matrix.mul_assoc]
    _ = ((n + 1 : ℕ) : K) • (P * Hᵀ * (pooled P R H (n + 1))⁻¹ * (H * P)) := by
        rw [hinverse, Matrix.mul_smul, Matrix.smul_mul]

theorem pooledMean_succ (hn : IsUnit (pooled P R H n).det)
    (hsucc : IsUnit (pooled P R H (n + 1)).det) :
    pooledMean P R H x n total
        + P * Hᵀ * (pooled P R H (n + 1))⁻¹ * (z - H * pooledMean P R H x n total)
      = pooledMean P R H x (n + 1) (total + z) := by
  have hinverse := pooled_inv_sub hn hsucc
  rw [pooledMean, pooledMean, Nat.cast_succ, add_smul, one_smul, add_sub_add_comm]
  generalize total - (n : K) • (H * x) = surprise
  calc x + P * Hᵀ * (pooled P R H n)⁻¹ * surprise
        + P * Hᵀ * (pooled P R H (n + 1))⁻¹
          * (z - H * (x + P * Hᵀ * (pooled P R H n)⁻¹ * surprise))
      = x + P * Hᵀ * ((pooled P R H n)⁻¹ - (pooled P R H (n + 1))⁻¹ * (H * P * Hᵀ)
          * (pooled P R H n)⁻¹) * surprise
        + P * Hᵀ * (pooled P R H (n + 1))⁻¹ * (z - H * x) := by
        simp only [Matrix.mul_add, Matrix.mul_sub, Matrix.sub_mul, Matrix.mul_assoc]
        abel
    _ = x + P * Hᵀ * (pooled P R H (n + 1))⁻¹ * (surprise + (z - H * x)) := by
        rw [← hinverse, sub_sub_cancel, Matrix.mul_add, add_assoc]

theorem isSymm_pooledCovariance (hP : P.IsSymm) (hR : R.IsSymm) :
    (pooledCovariance P R H n).IsSymm := by
  have hpooled : (pooled P R H n).IsSymm := ((isSymm_congruence hP H).smul _).add hR
  have hinverse : (pooled P R H n)⁻¹.IsSymm := by
    rw [IsSymm, transpose_nonsing_inv, hpooled.eq]
  have hfactors : P * Hᵀ * (pooled P R H n)⁻¹ * (H * P)
      = P * Hᵀ * (pooled P R H n)⁻¹ * (P * Hᵀ)ᵀ := by
    rw [transpose_mul, transpose_transpose, hP.eq]
  rw [pooledCovariance, hfactors]
  exact hP.sub ((isSymm_congruence hinverse _).smul _)

omit [Fintype κ] [DecidableEq κ] in
theorem pooled_one : pooled P R H 1 = H * P * Hᵀ + R := by
  rw [pooled, Nat.cast_one, one_smul]

theorem pooledCovariance_one :
    pooledCovariance P R H 1 = P - P * Hᵀ * (H * P * Hᵀ + R)⁻¹ * H * P := by
  rw [pooledCovariance, pooled_one, Nat.cast_one, one_smul, Matrix.mul_assoc _ H P]

theorem pooledMean_one :
    pooledMean P R H x 1 z = x + P * Hᵀ * (H * P * Hᵀ + R)⁻¹ * (z - H * x) := by
  rw [pooledMean, pooled_one, Nat.cast_one, one_smul]

/-! The readings are worth their mean, as one reading with less noise. -/

theorem inv_pooled_mean [CharZero K] (hn : IsUnit (pooled P R H n).det) (hsome : n ≠ 0) :
    (pooled P ((1 / n : K) • R) H 1)⁻¹ = (n : K) • (pooled P R H n)⁻¹ := by
  have hnumber : (n : K) ≠ 0 := Nat.cast_ne_zero.mpr hsome
  refine inv_eq_right_inv ?_
  rw [pooled_one, Matrix.mul_smul, ← Matrix.smul_mul, smul_add, smul_smul,
    mul_one_div_cancel hnumber, one_smul]
  exact mul_nonsing_inv _ hn

theorem pooledCovariance_mean [CharZero K] (hn : IsUnit (pooled P R H n).det) (hsome : n ≠ 0) :
    pooledCovariance P ((1 / n : K) • R) H 1 = pooledCovariance P R H n := by
  rw [pooledCovariance, pooledCovariance, inv_pooled_mean hn hsome, Nat.cast_one, one_smul,
    Matrix.mul_smul, Matrix.smul_mul]

theorem pooledMean_mean [CharZero K] (hn : IsUnit (pooled P R H n).det) (hsome : n ≠ 0) :
    pooledMean P ((1 / n : K) • R) H x 1 z = pooledMean P R H x n ((n : K) • z) := by
  rw [pooledMean, pooledMean, inv_pooled_mean hn hsome, Nat.cast_one, one_smul,
    Matrix.mul_smul, Matrix.smul_mul, ← Matrix.mul_smul, smul_sub]

end Pooled

theorem definite_pooled {ι κ K : Type} [Fintype ι] [Fintype κ] [Field K] [LinearOrder K]
    [IsStrictOrderedRing K] {P : Matrix ι ι K} {R : Matrix κ κ K} (hP : Semidefinite P)
    (hR : Definite R) (H : Matrix κ ι K) (n : ℕ) : Definite (pooled P R H n) := by
  rw [pooled, add_comm]
  exact hR.add_semidefinite ((hP.congruence H).smul n.cast_nonneg)

/-! ## Means of readings -/

namespace Point

variable {K : Type} [Field K]

def total (readings : List (Point K)) : Point K :=
  ⟨(readings.map Point.x).sum, (readings.map Point.y).sum⟩

def average (readings : List (Point K)) : Point K :=
  ⟨(total readings).x / readings.length, (total readings).y / readings.length⟩

theorem toMatrix_total_append_singleton (readings : List (Point K)) (z : Point K) :
    (total (readings ++ [z])).toColumn.toMatrix
      = (total readings).toColumn.toMatrix + z.toColumn.toMatrix := by
  ext i j
  fin_cases i <;> simp [total, toColumn, Mat.column]

theorem total_perm {readings readings' : List (Point K)} (h : readings.Perm readings') :
    total readings = total readings' := by
  rw [total, total, (h.map _).sum_eq, (h.map _).sum_eq]

theorem smul_toMatrix_average [CharZero K] {readings : List (Point K)} (hsome : readings ≠ []) :
    (readings.length : K) • (average readings).toColumn.toMatrix
      = (total readings).toColumn.toMatrix := by
  have hnumber : (readings.length : K) ≠ 0 :=
    Nat.cast_ne_zero.mpr (List.length_pos_iff.mpr hsome).ne'
  ext i j
  fin_cases i <;> simp [average, toColumn, Mat.column, mul_div_cancel₀, hnumber]

end Point

/-! ## Updates one after the other -/

namespace Filter

variable {K : Type} [Field K] [LinearOrder K]

/-- The same filter with another idea of the noise of its sensor. -/
def withNoise (f : Filter K) (A : Mat 2 2 K) : Filter K :=
  { f with model := { f.model with measurementNoise := A } }

/-- What the belief of `f` has become when `n` readings have been taken in, and nothing
else, that add up to `total`. -/
structure HasTaken (f : Filter K) (n : ℕ) (total : Matrix (Fin 2) (Fin 1) K)
    (g : Filter K) : Prop where
  config : g.config = f.config
  model : g.model = f.model
  phase : n ≠ 0 → g.phase = .awaitingPredict
  covariance : g.covariance.toMatrix = pooledCovariance f.covariance.toMatrix
    f.model.measurementNoise.toMatrix f.model.observation.toMatrix n
  mean : g.mean.toMatrix = pooledMean f.covariance.toMatrix
    f.model.measurementNoise.toMatrix f.model.observation.toMatrix f.mean.toMatrix n total

namespace HasTaken

variable {f g g' : Filter K} {n : ℕ} {total : Matrix (Fin 2) (Fin 1) K}

theorem zero (f : Filter K) : HasTaken f 0 0 f where
  config := rfl
  model := rfl
  phase := fun h => absurd rfl h
  covariance := by simp [pooledCovariance]
  mean := by simp [pooledMean]

omit [LinearOrder K] in
/-- The number and the sum of the readings say everything about what they do. -/
theorem unique (hg : HasTaken f n total g) (hg' : HasTaken f n total g') (hsome : n ≠ 0) :
    g = g' := by
  have hcovariance := Mat.toMatrix_inj.mp (hg.covariance.trans hg'.covariance.symm)
  have hmean := Mat.toMatrix_inj.mp (hg.mean.trans hg'.mean.symm)
  have hconfig := hg.config.trans hg'.config.symm
  have hmodel := hg.model.trans hg'.model.symm
  have hphase := (hg.phase hsome).trans (hg'.phase hsome).symm
  calc g = ⟨g.config, g.model, g.mean, g.covariance, g.phase⟩ := rfl
    _ = g' := by rw [hconfig, hmodel, hmean, hcovariance, hphase]

variable [IsStrictOrderedRing K]

theorem exists_innovationInverse (hg : HasTaken f n total g)
    (hP : Semidefinite f.covariance.toMatrix)
    (hR : Definite f.model.measurementNoise.toMatrix) :
    ∃ inverse, g.innovationInverse? = some inverse := by
  have hpooled := fun k => (definite_pooled hP hR f.model.observation.toMatrix k).isUnit_det
  refine Filter.exists_innovationInverse (IsUnit.ne_zero ?_)
  rw [toMatrix_innovationCovariance, hg.model, hg.covariance,
    innovation_pooledCovariance (hpooled n), det_mul, det_mul]
  exact (hpooled (n + 1)).mul ((isUnit_nonsing_inv_det _ (hpooled n)).mul hR.isUnit_det)

theorem correct (hg : HasTaken f n total g) (hP : Semidefinite f.covariance.toMatrix)
    (hR : Definite f.model.measurementNoise.toMatrix) {inverse : Mat 2 2 K}
    (hinv : g.innovationInverse? = some inverse) (z : Point K) :
    HasTaken f (n + 1) (total + z.toColumn.toMatrix) (g.correct z inverse) := by
  have hpooled := fun k => (definite_pooled hP hR f.model.observation.toMatrix k).isUnit_det
  have hgain : (g.gain inverse).toMatrix
      = f.covariance.toMatrix * f.model.observation.toMatrixᵀ
        * (pooled f.covariance.toMatrix f.model.measurementNoise.toMatrix
            f.model.observation.toMatrix (n + 1))⁻¹ := by
    refine gain_pooledCovariance (hpooled n) (hpooled (n + 1)) hR.isUnit_det ?_
    have hsolves := gain_mul_innovationCovariance hinv
    rwa [toMatrix_innovationCovariance, hg.model, hg.covariance] at hsolves
  refine ⟨hg.config, hg.model, fun _ => rfl, ?_, ?_⟩
  · have hsymm : g.covariance.toMatrix.IsSymm := by
      rw [hg.covariance]
      exact isSymm_pooledCovariance hP.isSymm hR.isSymm
    rw [toMatrix_correct_covariance hsymm (by rw [hg.model]; exact hR.isSymm) hinv, hgain,
      hg.model, hg.covariance]
    exact pooledCovariance_succ (hpooled n) (hpooled (n + 1))
  · rw [toMatrix_correct_mean, hgain, hg.model, hg.mean]
    exact pooledMean_succ (hpooled n) (hpooled (n + 1))

/-- The readings are worth one, their mean, for a sensor with less noise. -/
theorem as_one {z : Matrix (Fin 2) (Fin 1) K} (hg : HasTaken f n ((n : K) • z) g)
    (hP : Semidefinite f.covariance.toMatrix)
    (hR : Definite f.model.measurementNoise.toMatrix) (hsome : n ≠ 0) :
    HasTaken (f.withNoise (f.model.measurementNoise.scale (1 / n))) 1 z
      (g.withNoise (f.model.measurementNoise.scale (1 / n))) := by
  have hpooled := (definite_pooled hP hR f.model.observation.toMatrix n).isUnit_det
  refine ⟨hg.config, ?_, fun _ => hg.phase hsome, hg.covariance.trans ?_, hg.mean.trans ?_⟩
  · simp only [withNoise, hg.model]
  · rw [← pooledCovariance_mean hpooled hsome, ← Mat.toMatrix_scale]
    rfl
  · rw [← pooledMean_mean hpooled hsome, ← Mat.toMatrix_scale]
    rfl

/-- One more update of a permissive filter. -/
theorem update (hg : HasTaken f n total g) (hpermissive : f.config.strict = false)
    (hP : Semidefinite f.covariance.toMatrix)
    (hR : Definite f.model.measurementNoise.toMatrix) (z : Point K) :
    ∃ g', g.update z = .ok g' ∧ HasTaken f (n + 1) (total + z.toColumn.toMatrix) g' := by
  have hpermitted : g.admitsUpdate = true := by
    rw [admitsUpdate, hg.config, hpermissive]
    rfl
  obtain ⟨inverse, hinv⟩ := hg.exists_innovationInverse hP hR
  exact ⟨_, update_eq_ok_iff.mpr ⟨hpermitted, inverse, hinv, rfl⟩, hg.correct hP hR hinv z⟩

end HasTaken

variable [IsStrictOrderedRing K] {f : Filter K}

theorem hasTaken_after (hpermissive : f.config.strict = false)
    (hP : Semidefinite f.covariance.toMatrix)
    (hR : Definite f.model.measurementNoise.toMatrix) (readings : List (Point K)) :
    (∀ answer ∈ f.outcomes (readings.map .update), ∃ estimate, answer = some (.ok estimate)) ∧
      HasTaken f readings.length (Point.total readings).toColumn.toMatrix
        (f.after (readings.map .update)) := by
  induction readings using List.reverseRecOn with
  | nil =>
      have hnone : (Point.total ([] : List (Point K))).toColumn.toMatrix = 0 := by
        ext i j
        fin_cases i <;> simp [Point.total, Point.toColumn, Mat.column]
      refine ⟨List.forall_mem_nil _, ?_⟩
      rw [hnone]
      exact HasTaken.zero f
  | append_singleton rest z ih =>
      obtain ⟨hanswers, htaken⟩ := ih
      obtain ⟨g, hupdate, hnext⟩ := htaken.update hpermissive hP hR z
      have hcall : (f.after (rest.map .update)).call (.update z) = (g, some (.ok g.estimate)) := by
        rw [call, attempt_of_ok hupdate]
      rw [List.map_append, List.map_singleton, outcomes_append_singleton,
        after_append_singleton, hcall, List.length_append, List.length_singleton,
        Point.toMatrix_total_append_singleton, List.forall_mem_append, List.forall_mem_singleton]
      exact ⟨⟨hanswers, _, rfl⟩, hnext⟩

/-- Updates of a permissive filter that follow one another all succeed. Together they do
what one update does with the mean of the readings and the noise divided by their number,
in whatever order they come. -/
theorem updates_eq_average (hpermissive : f.config.strict = false)
    (hP : Semidefinite f.covariance.toMatrix)
    (hR : Definite f.model.measurementNoise.toMatrix) {readings : List (Point K)}
    (hsome : readings ≠ []) :
    let P := f.covariance.toMatrix
    let x := f.mean.toMatrix
    let H := f.model.observation.toMatrix
    let noise := f.model.measurementNoise.scale (1 / readings.length)
    let S := H * P * Hᵀ + noise.toMatrix
    let g := f.after (readings.map .update)
    (∀ answer ∈ f.outcomes (readings.map .update), ∃ estimate, answer = some (.ok estimate)) ∧
    noise.toMatrix = (1 / readings.length : K) • f.model.measurementNoise.toMatrix ∧
    IsUnit S.det ∧
    g.covariance.toMatrix = P - P * Hᵀ * S⁻¹ * H * P ∧
    g.mean.toMatrix
      = x + P * Hᵀ * S⁻¹ * ((Point.average readings).toColumn.toMatrix - H * x) ∧
    (∀ readings' : List (Point K), readings'.Perm readings → f.after (readings'.map .update) = g) ∧
    (f.withNoise noise).update (Point.average readings) = .ok (g.withNoise noise) := by
  intro P x H noise S g
  have hnoise : noise.toMatrix = (1 / readings.length : K) • f.model.measurementNoise.toMatrix :=
    Mat.toMatrix_scale _ _
  have hnumber : readings.length ≠ 0 := (List.length_pos_iff.mpr hsome).ne'
  have hdefinite : Definite noise.toMatrix := by
    rw [hnoise]
    exact hR.smul (one_div_pos.mpr (Nat.cast_pos.mpr (List.length_pos_iff.mpr hsome)))
  obtain ⟨hanswers, htaken⟩ := hasTaken_after hpermissive hP hR readings
  have hone : HasTaken (f.withNoise noise) 1 (Point.average readings).toColumn.toMatrix
      (g.withNoise noise) := by
    rw [← Point.smul_toMatrix_average hsome] at htaken
    exact htaken.as_one hP hR hnumber
  refine ⟨hanswers, hnoise, ?_, hone.covariance.trans pooledCovariance_one,
    hone.mean.trans pooledMean_one, fun readings' hperm => ?_, ?_⟩
  · have hdet := (definite_pooled hP hdefinite H 1).isUnit_det
    rwa [pooled_one] at hdet
  · obtain ⟨-, htaken'⟩ := hasTaken_after hpermissive hP hR readings'
    rw [hperm.length_eq, Point.total_perm hperm] at htaken'
    exact htaken'.unique htaken hnumber
  · obtain ⟨g', hupdate, htaken'⟩ := (HasTaken.zero (f.withNoise noise)).update hpermissive hP
      hdefinite (Point.average readings)
    rw [zero_add, zero_add] at htaken'
    rw [hupdate, htaken'.unique hone one_ne_zero]

/-- A permissive filter that is sure of everything but one direction, in which position and
velocity hang together. The two coordinates of its readings hang together as well. -/
def alignedFilter : Filter ℚ :=
  ofCovariances certainConfig
    ⟨Mat.ofFn fun i j => ![1, 2, 0, 1] i * ![1, 2, 0, 1] j, Mat.ofFn !![2, 1; 1, 3], 0⟩

/-- Its covariance has no inverse, and three readings are worth one all the same. -/
theorem updates_eq_average_of_aligned :
    let calls : List (Call ℚ) := [.update ⟨1, 0⟩, .update ⟨0, 3⟩, .update ⟨5, -3⟩]
    alignedFilter.covariance.toMatrix *ᵥ ![2, -1, 0, 0] = 0 ∧
    Semidefinite alignedFilter.covariance.toMatrix ∧
    Definite alignedFilter.model.measurementNoise.toMatrix ∧
    (∀ answer ∈ alignedFilter.outcomes calls, ∃ estimate, answer = some (.ok estimate)) ∧
    alignedFilter.after [.update ⟨5, -3⟩, .update ⟨1, 0⟩, .update ⟨0, 3⟩]
      = alignedFilter.after calls ∧
    (alignedFilter.withNoise (Mat.ofFn !![2/3, 1/3; 1/3, 1])).update ⟨2, 0⟩
      = .ok ((alignedFilter.after calls).withNoise (Mat.ofFn !![2/3, 1/3; 1/3, 1])) := by
  intro calls
  let v : Matrix (Fin 4) (Fin 1) ℚ := !![1; 2; 0; 1]
  have hP : Semidefinite alignedFilter.covariance.toMatrix := by
    have hsquare : alignedFilter.covariance.toMatrix = v * vᵀ := by decide +kernel
    rw [hsquare]
    exact Semidefinite.mul_transpose v
  have hR : Definite alignedFilter.model.measurementNoise.toMatrix := by
    have hsum : alignedFilter.model.measurementNoise.toMatrix
        = 1 + !![1, 0; 1, 1] * !![1, 0; 1, 1]ᵀ := by decide +kernel
    rw [hsum]
    exact Definite.one.add_semidefinite (Semidefinite.mul_transpose _)
  let readings : List (Point ℚ) := [⟨1, 0⟩, ⟨0, 3⟩, ⟨5, -3⟩]
  have hsome : readings ≠ [] := by decide
  obtain ⟨hanswers, -, -, -, -, horder, hone⟩ :=
    updates_eq_average (f := alignedFilter) rfl hP hR hsome
  have haverage : Point.average readings = ⟨2, 0⟩ := by decide +kernel
  have hnoise : alignedFilter.model.measurementNoise.scale (1 / (3 : ℕ))
      = Mat.ofFn !![2/3, 1/3; 1/3, 1] := by decide +kernel
  have hnumber : readings.length = 3 := rfl
  rw [haverage, hnumber, hnoise] at hone
  exact ⟨by decide +kernel, hP, hR, hanswers,
    horder [⟨5, -3⟩, ⟨1, 0⟩, ⟨0, 3⟩] (by decide), hone⟩

end Filter

end PlanarKalman
