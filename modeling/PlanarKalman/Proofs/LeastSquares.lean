import Mathlib.Algebra.BigOperators.Intervals
import PlanarKalman.Proofs.Matrix.Definite

/-!
# Fitting a motion to all readings at once

A motion is given by where it starts. There is a first guess of the start, with a
covariance, and there is a reading after each of `n` time steps. Which start fits
best? Every guess has a residual for the first guess and one for each reading, and
their squares, weighed by the information they carry, add up to its misfit.

The misfit is a quadratic in the guess. Its quadratic part is the information that
the first guess and the readings have about the start, its linear part their evidence,
and both are sums over the readings. So the best fit is the evidence multiplied by the
inverse of the information, and it is the only one (`misfit_fit_lt`).

When one more reading is taken in, the inverse of the information changes by a gain.
The identities for that are in the last section.
-/

namespace PlanarKalman

noncomputable section

open Matrix

variable {ι κ K : Type} [Fintype ι] [Fintype κ] [DecidableEq ι] [DecidableEq κ] [Field K]

/-- The square of a residual, weighed with information. -/
def weigh (W : Matrix κ κ K) (r : Matrix κ (Fin 1) K) : K := (rᵀ * W * r) 0 0

omit [DecidableEq κ] in
theorem pairing_comm {W : Matrix κ κ K} (hW : W.IsSymm) (r s : Matrix κ (Fin 1) K) :
    (rᵀ * W * s) 0 0 = (sᵀ * W * r) 0 0 := by
  have htranspose : (sᵀ * W * r)ᵀ = rᵀ * W * s := by
    rw [transpose_mul, transpose_mul, transpose_transpose, hW.eq, Matrix.mul_assoc]
  rw [← htranspose, transpose_apply]

omit [DecidableEq κ] [DecidableEq ι] in
theorem weigh_sub_mul {W : Matrix κ κ K} (hW : W.IsSymm) (z : Matrix κ (Fin 1) K)
    (G : Matrix κ ι K) (s : Matrix ι (Fin 1) K) :
    weigh W (z - G * s)
      = weigh (Gᵀ * W * G) s - 2 * (sᵀ * (Gᵀ * W * z)) 0 0 + weigh W z := by
  have hswap : (zᵀ * W * (G * s)) 0 0 = (sᵀ * (Gᵀ * W * z)) 0 0 := by
    rw [pairing_comm hW, transpose_mul]
    simp only [Matrix.mul_assoc]
  have hexpand : (z - G * s)ᵀ * W * (z - G * s)
      = sᵀ * (Gᵀ * W * G) * s - sᵀ * (Gᵀ * W * z) - zᵀ * W * (G * s) + zᵀ * W * z := by
    rw [transpose_sub, transpose_mul]
    simp only [Matrix.sub_mul, Matrix.mul_sub, Matrix.mul_assoc]
    abel
  rw [weigh, hexpand, Matrix.add_apply, Matrix.sub_apply, Matrix.sub_apply, hswap, weigh, weigh]
  ring

/-- A motion from an uncertain start, seen by a noisy sensor after each time step. -/
structure FitProblem (ι κ K : Type) where
  transition : Matrix ι ι K
  observation : Matrix κ ι K
  start : Matrix ι (Fin 1) K
  uncertainty : Matrix ι ι K
  noise : Matrix κ κ K
  /-- What is read after so many time steps. -/
  reading : ℕ → Matrix κ (Fin 1) K

namespace FitProblem

variable (p : FitProblem ι κ K)

/-- What the sensor sees of the start after `k` time steps. -/
def view (k : ℕ) : Matrix κ ι K := p.observation * p.transition ^ k

def information (n : ℕ) : Matrix ι ι K :=
  p.uncertainty⁻¹ + ∑ k ∈ Finset.Icc 1 n, (p.view k)ᵀ * p.noise⁻¹ * p.view k

def evidence (n : ℕ) : Matrix ι (Fin 1) K :=
  p.uncertainty⁻¹ * p.start + ∑ k ∈ Finset.Icc 1 n, (p.view k)ᵀ * p.noise⁻¹ * p.reading k

def fit (n : ℕ) : Matrix ι (Fin 1) K := (p.information n)⁻¹ * p.evidence n

def misfit (n : ℕ) (s : Matrix ι (Fin 1) K) : K :=
  weigh p.uncertainty⁻¹ (p.start - s)
    + ∑ k ∈ Finset.Icc 1 n, weigh p.noise⁻¹ (p.reading k - p.view k * s)

theorem information_succ (n : ℕ) :
    p.information (n + 1)
      = p.information n + (p.view (n + 1))ᵀ * p.noise⁻¹ * p.view (n + 1) := by
  rw [information, Finset.sum_Icc_succ_top (Nat.le_add_left 1 n), ← add_assoc]
  rfl

theorem evidence_succ (n : ℕ) :
    p.evidence (n + 1)
      = p.evidence n + (p.view (n + 1))ᵀ * p.noise⁻¹ * p.reading (n + 1) := by
  rw [evidence, Finset.sum_Icc_succ_top (Nat.le_add_left 1 n), ← add_assoc]
  rfl

theorem misfit_succ (n : ℕ) (s : Matrix ι (Fin 1) K) :
    p.misfit (n + 1) s
      = p.misfit n s + weigh p.noise⁻¹ (p.reading (n + 1) - p.view (n + 1) * s) := by
  rw [misfit, Finset.sum_Icc_succ_top (Nat.le_add_left 1 n), ← add_assoc]
  rfl

variable {p} [LinearOrder K] [IsStrictOrderedRing K]

theorem definite_information (hP : Definite p.uncertainty) (hR : Definite p.noise) (n : ℕ) :
    Definite (p.information n) := by
  induction n with
  | zero => simpa [information] using hP.inv
  | succ n ih =>
      rw [information_succ]
      have hview := hR.inv.semidefinite.congruence (p.view (n + 1))ᵀ
      rw [transpose_transpose] at hview
      exact ih.add_semidefinite hview

/-- The misfit is a quadratic. Each reading adds its part to every coefficient. -/
theorem misfit_eq (hP : Definite p.uncertainty) (hR : Definite p.noise) (n : ℕ)
    (s : Matrix ι (Fin 1) K) :
    p.misfit n s
      = weigh (p.information n) s - 2 * (sᵀ * p.evidence n) 0 0 + p.misfit n 0 := by
  induction n with
  | zero =>
      -- no readings yet: the first guess is seen as it is
      have h := weigh_sub_mul hP.inv.isSymm p.start 1 s
      simpa [misfit, information, evidence] using h
  | succ n ih =>
      have h := weigh_sub_mul hR.inv.isSymm (p.reading (n + 1)) (p.view (n + 1)) s
      have hsum : weigh (p.information (n + 1)) s
          = weigh (p.information n) s
            + weigh ((p.view (n + 1))ᵀ * p.noise⁻¹ * p.view (n + 1)) s := by
        rw [information_succ, weigh, Matrix.mul_add, Matrix.add_mul, Matrix.add_apply]
        rfl
      rw [misfit_succ, misfit_succ, ih, h, hsum, evidence_succ, Matrix.mul_add, Matrix.add_apply,
        Matrix.mul_zero, sub_zero]
      ring

/-- What a guess misfits more than the best fit is its distance from the best fit, weighed
with all the information there is. -/
theorem misfit_eq_add (hP : Definite p.uncertainty) (hR : Definite p.noise) (n : ℕ)
    (s : Matrix ι (Fin 1) K) :
    p.misfit n s = p.misfit n (p.fit n) + weigh (p.information n) (s - p.fit n) := by
  have hinformation := definite_information hP hR n
  have hfit : p.evidence n = p.information n * p.fit n := by
    rw [fit, mul_nonsing_inv_cancel_left _ _ hinformation.isUnit_det]
  have hdistance := weigh_sub_mul hinformation.isSymm s 1 (p.fit n)
  have hswap : ((p.fit n)ᵀ * (p.information n * s)) 0 0
      = (sᵀ * (p.information n * p.fit n)) 0 0 := by
    rw [← Matrix.mul_assoc, pairing_comm hinformation.isSymm, Matrix.mul_assoc]
  have hself : ((p.fit n)ᵀ * (p.information n * p.fit n)) 0 0
      = weigh (p.information n) (p.fit n) := by
    rw [weigh, Matrix.mul_assoc]
  rw [transpose_one, Matrix.one_mul, Matrix.one_mul, Matrix.mul_one, hswap] at hdistance
  rw [misfit_eq hP hR n s, misfit_eq hP hR n (p.fit n), hdistance, hfit, hself]
  ring

omit [DecidableEq κ] [IsStrictOrderedRing K] in
theorem weigh_pos {W : Matrix κ κ K} (hW : Definite W) {r : Matrix κ (Fin 1) K} (hr : r ≠ 0) :
    0 < weigh W r := by
  have hcolumn : (fun i => r i 0) ≠ 0 := by
    intro h
    refine hr (Matrix.ext fun i j => ?_)
    rw [Subsingleton.elim j 0]
    exact congrFun h i
  have hpos := hW.pos _ hcolumn
  rw [weigh, Matrix.mul_assoc, Matrix.mul_apply]
  exact hpos

/-- The best fit is the only best one. -/
theorem misfit_fit_lt (hP : Definite p.uncertainty) (hR : Definite p.noise) {n : ℕ}
    {s : Matrix ι (Fin 1) K} (hs : s ≠ p.fit n) : p.misfit n (p.fit n) < p.misfit n s := by
  rw [misfit_eq_add hP hR n s]
  exact lt_add_of_pos_right _
    (weigh_pos (definite_information hP hR n) (sub_ne_zero.mpr hs))

end FitProblem

/-! ## One more reading

`Λ` is the information before a reading through `G` with noise `R`, and `N` the
information after it. The gain for the reading is then `N⁻¹ Gᵀ R⁻¹`, what it leaves of
the belief before is `N⁻¹ Λ`, and both parts of the covariance together are `N⁻¹`. -/

section Reading

variable {Λ M N : Matrix ι ι K} {R : Matrix κ κ K} {G : Matrix κ ι K}

theorem inv_mul_reading_mul (hN : Λ + Gᵀ * R⁻¹ * G = N) (hNdet : IsUnit N.det)
    (hΛdet : IsUnit Λ.det) (hRdet : IsUnit R.det) :
    N⁻¹ * (Gᵀ * R⁻¹) * (G * Λ⁻¹ * Gᵀ + R) = Λ⁻¹ * Gᵀ := by
  have hinformation : N * (Λ⁻¹ * Gᵀ) = Gᵀ * R⁻¹ * (G * Λ⁻¹ * Gᵀ + R) := by
    calc N * (Λ⁻¹ * Gᵀ)
        = Λ * (Λ⁻¹ * Gᵀ) + Gᵀ * R⁻¹ * G * (Λ⁻¹ * Gᵀ) := by rw [← hN, Matrix.add_mul]
      _ = Gᵀ * R⁻¹ * R + Gᵀ * R⁻¹ * (G * Λ⁻¹ * Gᵀ) := by
          rw [mul_nonsing_inv_cancel_left _ _ hΛdet, nonsing_inv_mul_cancel_right _ _ hRdet]
          simp only [Matrix.mul_assoc]
      _ = Gᵀ * R⁻¹ * (G * Λ⁻¹ * Gᵀ + R) := by rw [Matrix.mul_add, add_comm]
  rw [Matrix.mul_assoc, ← hinformation, nonsing_inv_mul_cancel_left _ _ hNdet]

omit [DecidableEq κ] in
theorem one_sub_inv_mul (hN : Λ + M = N) (hNdet : IsUnit N.det) :
    1 - N⁻¹ * M = N⁻¹ * Λ := by
  rw [← nonsing_inv_mul N hNdet, ← Matrix.mul_sub, ← hN, add_sub_cancel_right]

theorem joseph_information (hN : Λ + Gᵀ * R⁻¹ * G = N) (hNsymm : N.IsSymm)
    (hNdet : IsUnit N.det) (hΛsymm : Λ.IsSymm) (hΛdet : IsUnit Λ.det) (hRsymm : R.IsSymm)
    (hRdet : IsUnit R.det) :
    N⁻¹ * Λ * Λ⁻¹ * (N⁻¹ * Λ)ᵀ + N⁻¹ * (Gᵀ * R⁻¹) * R * (N⁻¹ * (Gᵀ * R⁻¹))ᵀ = N⁻¹ := by
  have hprior : N⁻¹ * Λ * Λ⁻¹ * (N⁻¹ * Λ)ᵀ = N⁻¹ * Λ * N⁻¹ := by
    rw [mul_nonsing_inv_cancel_right _ _ hΛdet, transpose_mul, transpose_nonsing_inv, hNsymm.eq,
      hΛsymm.eq, Matrix.mul_assoc]
  have hreading : N⁻¹ * (Gᵀ * R⁻¹) * R * (N⁻¹ * (Gᵀ * R⁻¹))ᵀ
      = N⁻¹ * (Gᵀ * R⁻¹ * G) * N⁻¹ := by
    rw [Matrix.mul_assoc N⁻¹, nonsing_inv_mul_cancel_right _ _ hRdet, transpose_mul, transpose_mul,
      transpose_transpose, transpose_nonsing_inv, transpose_nonsing_inv, hNsymm.eq, hRsymm.eq]
    simp only [Matrix.mul_assoc]
  rw [hprior, hreading, ← Matrix.add_mul, ← Matrix.mul_add, hN,
    nonsing_inv_mul _ hNdet, Matrix.one_mul]

end Reading

end

end PlanarKalman
