import Mathlib.Algebra.BigOperators.Intervals
import PlanarKalman.Proofs.Filter.Axes

/-!
# Predictions without readings

A filter that gets no readings moves its target on at the velocity it last believed in, and
becomes less sure of it. Time steps that follow one another are one longer time step for a
motion without noise (`Motion.transition_add`), so what it believed at first is carried over
`k` time steps at once. The noise is not: what was added `i` predictions ago has been carried
over `i` time steps since, and the sum of that is what `k` predictions add.

For the noise of an acceleration the sum has a closed form. An acceleration that acted for one
time step, `i` steps ago, has moved the target by `i + 1/2` time steps times the velocity that
came of it (`Motion.transition_mul_accelerationEffect`). So the variance of the position grows
with the sum of `(i + 1/2) ^ 2`, which is `k (4 k ^ 2 - 1) / 12`, its covariance with the
velocity with the sum of `i + 1/2`, which is `k ^ 2 / 2`, and the variance of the velocity
with `k`.
-/

namespace PlanarKalman

open Matrix

variable {K : Type} [Field K] [LinearOrder K]

/-! ## The motion over several time steps -/

namespace Motion

theorem toMatrix_transition_eq (t : K) : (transition t).toMatrix = perAxis !![1, t; 0, 1] :=
  toMatrix_transition ⟨t, 0, 0, false⟩

theorem transition_zero : (transition (0 : K)).toMatrix = 1 := by
  rw [toMatrix_transition_eq, ← one_fin_two, perAxis_one]

theorem transition_add (s t : K) :
    (transition s).toMatrix * (transition t).toMatrix = (transition (s + t)).toMatrix := by
  have haxis : !![1, s; 0, 1] * !![1, t; 0, 1] = !![1, s + t; 0, 1] := by
    rw [mul_fin_two, add_comm s t]
    simp
  rw [toMatrix_transition_eq, toMatrix_transition_eq, toMatrix_transition_eq, ← perAxis_mul, haxis]

/-- Left alone for a time `t`, a target moves by `t` times its velocity and keeps it. -/
theorem ofColumn_transition_mul (t : K) (c : Column 4 K) :
    State.ofColumn (transition t * c)
      = ⟨(State.ofColumn c).x + t * (State.ofColumn c).vx,
          (State.ofColumn c).y + t * (State.ofColumn c).vy,
          (State.ofColumn c).vx, (State.ofColumn c).vy⟩ := by
  simp only [State.ofColumn, Mat.component, ← Mat.toMatrix_apply, Mat.toMatrix_mul,
    Matrix.mul_apply, Fin.sum_univ_four]
  simp [transition]

end Motion

namespace Filter

/-- A belief about the state that is `t` old, and the noise of what has happened since. -/
theorem carry_predict (dt t : K) (A Q : Matrix (Fin 4) (Fin 4) K) :
    (Motion.transition t).toMatrix
        * ((Motion.transition dt).toMatrix * A * (Motion.transition dt).toMatrixᵀ + Q)
        * (Motion.transition t).toMatrixᵀ
      = (Motion.transition (t + dt)).toMatrix * A * (Motion.transition (t + dt)).toMatrixᵀ
        + (Motion.transition t).toMatrix * Q * (Motion.transition t).toMatrixᵀ := by
  rw [Matrix.mul_add, Matrix.add_mul, ← Motion.transition_add, transpose_mul]
  simp only [Matrix.mul_assoc]

variable {f : Filter K} {dt : K}

theorem mean_after_predictions (hF : f.model.transition = Motion.transition dt) (k : ℕ) :
    (f.after (List.replicate k .predict)).mean = Motion.transition (k * dt) * f.mean := by
  rw [← Mat.toMatrix_inj, Mat.toMatrix_mul]
  induction k generalizing f with
  | zero => simp [Motion.transition_zero]
  | succ k ih =>
      have hnext : f.predict.model.transition = Motion.transition dt := hF
      rw [List.replicate_succ, after_cons, call, ih hnext, toMatrix_predict_mean, hF,
        ← Matrix.mul_assoc, Motion.transition_add, Nat.cast_succ, add_one_mul]

/-- The first of the predictions comes first: its noise is carried over all that follow. -/
theorem covariance_after_predictions (hF : f.model.transition = Motion.transition dt) (k : ℕ) :
    (f.after (List.replicate k .predict)).covariance.toMatrix
      = (Motion.transition (k * dt)).toMatrix * f.covariance.toMatrix
          * (Motion.transition (k * dt)).toMatrixᵀ
        + ∑ i ∈ Finset.range k, (Motion.transition (i * dt)).toMatrix
          * f.model.processNoise.toMatrix * (Motion.transition (i * dt)).toMatrixᵀ := by
  induction k generalizing f with
  | zero => simp [Motion.transition_zero]
  | succ k ih =>
      have hnext : f.predict.model.transition = Motion.transition dt := hF
      have hnoise : f.predict.model.processNoise = f.model.processNoise := rfl
      rw [List.replicate_succ, after_cons, call, ih hnext, toMatrix_predict_covariance, hF, hnoise,
        carry_predict, Finset.sum_range_succ, Nat.cast_succ, add_one_mul, add_assoc,
        add_comm (Finset.sum _ _)]

end Filter

/-! ## The noise of an acceleration -/

variable [IsStrictOrderedRing K]

namespace Motion

/-- What an acceleration over one time step has done `i` time steps later. -/
theorem transition_mul_accelerationEffect (dt i : K) :
    (transition (i * dt)).toMatrix * accelerationEffect dt
      = perAxis !![(i + 1 / 2) * dt ^ 2; dt] := by
  have hnow : accelerationEffect dt = perAxis !![dt ^ 2 / 2.0; dt] :=
    accelerationEffect_eq ⟨dt, 0, 0, false⟩
  have haxis : (!![1, i * dt; 0, 1] : Matrix (Fin 2) (Fin 2) K) * !![dt ^ 2 / 2.0; dt]
      = !![(i + 1 / 2) * dt ^ 2; dt] := by
    have h2 : (2.0 : K) = 2 := by norm_num
    ext r c
    rw [Matrix.mul_apply, Fin.sum_univ_two]
    fin_cases r <;> fin_cases c <;> simp [h2]
    ring
  rw [toMatrix_transition_eq, hnow, ← haxis, perAxis_mul]

theorem carry_accelerationNoise (dt q i : K) :
    (transition (i * dt)).toMatrix * (accelerationNoise dt q).toMatrix
        * (transition (i * dt)).toMatrixᵀ
      = perAxis !![q * dt ^ 4 * (i + 1 / 2) ^ 2, q * dt ^ 3 * (i + 1 / 2);
          q * dt ^ 3 * (i + 1 / 2), q * dt ^ 2] := by
  have hsquare : q • (!![(i + 1 / 2) * dt ^ 2; dt] * !![(i + 1 / 2) * dt ^ 2; dt]ᵀ)
      = !![q * dt ^ 4 * (i + 1 / 2) ^ 2, q * dt ^ 3 * (i + 1 / 2);
          q * dt ^ 3 * (i + 1 / 2), q * dt ^ 2] := by
    ext r c
    rw [Matrix.smul_apply, Matrix.mul_apply, Fin.sum_univ_one, smul_eq_mul]
    fin_cases r <;> fin_cases c <;> simp [-mul_eq_mul_left_iff] <;> ring
  calc (transition (i * dt)).toMatrix * (accelerationNoise dt q).toMatrix
          * (transition (i * dt)).toMatrixᵀ
      = q • ((transition (i * dt)).toMatrix * accelerationEffect dt
          * ((transition (i * dt)).toMatrix * accelerationEffect dt)ᵀ) := by
        rw [toMatrix_accelerationNoise, Matrix.mul_smul, Matrix.smul_mul, transpose_mul]
        simp only [Matrix.mul_assoc]
    _ = _ := by
        rw [transition_mul_accelerationEffect, ← perAxis_transpose, ← perAxis_mul, ← perAxis_smul,
          hsquare]

/-- The noise that `k` predictions add. -/
theorem sum_carry_accelerationNoise (dt q : K) (k : ℕ) :
    ∑ i ∈ Finset.range k, (transition (i * dt)).toMatrix * (accelerationNoise dt q).toMatrix
        * (transition (i * dt)).toMatrixᵀ
      = perAxis !![q * dt ^ 4 * (k * (4 * k ^ 2 - 1) / 12), q * dt ^ 3 * (k ^ 2 / 2);
          q * dt ^ 3 * (k ^ 2 / 2), q * dt ^ 2 * k] := by
  induction k with
  | zero =>
      have hnone : (0 : Matrix (Fin 2) (Fin 2) K) = !![0, 0; 0, 0] := by
        ext r c
        fin_cases r <;> fin_cases c <;> rfl
      simp [← hnone, perAxis]
  | succ k ih =>
      rw [Finset.sum_range_succ, ih, carry_accelerationNoise, ← perAxis_add]
      congr 1
      ext r c
      rw [Matrix.add_apply, Nat.cast_succ]
      fin_cases r <;> fin_cases c <;> simp <;> ring

end Motion

/-! ## Predictions in a row -/

namespace Filter

variable [SmallestEigenvalue K]

/-- A filter in any state that makes `k` predictions in a row believes that its target has
moved on for `k` time steps at the same velocity. Its covariance is carried along, with the
noise of each time step on top, for which there is a closed form when it comes from the
variance of an acceleration. -/
theorem predictions_coast {config : FilterConfig K} {f : Filter K} (hf : create config = .ok f)
    {g : Filter K} (hmodel : g.model = f.model) (k : ℕ) :
    let dt := config.timestep
    let F (t : K) := (Motion.transition t).toMatrix
    let added := ∑ i ∈ Finset.range k,
      F (i * dt) * f.model.processNoise.toMatrix * (F (i * dt))ᵀ
    let g' := g.after (List.replicate k .predict)
    g'.state = ⟨g.state.x + k * dt * g.state.vx, g.state.y + k * dt * g.state.vy,
      g.state.vx, g.state.vy⟩ ∧
    g'.covariance.toMatrix = F (k * dt) * g.covariance.toMatrix * (F (k * dt))ᵀ + added ∧
    ∀ q, config.processNoise = .acceleration q →
      let a := q * dt ^ 4 * (k * (4 * k ^ 2 - 1) / 12)
      let b := q * dt ^ 3 * (k ^ 2 / 2)
      let c := q * dt ^ 2 * k
      added = !![a, 0, b, 0; 0, a, 0, b; b, 0, c, 0; 0, b, 0, c] := by
  intro dt F added g'
  obtain ⟨covariances, hres, rfl⟩ := create_eq_ok_iff.mp hf
  have hF : g.model.transition = Motion.transition dt := congrArg FilterModel.transition hmodel
  refine ⟨?_, ?_, fun q hform => ?_⟩
  · rw [state, mean_after_predictions hF, Motion.ofColumn_transition_mul]
    rfl
  · rw [covariance_after_predictions hF, hmodel]
  · obtain ⟨-, -, -, -, hQ⟩ := FilterConfig.resolve_eq_ok_iff.mp hres
    rw [hform] at hQ
    obtain ⟨-, hnoise⟩ := FilterConfig.resolveProcessNoise_acceleration_eq_ok_iff.mp hQ
    simp only [added, ofCovariances, ← hnoise]
    rw [← perAxis_fin_two]
    exact Motion.sum_carry_accelerationNoise dt q k

/-- A belief that the filter that is certain at first never comes to: the target is more likely
to be slow when it is far ahead, and the matrix is not even symmetric. -/
def hastyFilter : Filter ℚ :=
  { certainFilter with
    mean := State.toColumn ⟨1, 2, 3, -1⟩
    covariance := Mat.ofFn !![2, 0, -1, 0; 0, 2, 0, -1; -1, 1, 1, 0; 0, -1, 0, 1] }

theorem predictions_coast_of_hasty :
    letI := leastDiagonal
    let g := hastyFilter.after (List.replicate 4 .predict)
    create certainConfig = .ok certainFilter ∧ hastyFilter.model = certainFilter.model ∧
      g.state = ⟨13, -2, 3, -1⟩ ∧
      g.covariance.toMatrix
        = (Motion.transition 4).toMatrix * hastyFilter.covariance.toMatrix
            * (Motion.transition 4).toMatrixᵀ
          + !![21, 0, 8, 0; 0, 21, 0, 8; 8, 0, 4, 0; 0, 8, 0, 4] := by
  let := leastDiagonal
  intro g
  have hf : create certainConfig = .ok certainFilter := rfl
  obtain ⟨hstate, hcovariance, hadded⟩ := predictions_coast hf (g := hastyFilter) rfl 4
  refine ⟨hf, rfl, hstate.trans (by decide +kernel), ?_⟩
  rw [hcovariance, hadded 1 rfl]
  norm_num [certainConfig]

end Filter

end PlanarKalman
