import PlanarKalman.Proofs.Filter.Axes

/-!
# How soon the start is forgotten

However unsure a filter was and whatever it has been through, two readings in a row bound how
unsure it still is. One reading says where the target is, and two of them, a time step apart,
say how fast it is: their difference is divided by the time step, and so are the errors in
it.

The filter does not weigh readings like that. Its gain is the best one, though, so what
another gain would leave of the variance of the velocity is a bound for what the filter
leaves (`correct_c_le`), and with the gain `1 / dt` all that is left is what was already known
of the position (`predict_difference`). After one reading that is a variance of the sensor,
for a target that may have been anywhere.
-/

namespace PlanarKalman

variable {K : Type} [Field K] [LinearOrder K] [IsStrictOrderedRing K]

/-! ## One axis -/

namespace AxisFilter

variable {m : AxisModel K} {x : AxisFilter K}

/-- The position is no less certain than the reading. -/
theorem correct_a_le (ha : 0 ≤ x.a) (hr : 0 ≤ m.measurement) (z : K) :
    (x.correct m z).a ≤ m.measurement := by
  show x.a * m.measurement / (x.a + m.measurement) ≤ m.measurement
  refine div_le_of_le_mul₀ (add_nonneg ha hr) hr ?_
  rw [mul_comm]
  exact mul_le_mul_of_nonneg_left (le_add_of_nonneg_right hr) hr

/-- No gain `w` for the velocity leaves a smaller variance of it than the filter's gain. -/
theorem correct_c_le (hs : 0 < x.innovation m) (w z : K) :
    (x.correct m z).c ≤ x.c - 2 * w * x.b + w ^ 2 * x.innovation m := by
  have hsquare : x.c - 2 * w * x.b + w ^ 2 * x.innovation m - (x.correct m z).c
      = (x.b - w * x.innovation m) ^ 2 / x.innovation m := by
    have hstored : (x.correct m z).c = x.c - x.b ^ 2 / x.innovation m := rfl
    rw [hstored]
    field_simp
    ring
  rw [← sub_nonneg, hsquare]
  exact div_nonneg (sq_nonneg _) hs.le

/-- A velocity that is the distance to the next reading divided by the time step. How fast
the target was before does not enter. -/
theorem predict_difference (hdt : m.timestep ≠ 0) :
    (x.predict m).c - 2 * m.timestep⁻¹ * (x.predict m).b
        + m.timestep⁻¹ ^ 2 * (x.predict m).innovation m
      = (x.a + m.measurement) / m.timestep ^ 2 + m.process * m.timestep ^ 2 / 4 := by
  have h2 : (2.0 : K) = 2 := by norm_num
  have h4 : (4.0 : K) = 4 := by norm_num
  simp only [predict, innovation, h2, h4]
  field_simp
  ring

end AxisFilter

/-! ## The plane -/

namespace Filter

namespace OnAxis

variable {m : AxisModel K} {k : Fin 2} {f : Filter K} {x : AxisFilter K}

/-- What a step that succeeds leaves is bounded by the variance of the sensor and by that of
the position before it. -/
theorem step_bounds (h : OnAxis m k f x) (hsound : f.IsSound) (hdt : m.timestep ≠ 0)
    {z : Point K} {estimate : Estimate K} (hok : (f.step z).2 = .ok estimate) :
    ∃ x', OnAxis m k (f.step z).1 x' ∧ x'.a ≤ m.measurement ∧
      x'.c ≤ (x.a + m.measurement) / m.timestep ^ 2 + m.process * m.timestep ^ 2 / 4 := by
  rcases f.predict.attempt_cases z with ⟨inverse, hinv, heq⟩ | ⟨e, heq⟩
  · rw [step, heq]
    have ha := h.predict.a_nonneg hsound.predict
    have hr := h.measurement_nonneg hsound
    have hs : 0 < (x.predict m).innovation m :=
      lt_of_le_of_ne (add_nonneg ha hr) (h.predict.innovation_ne_zero hinv).symm
    refine ⟨_, h.predict.correct hinv z, AxisFilter.correct_a_le ha hr _, ?_⟩
    rw [← AxisFilter.predict_difference hdt]
    exact AxisFilter.correct_c_le hs m.timestep⁻¹ _
  · rw [step, heq] at hok
    cases hok

end OnAxis

variable [SmallestEigenvalue K] {config : FilterConfig K} {f : Filter K} {p r q : K}

/-- After two steps that succeed, the variances of position and velocity on each axis have
bounds that only the sensor, the motion and the time step enter. -/
theorem variance_forgets_start (hf : create config = .ok f)
    (hinitial : config.initialCovariance = .uniform p)
    (hmeasurement : config.measurementNoise = .uniform r)
    (hprocess : config.processNoise = .acceleration q) (calls : List (Call K))
    {z z' : Point K} {estimate estimate' : Estimate K}
    (hfirst : ((f.after calls).step z).2 = .ok estimate)
    (hsecond : (((f.after calls).step z).1.step z').2 = .ok estimate') (k : Fin 2) :
    let P := (((f.after calls).step z).1.step z').1.covariance
    P (Fin.castAdd 2 k) (Fin.castAdd 2 k) ≤ r ∧
      P (Fin.natAdd 2 k) (Fin.natAdd 2 k)
        ≤ 2 * r / config.timestep ^ 2 + q * config.timestep ^ 2 / 4 := by
  intro P
  obtain ⟨covariances, hres, -⟩ := create_eq_ok_iff.mp hf
  obtain ⟨hpositive, -⟩ := FilterConfig.resolve_eq_ok_iff.mp hres
  have hdt : 0 < config.timestep := isPositive_iff.mp hpositive
  have haxis := (onAxis_of_create hf hinitial hmeasurement hprocess k).after calls
  have hsound := (isSound_of_create hf hinitial hmeasurement hprocess).after calls
  obtain ⟨x, hx, ha, -⟩ := haxis.step_bounds hsound hdt.ne' hfirst
  obtain ⟨x', hx', ha', hc'⟩ := hx.step_bounds (hsound.after [.step z]) hdt.ne' hsecond
  refine ⟨hx'.position_variance.trans_le ha', hx'.velocity_variance.trans_le (hc'.trans ?_)⟩
  rw [two_mul]
  exact add_le_add_left (div_le_div_of_nonneg_right (add_le_add_left ha r) (sq_nonneg _)) _

/-! ## A start that is hardly known -/

def lostConfig : FilterConfig ℚ where
  initialPosition := ⟨1, 2⟩
  initialCovariance := .uniform 1000000
  measurementNoise := .uniform 4
  processNoise := .acceleration 8
  timestep := 2
  strict := true

def lostFilter : Filter ℚ :=
  ofCovariances lostConfig
    ⟨Mat.identity.scale 1000000, Mat.identity.scale 4, Motion.accelerationNoise 2 8⟩

/-- The bounds are `4` and `10`. A calculation with a variance of a million at first comes
close to both. -/
theorem variance_forgets_start_of_lost :
    letI := leastDiagonal
    let calls : List (Call ℚ) := [.update ⟨0, 0⟩, .predict]
    let g := ((lostFilter.after calls).step ⟨3, 5⟩).1
    create lostConfig = .ok lostFilter ∧
      (∃ estimate, ((lostFilter.after calls).step ⟨3, 5⟩).2 = .ok estimate) ∧
      (∃ estimate, (g.step ⟨6, -1⟩).2 = .ok estimate) ∧
      (g.step ⟨6, -1⟩).1.covariance 0 0 ≤ 4 ∧ (g.step ⟨6, -1⟩).1.covariance 2 2 ≤ 10 ∧
      39 / 10 < (g.step ⟨6, -1⟩).1.covariance 0 0 ∧
      99 / 10 < (g.step ⟨6, -1⟩).1.covariance 2 2 := by
  let := leastDiagonal
  intro calls g
  have hf : create lostConfig = .ok lostFilter := rfl
  obtain ⟨estimate, hfirst⟩ := step_ok_of_isSome (f := lostFilter.after calls)
    (by decide +kernel) ⟨3, 5⟩
  obtain ⟨estimate', hsecond⟩ := step_ok_of_isSome (f := g) (by decide +kernel) ⟨6, -1⟩
  obtain ⟨hposition, hvelocity⟩ := variance_forgets_start hf rfl rfl rfl calls hfirst hsecond 0
  refine ⟨hf, ⟨_, hfirst⟩, ⟨_, hsecond⟩, hposition, hvelocity.trans_eq ?_, by decide +kernel,
    by decide +kernel⟩
  norm_num [lostConfig]

end Filter

end PlanarKalman
