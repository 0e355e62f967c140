import PlanarKalman.Proofs.Filter.Forgetting

/-!
# A filter that predicts becomes less sure

It is not true of every covariance that the motion makes it larger: where position and
velocity make up for each other, the target comes closer to where the filter takes it to be. A
filter with a single number for each covariance never believes that. Its covariance of position
and velocity on an axis is zero at first, a prediction adds what a faster target is further
ahead, and a correction scales it down as it does the variance of the position.

With that sign (`Spreads`) each part of what a prediction adds to a variance is at least zero,
and the velocity gets the noise of the acceleration. A reading moves the position by the share
`a / (a + r)` of its distance, which is between none of it and all of it.
-/

namespace PlanarKalman

variable {K : Type} [Field K] [LinearOrder K] [IsStrictOrderedRing K]

/-! ## One axis -/

/-- The numbers that validation lets through. -/
structure AxisModel.IsValid (m : AxisModel K) : Prop where
  timestep_pos : 0 < m.timestep
  process_nonneg : 0 ≤ m.process
  measurement_nonneg : 0 ≤ m.measurement

namespace AxisFilter

variable {m : AxisModel K} {x : AxisFilter K}

theorem predict_b_nonneg (hm : m.IsValid) (hb : 0 ≤ x.b) (hc : 0 ≤ x.c) :
    0 ≤ (x.predict m).b := by
  have hdt := hm.timestep_pos.le
  have hq := hm.process_nonneg
  have h2 : (0 : K) ≤ 2.0 := by norm_num
  show 0 ≤ x.b + m.timestep * x.c + m.process * m.timestep ^ 3 / 2.0
  positivity

theorem correct_b_nonneg (hm : m.IsValid) (ha : 0 ≤ x.a) (hb : 0 ≤ x.b) (z : K) :
    0 ≤ (x.correct m z).b :=
  div_nonneg (mul_nonneg hb hm.measurement_nonneg) (add_nonneg ha hm.measurement_nonneg)

theorem a_le_predict (hm : m.IsValid) (hb : 0 ≤ x.b) (hc : 0 ≤ x.c) : x.a ≤ (x.predict m).a := by
  have hdt := hm.timestep_pos.le
  have hq := hm.process_nonneg
  have h2 : (0 : K) ≤ 2.0 := by norm_num
  have h4 : (0 : K) ≤ 4.0 := by norm_num
  have hgrowth : 0 ≤ 2.0 * m.timestep * x.b + m.timestep ^ 2 * x.c
      + m.process * m.timestep ^ 4 / 4.0 := by positivity
  refine (le_add_of_nonneg_right hgrowth).trans_eq ?_
  rw [← add_assoc, ← add_assoc]
  rfl

theorem c_le_predict (hm : m.IsValid) : x.c ≤ (x.predict m).c :=
  le_add_of_nonneg_right (mul_nonneg hm.process_nonneg (sq_nonneg _))

theorem c_lt_predict (hm : m.IsValid) (hq : 0 < m.process) : x.c < (x.predict m).c :=
  lt_add_of_pos_right _ (mul_pos hq (pow_pos hm.timestep_pos 2))

/-- A reading is believed in part: never the other way, and never more than it says. -/
theorem share_mem_Icc (hm : m.IsValid) (ha : 0 ≤ x.a) : x.a / x.innovation m ∈ Set.Icc 0 1 :=
  have hs : 0 ≤ x.innovation m := add_nonneg ha hm.measurement_nonneg
  ⟨div_nonneg ha hs, div_le_one_of_le₀ (le_add_of_nonneg_right hm.measurement_nonneg) hs⟩

end AxisFilter

theorem mem_uIcc_of_share {w p z : K} (hw : w ∈ Set.Icc 0 1) : p + w * (z - p) ∈ Set.uIcc p z := by
  obtain ⟨hw, hw'⟩ := hw
  rw [Set.mem_uIcc]
  rcases le_total p z with h | h
  · exact Or.inl ⟨by nlinarith, by nlinarith⟩
  · exact Or.inr ⟨by nlinarith, by nlinarith⟩

/-! ## The plane -/

namespace Filter

/-- On axis `k`, position and velocity do not make up for each other. -/
structure Spreads (m : AxisModel K) (k : Fin 2) (f : Filter K) (x : AxisFilter K) : Prop
    extends OnAxis m k f x where
  isSound : f.IsSound
  b_nonneg : 0 ≤ x.b

namespace Spreads

variable {m : AxisModel K} {k : Fin 2} {f : Filter K} {x : AxisFilter K}

theorem predict (h : Spreads m k f x) (hm : m.IsValid) : Spreads m k f.predict (x.predict m) :=
  ⟨h.toOnAxis.predict, h.isSound.predict,
    AxisFilter.predict_b_nonneg hm h.b_nonneg (h.toOnAxis.c_nonneg h.isSound)⟩

theorem correct (h : Spreads m k f x) (hm : m.IsValid) {inverse : Mat 2 2 K}
    (hinv : f.innovationInverse? = some inverse) (z : Point K) :
    Spreads m k (f.correct z inverse) (x.correct m (z.coordinate k)) :=
  ⟨h.toOnAxis.correct hinv z, h.isSound.correct z inverse,
    AxisFilter.correct_b_nonneg hm (h.toOnAxis.a_nonneg h.isSound) h.b_nonneg _⟩

theorem after (h : Spreads m k f x) (hm : m.IsValid) (calls : List (Call K)) :
    ∃ x', Spreads m k (f.after calls) x' :=
  after_induction (motive := fun g => ∃ x', Spreads m k g x')
    (fun _ ⟨_, hg⟩ => ⟨_, hg.predict hm⟩)
    (fun _ z _ hinv ⟨_, hg⟩ => ⟨_, hg.correct hm hinv z⟩) ⟨x, h⟩ calls

theorem gain_mem_Icc (h : Spreads m k f x) (hm : m.IsValid) {inverse : Mat 2 2 K}
    (hinv : f.innovationInverse? = some inverse) :
    f.gain inverse (Fin.castAdd 2 k) k ∈ Set.Icc 0 1 := by
  rw [h.position_gain hinv]
  exact AxisFilter.share_mem_Icc hm (h.toOnAxis.a_nonneg h.isSound)

theorem correct_position (h : Spreads m k f x) {inverse : Mat 2 2 K}
    (hinv : f.innovationInverse? = some inverse) (z : Point K) :
    (f.correct z inverse).state.position.coordinate k
      = f.state.position.coordinate k + f.gain inverse (Fin.castAdd 2 k) k
          * (z.coordinate k - f.state.position.coordinate k) := by
  rw [h.position_gain hinv, h.position_eq, (h.toOnAxis.correct hinv z).position_eq]
  rfl

end Spreads

/-- What both axes keep is kept of all entries of the diagonal. -/
theorem diagonal_le_predict {m : AxisModel K} {f : Filter K} (hm : m.IsValid)
    (h : ∀ k, ∃ x, Spreads m k f x) (i : Fin (2 + 2)) :
    f.covariance i i ≤ f.predict.covariance i i := by
  refine Fin.addCases (fun k => ?_) (fun k => ?_) i
  · obtain ⟨x, hx⟩ := h k
    rw [hx.position_variance, (hx.predict hm).position_variance]
    exact AxisFilter.a_le_predict hm hx.b_nonneg (hx.toOnAxis.c_nonneg hx.isSound)
  · obtain ⟨x, hx⟩ := h k
    rw [hx.velocity_variance, (hx.predict hm).velocity_variance]
    exact AxisFilter.c_le_predict hm

theorem trace_lt_predict {m : AxisModel K} {f : Filter K} (hm : m.IsValid)
    (h : ∀ k, ∃ x, Spreads m k f x) (hq : 0 < m.process) :
    f.covariance.toMatrix.trace < f.predict.covariance.toMatrix.trace := by
  refine Finset.sum_lt_sum (fun i _ => diagonal_le_predict hm h i) ⟨2, Finset.mem_univ _, ?_⟩
  obtain ⟨x, hx⟩ := h 0
  calc f.covariance 2 2 = x.c := hx.velocity_variance
    _ < (x.predict m).c := AxisFilter.c_lt_predict hm hq
    _ = f.predict.covariance 2 2 := (hx.predict hm).velocity_variance.symm

variable [SmallestEigenvalue K] {config : FilterConfig K} {f : Filter K} {p r q : K}

omit [IsStrictOrderedRing K] in
theorem isValid_of_create (hf : create config = .ok f)
    (hmeasurement : config.measurementNoise = .uniform r)
    (hprocess : config.processNoise = .acceleration q) :
    AxisModel.IsValid ⟨config.timestep, q, r, config.strict⟩ := by
  obtain ⟨covariances, hres, -⟩ := create_eq_ok_iff.mp hf
  obtain ⟨htime, -, -, hR, hQ⟩ := FilterConfig.resolve_eq_ok_iff.mp hres
  rw [hmeasurement] at hR
  rw [hprocess] at hQ
  exact ⟨isPositive_iff.mp htime,
    isNonNegative_iff.mp (FilterConfig.resolveProcessNoise_acceleration_eq_ok_iff.mp hQ).1,
    isNonNegative_iff.mp (FilterConfig.resolveCovariance_uniform_eq_ok_iff.mp hR).1⟩

/-- In every reachable state of a filter with a single number for each covariance, position
and velocity have no negative covariance on either axis. So a prediction decreases no variance
and no sum of them, and increases the sum when there is any noise; and an update that succeeds
moves the position on each axis by its gain, a share of the distance to the reading. -/
theorem mixed_covariance_nonneg (hf : create config = .ok f)
    (hinitial : config.initialCovariance = .uniform p)
    (hmeasurement : config.measurementNoise = .uniform r)
    (hprocess : config.processNoise = .acceleration q) (calls : List (Call K)) :
    let g := f.after calls
    (0 ≤ g.covariance 0 2 ∧ 0 ≤ g.covariance 1 3) ∧
    (∀ i, g.covariance i i ≤ g.predict.covariance i i) ∧
    g.covariance.toMatrix.trace ≤ g.predict.covariance.toMatrix.trace ∧
    (0 < q → g.covariance.toMatrix.trace < g.predict.covariance.toMatrix.trace) ∧
    ∀ z g', g.update z = .ok g' → ∃ inverse, g.innovationInverse? = some inverse ∧ ∀ k,
      let w := g.gain inverse (Fin.castAdd 2 k) k
      w ∈ Set.Icc 0 1 ∧
      g'.state.position.coordinate k = g.state.position.coordinate k
        + w * (z.coordinate k - g.state.position.coordinate k) ∧
      g'.state.position.coordinate k
        ∈ Set.uIcc (g.state.position.coordinate k) (z.coordinate k) := by
  intro g
  have hm := isValid_of_create hf hmeasurement hprocess
  have hsound := isSound_of_create hf hinitial hmeasurement hprocess
  have hspreads : ∀ k, ∃ x, Spreads ⟨config.timestep, q, r, config.strict⟩ k g x := fun k =>
    Spreads.after ⟨onAxis_of_create hf hinitial hmeasurement hprocess k, hsound, le_rfl⟩ hm calls
  have hmixed : ∀ k : Fin 2, 0 ≤ g.covariance (Fin.castAdd 2 k) (Fin.natAdd 2 k) := by
    intro k
    obtain ⟨x, hx⟩ := hspreads k
    rw [hx.mixed_covariance]
    exact hx.b_nonneg
  have hdiagonal := diagonal_le_predict hm hspreads
  refine ⟨⟨hmixed 0, hmixed 1⟩, hdiagonal, Finset.sum_le_sum fun i _ => hdiagonal i,
    trace_lt_predict hm hspreads, fun z g' hupdate => ?_⟩
  obtain ⟨-, inverse, hinv, rfl⟩ := update_eq_ok_iff.mp hupdate
  refine ⟨inverse, hinv, fun k => ?_⟩
  obtain ⟨x, hx⟩ := hspreads k
  have hgain := hx.gain_mem_Icc hm hinv
  have hposition := hx.correct_position hinv z
  exact ⟨hgain, hposition, hposition ▸ mem_uIcc_of_share hgain⟩

/-- One update is turned away, and the next reading is believed in good part. -/
theorem mixed_covariance_nonneg_of_lost :
    letI := leastDiagonal
    let f := lostFilter.after [.update ⟨0, 0⟩, .step ⟨3, 5⟩]
    let g := f.predict
    let g' := (f.step ⟨6, -1⟩).1
    create lostConfig = .ok lostFilter ∧ 0 ≤ g.covariance 0 2 ∧ g.covariance 0 2 ≠ 0 ∧
      g.covariance.toMatrix.trace < g.predict.covariance.toMatrix.trace ∧
      g.update ⟨6, -1⟩ = .ok g' ∧ g'.state.x ∈ Set.uIcc g.state.x 6 ∧
      g'.state.x ≠ g.state.x ∧ g'.state.x ≠ 6 := by
  let := leastDiagonal
  intro f g g'
  have hf : create lostConfig = .ok lostFilter := rfl
  have hupdate : g.update ⟨6, -1⟩ = .ok g' := update_predict_of_isSome (by decide +kernel) _
  obtain ⟨⟨hmixed, -⟩, -, -, htrace, hbetween⟩ := mixed_covariance_nonneg hf rfl rfl rfl
    [.update ⟨0, 0⟩, .step ⟨3, 5⟩, .predict]
  obtain ⟨inverse, -, hposition⟩ := hbetween _ _ hupdate
  obtain ⟨-, -, hx⟩ := hposition 0
  exact ⟨hf, hmixed, by decide +kernel, htrace (by norm_num), hupdate, hx, by decide +kernel,
    by decide +kernel⟩

end Filter

end PlanarKalman
