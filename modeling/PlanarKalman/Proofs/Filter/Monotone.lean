import PlanarKalman.Proofs.Matrix.Definite
import PlanarKalman.Proofs.Filter.Gain
import PlanarKalman.Proofs.Filter.Uncertainty

/-!
# A filter that is told less uncertainty stays surer

Two filters that use the same motion and the same calls, one of which starts surer
and is told of less noise. Each uses a gain of its own, so their covariances after a
reading cannot be compared term by term. But the gain of the larger filter is some
gain for the smaller one, not the best; with it the smaller covariance would still be
below the larger, and with its own gain it is smaller than that (`Below.correct`).

A single filter is compared with itself one cycle later. If the first cycle did not
increase its covariance, then it is the smaller filter of the two, and no later cycle
increases it.
-/

namespace PlanarKalman

open Matrix

namespace Filter

variable {K : Type} [Field K] [LinearOrder K] [IsStrictOrderedRing K]

/-- Two filters of the same motion, the first of which is nowhere less sure and is told
of no more noise. -/
structure Below (f g : Filter K) : Prop where
  transition_eq : f.model.transition = g.model.transition
  observation_eq : f.model.observation = g.model.observation
  smaller : f.IsSound
  larger : g.IsSound
  covariance : Semidefinite (g.covariance.toMatrix - f.covariance.toMatrix)
  processNoise : Semidefinite (g.model.processNoise.toMatrix - f.model.processNoise.toMatrix)
  measurementNoise :
    Semidefinite (g.model.measurementNoise.toMatrix - f.model.measurementNoise.toMatrix)

namespace Below

variable {f g : Filter K}

theorem predict (h : Below f g) : Below f.predict g.predict := by
  refine ⟨h.transition_eq, h.observation_eq, h.smaller.predict, h.larger.predict, ?_,
    h.processNoise, h.measurementNoise⟩
  rw [toMatrix_predict_covariance, toMatrix_predict_covariance, ← h.transition_eq]
  exact h.covariance.congruence_add_sub h.processNoise _

theorem innovationCovariance (h : Below f g) :
    Semidefinite (g.innovationCovariance.toMatrix - f.innovationCovariance.toMatrix) := by
  rw [toMatrix_innovationCovariance, toMatrix_innovationCovariance, ← h.observation_eq]
  exact h.covariance.congruence_add_sub h.measurementNoise _

/-- Where the smaller filter can weigh a reading, the larger one can. -/
theorem exists_innovationInverse (h : Below f g) {inverse : Mat 2 2 K}
    (hinv : f.innovationInverse? = some inverse) :
    ∃ inverse', g.innovationInverse? = some inverse' := by
  obtain ⟨hdet, -⟩ := innovationInverse?_eq_some_iff.mp hinv
  have hsmaller := semidefinite_innovationCovariance h.smaller.belief h.smaller.measurementNoise
  exact Filter.exists_innovationInverse
    (hsmaller.det_ne_zero_of_le h.innovationCovariance hdet)

/-- The gap after a reading: what was there before, seen through the gain of the larger
filter, and what that gain costs the smaller filter, for which it is not the best. -/
theorem correct (h : Below f g) {inverse inverse' : Mat 2 2 K}
    (hinv : f.innovationInverse? = some inverse) (z z' : Point K) :
    Below (f.correct z inverse) (g.correct z' inverse') := by
  refine ⟨h.transition_eq, h.observation_eq, h.smaller.correct z inverse,
    h.larger.correct z' inverse', ?_, h.processNoise, h.measurementNoise⟩
  -- both covariances are written with the gain of the larger filter
  let L := (g.gain inverse').toMatrix
  let G := (f.gain inverse).toMatrix
  let rest := 1 - L * f.model.observation.toMatrix
  have hsmaller : (f.correct z inverse).covariance.toMatrix
      = rest * f.covariance.toMatrix * restᵀ + L * f.model.measurementNoise.toMatrix * Lᵀ
        - (L - G) * f.innovationCovariance.toMatrix * (L - G)ᵀ :=
    eq_sub_of_add_eq
      (joseph_eq_add h.smaller.belief h.smaller.measurementNoise hinv z L).symm
  have hlarger : (g.correct z' inverse').covariance.toMatrix
      = rest * g.covariance.toMatrix * restᵀ + L * g.model.measurementNoise.toMatrix * Lᵀ := by
    rw [correct_covariance h.larger.belief h.larger.measurementNoise, toMatrix_posterior,
      ← h.observation_eq]
  have hnoise : Semidefinite (L * g.model.measurementNoise.toMatrix * Lᵀ
      - L * f.model.measurementNoise.toMatrix * Lᵀ) := by
    rw [← mul_sub_mul_transpose]
    exact h.measurementNoise.congruence L
  have hinnovation :=
    semidefinite_innovationCovariance h.smaller.belief h.smaller.measurementNoise
  rw [hsmaller, hlarger, sub_sub_eq_add_sub, add_sub_right_comm]
  exact (h.covariance.congruence_add_sub hnoise rest).add (hinnovation.congruence (L - G))

end Below

/-! ## The same calls to both filters -/

/-- One filter below the other, and both wait for the same call. -/
structure InStep (f g : Filter K) : Prop extends Below f g where
  strict_eq : f.config.strict = g.config.strict
  phase_eq : f.phase = g.phase

namespace InStep

variable {f g : Filter K}

theorem predict (h : InStep f g) : InStep f.predict g.predict :=
  ⟨h.toBelow.predict, h.strict_eq, rfl⟩

theorem attempt (h : InStep f g) (z z' : Point K)
    (hf : (f.attempt z).2 ≠ .error .singularInnovation) :
    InStep (f.attempt z).1 (g.attempt z').1 ∧
      (g.attempt z').2 ≠ .error .singularInnovation := by
  have hsame := admitsUpdate_congr h.strict_eq h.phase_eq
  cases hupdate : f.update z with
  | ok next =>
      obtain ⟨hadmits, inverse, hinv, rfl⟩ := update_eq_ok_iff.mp hupdate
      obtain ⟨inverse', hinv'⟩ := h.exists_innovationInverse hinv
      have hupdate' : g.update z' = .ok (g.correct z' inverse') :=
        update_eq_ok_iff.mpr ⟨hsame ▸ hadmits, inverse', hinv', rfl⟩
      rw [attempt_of_ok hupdate, attempt_of_ok hupdate']
      exact ⟨⟨h.toBelow.correct hinv z z', h.strict_eq, rfl⟩, nofun⟩
  | error e =>
      rcases update_eq_error_iff.mp hupdate with ⟨hrefused, rfl⟩ | ⟨-, -, rfl⟩
      · have hupdate' : g.update z' = .error .outOfSequence :=
          update_eq_error_iff.mpr (Or.inl ⟨hsame ▸ hrefused, rfl⟩)
        rw [attempt_of_error hupdate, attempt_of_error hupdate']
        exact ⟨h, nofun⟩
      · rw [attempt_of_error hupdate] at hf
        exact absurd rfl hf

theorem call (h : InStep f g) {c d : Call K} (hcd : c.SameKind d)
    (hf : (f.call c).2 ≠ some (.error .singularInnovation)) :
    InStep (f.call c).1 (g.call d).1 ∧ (g.call d).2 ≠ some (.error .singularInnovation) := by
  obtain ⟨φ, rfl⟩ := hcd.exists_reread
  refine call_lift (fun g c => g.call (c.reread φ)) (fun _ _ => rfl)
    (S := fun p q => p.2 ≠ some (.error .singularInnovation) →
      InStep p.1 q.1 ∧ q.2 ≠ some (.error .singularInnovation))
    (fun _ _ hfg => ⟨hfg.predict, fun _ => ⟨hfg.predict, nofun⟩⟩) (fun _ _ z hfg hz => ?_) h c hf
  obtain ⟨hnext, hanswer⟩ := hfg.attempt z (φ z) fun e => hz (congrArg some e)
  exact ⟨hnext, fun e => hanswer (Option.some.inj e)⟩

/-- The filters stay in step for as long as the smaller one can weigh its readings, and
then the larger one can weigh its own. -/
theorem after (h : InStep f g) {calls calls' : List (Call K)}
    (hcalls : List.Forall₂ Call.SameKind calls calls')
    (hf : ∀ answer ∈ f.outcomes calls, answer ≠ some (.error .singularInnovation)) :
    (∀ answer ∈ g.outcomes calls', answer ≠ some (.error .singularInnovation)) ∧
      ∀ n, InStep (f.after (calls.take n)) (g.after (calls'.take n)) := by
  induction hcalls generalizing f g with
  | nil => exact ⟨hf, fun n => by simpa using h⟩
  | @cons c d rest rest' hcd hrest ih =>
      obtain ⟨hc, hlater⟩ := List.forall_mem_cons.mp hf
      obtain ⟨hnext, hd⟩ := h.call hcd hc
      obtain ⟨hlater', hafter⟩ := ih hnext hlater
      refine ⟨List.forall_mem_cons.mpr ⟨hd, hlater'⟩, fun n => ?_⟩
      cases n with
      | zero => exact h
      | succ n => exact hafter n

end InStep

/-! ## Cycles of one filter -/

section Cycles

variable {α : Type} [Scalar α]

/-- One cycle: a prediction, and a reading that is taken in. -/
def Cycle (f f' : Filter α) : Prop := ∃ z, f.predict.update z = .ok f'

/-- A step is a cycle when it can weigh its reading. -/
theorem cycle_step {f : Filter α} (h : f.predict.innovationInverse?.isSome = true)
    (z : Point α) : Cycle f (f.step z).1 := ⟨z, update_predict_of_isSome h z⟩

end Cycles

/-- The second filter is nowhere less sure than the first. -/
def Narrows (f f' : Filter K) : Prop :=
  Semidefinite (f.covariance.toMatrix - f'.covariance.toMatrix) ∧
    f'.covariance.toMatrix.trace ≤ f.covariance.toMatrix.trace

variable {f f' f'' : Filter K}

theorem Cycle.isSound (h : Cycle f f') (hf : f.IsSound) : f'.IsSound := by
  obtain ⟨z, hupdate⟩ := h
  obtain ⟨-, inverse, -, rfl⟩ := update_eq_ok_iff.mp hupdate
  exact hf.predict.correct z inverse

/-- After a cycle that did not increase the covariance, the next one does not. The filter
after the first cycle is below the filter before it, and a cycle keeps that. -/
theorem Cycle.narrows (hf : f.IsSound) (h : Cycle f f') (h' : Cycle f' f'')
    (hle : Semidefinite (f.covariance.toMatrix - f'.covariance.toMatrix)) :
    Semidefinite (f'.covariance.toMatrix - f''.covariance.toMatrix) := by
  have hf' := h.isSound hf
  obtain ⟨z, hupdate⟩ := h
  obtain ⟨z', hupdate'⟩ := h'
  obtain ⟨-, inverse, -, rfl⟩ := update_eq_ok_iff.mp hupdate
  obtain ⟨-, inverse', hinv', rfl⟩ := update_eq_ok_iff.mp hupdate'
  have hbelow : Below (f.predict.correct z inverse) f :=
    ⟨rfl, rfl, hf', hf, hle, Semidefinite.sub_self _, Semidefinite.sub_self _⟩
  exact (hbelow.predict.correct hinv' z' z).covariance

theorem isChain_narrows (hf : f.IsSound) {later : List (Filter K)}
    (hcycles : List.IsChain Cycle (f :: f' :: later))
    (hle : Semidefinite (f.covariance.toMatrix - f'.covariance.toMatrix)) :
    List.IsChain Narrows (f :: f' :: later) := by
  induction later generalizing f f' with
  | nil => exact .cons_cons ⟨hle, hle.trace_le⟩ (.singleton f')
  | cons f'' rest ih =>
      obtain ⟨h, hrest⟩ := List.isChain_cons_cons.mp hcycles
      have h' := (List.isChain_cons_cons.mp hrest).1
      exact .cons_cons ⟨hle, hle.trace_le⟩ (ih (h.isSound hf) hrest (h.narrows hf h' hle))

variable [SmallestEigenvalue K]

/-- A filter that starts no less sure than another and is told of no more noise stays no
less sure, and the other can weigh its readings whenever it can. So once a cycle has not
increased the covariance of a filter, no cycle that follows increases it. -/
theorem covariance_monotone {config config' : FilterConfig K} {g : Filter K}
    (hf : create config = .ok f) (hg : create config' = .ok g)
    (htime : config.timestep = config'.timestep) (hstrict : config.strict = config'.strict)
    (hsound : f.IsSound) (hsound' : g.IsSound)
    (hP : Semidefinite (g.covariance.toMatrix - f.covariance.toMatrix))
    (hQ : Semidefinite (g.model.processNoise.toMatrix - f.model.processNoise.toMatrix))
    (hR : Semidefinite
      (g.model.measurementNoise.toMatrix - f.model.measurementNoise.toMatrix)) :
    (∀ calls calls', List.Forall₂ Call.SameKind calls calls' →
      (∀ answer ∈ f.outcomes calls, answer ≠ some (.error .singularInnovation)) →
      (∀ answer ∈ g.outcomes calls', answer ≠ some (.error .singularInnovation)) ∧
      ∀ n, Semidefinite ((g.after (calls'.take n)).covariance.toMatrix
        - (f.after (calls.take n)).covariance.toMatrix)) ∧
    ∀ calls next later, List.IsChain Cycle (f.after calls :: next :: later) →
      Semidefinite ((f.after calls).covariance.toMatrix - next.covariance.toMatrix) →
      List.IsChain Narrows (f.after calls :: next :: later) := by
  have hstart : InStep f g := by
    obtain ⟨covariances, -, rfl⟩ := create_eq_ok_iff.mp hf
    obtain ⟨covariances', -, rfl⟩ := create_eq_ok_iff.mp hg
    exact ⟨⟨congrArg Motion.transition htime, rfl, hsound, hsound', hP, hQ, hR⟩, hstrict, rfl⟩
  constructor
  · intro calls calls' hcalls hanswers
    obtain ⟨hanswers', hafter⟩ := hstart.after hcalls hanswers
    exact ⟨hanswers', fun n => (hafter n).covariance⟩
  · intro calls next later hcycles hle
    exact isChain_narrows (hsound.after calls) hcycles hle

/-! ## A filter that becomes certain, and one that does not

Two readings settle everything for the smaller filter. Its first cycle takes the
variances of position and velocity from 2 to 0 and 1. -/

def surerConfig : FilterConfig ℚ where
  initialPosition := ⟨0, 0⟩
  initialCovariance := .uniform 2
  measurementNoise := .uniform 0
  processNoise := .acceleration 0
  timestep := 1
  strict := true

def noisyConfig : FilterConfig ℚ :=
  { surerConfig with
    initialCovariance := .uniform 3
    measurementNoise := .uniform 1
    processNoise := .acceleration 1 }

def surerFilter : Filter ℚ :=
  ofCovariances surerConfig
    ⟨Mat.identity.scale 2, Mat.identity.scale 0, Motion.accelerationNoise 1 0⟩

def noisyFilter : Filter ℚ :=
  ofCovariances noisyConfig
    ⟨Mat.identity.scale 3, Mat.identity.scale 1, Motion.accelerationNoise 1 1⟩

def surerNext : Filter ℚ := (surerFilter.step ⟨1, 1⟩).1

/-- An update that is turned away, two cycles and a prediction. -/
def surerCalls : List (Call ℚ) :=
  [.update ⟨1, 1⟩, .predict, .update ⟨1, 1⟩, .step ⟨3, 2⟩, .predict]

theorem covariance_monotone_of_surer :
    letI := leastDiagonal
    create surerConfig = .ok surerFilter ∧ create noisyConfig = .ok noisyFilter ∧
      (∀ answer ∈ noisyFilter.outcomes surerCalls,
        answer ≠ some (.error .singularInnovation)) ∧
      Semidefinite ((noisyFilter.after surerCalls).covariance.toMatrix
        - (surerFilter.after surerCalls).covariance.toMatrix) ∧
      List.IsChain Narrows [surerFilter, surerNext, (surerNext.step ⟨3, 2⟩).1] := by
  let := leastDiagonal
  have hf : create surerConfig = .ok surerFilter := rfl
  have hg : create noisyConfig = .ok noisyFilter := rfl
  have hsound : surerFilter.IsSound := isSound_of_create hf rfl rfl rfl
  have hsound' : noisyFilter.IsSound := isSound_of_create hg rfl rfl rfl
  have hP : noisyFilter.covariance.toMatrix - surerFilter.covariance.toMatrix = 1 := by
    decide +kernel
  have hQ : noisyFilter.model.processNoise.toMatrix - surerFilter.model.processNoise.toMatrix
      = noisyFilter.model.processNoise.toMatrix := by decide +kernel
  have hR : noisyFilter.model.measurementNoise.toMatrix
      - surerFilter.model.measurementNoise.toMatrix = 1 := by decide +kernel
  obtain ⟨hcalls, hcycles⟩ := covariance_monotone hf hg rfl rfl hsound hsound'
    (by rw [hP]; exact Semidefinite.one) (by rw [hQ]; exact hsound'.processNoise)
    (by rw [hR]; exact Semidefinite.one)
  obtain ⟨hanswers, hbelow⟩ := hcalls surerCalls surerCalls
    (.cons (.update _ _) (.cons .predict (.cons (.update _ _) (.cons (.step _ _)
      (.cons .predict .nil))))) (by decide +kernel)
  have hfirst : surerFilter.covariance.toMatrix - surerNext.covariance.toMatrix
      = 1 + Motion.placement * Motion.placementᵀ := by decide +kernel
  have hchain : List.IsChain Cycle [surerFilter, surerNext, (surerNext.step ⟨3, 2⟩).1] :=
    .cons_cons (cycle_step (by decide +kernel) _)
      (.cons_cons (cycle_step (by decide +kernel) _) (.singleton _))
  refine ⟨hf, hg, hanswers, hbelow 5, hcycles [] surerNext _ hchain ?_⟩
  rw [after_nil, hfirst]
  exact Semidefinite.one.add (Semidefinite.mul_transpose _)

end Filter

end PlanarKalman
