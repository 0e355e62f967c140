import PlanarKalman.Proofs.Experiment.Tracking
import PlanarKalman.Proofs.Filter.Uncertainty

/-!
# How sure a run is does not depend on what it tracks

Two runs with filters that start equally sure take the same number of steps. They
come to the end of their true positions equally sure of the target, or they fail
at the same step with the same error, whatever the true positions are, whatever
noise is drawn and however much of it the sensors add.
-/

namespace PlanarKalman

variable {ρ τ α : Type} [Scalar α]

/-- Reports of two runs that took the same way through their true positions. -/
inductive Report.EndAlike (report : Report ρ α) (report' : Report τ α)
    (truths truths' : List (Point α)) : Prop
  | completed {tracked tracked' : Tracked α} :
      report.result = .ok tracked → report'.result = .ok tracked' →
      tracked.final.map Estimate.covariance = tracked'.final.map Estimate.covariance →
      EndAlike report report' truths truths'
  | failed {step : Nat} {e : FilterError α} : step < truths.length →
      report.result = .error (.filter e) → report.unread = truths.drop (step + 1) →
      report'.result = .error (.filter e) → report'.unread = truths'.drop (step + 1) →
      EndAlike report report' truths truths'

namespace Experiment

variable [SquareRoot α] [NormalSource ρ α] [NormalSource τ α]

theorem follow_endAlike {f g : Filter α} (h : f.SameUncertainty g) (sensor sensor' : Sensor α)
    (events events' : Array (Event α)) (noise : ρ) (noise' : τ)
    {truths truths' : List (Point α)} (hlength : truths.length = truths'.length) :
    (follow sensor f .empty events noise truths).EndAlike
      (follow sensor' g .empty events' noise' truths') truths truths' := by
  have hreadings : (sensor.readings noise truths).length
      = (sensor'.readings noise' truths').length := by
    rw [Sensor.length_readings, Sensor.length_readings, hlength]
  obtain ⟨hestimates, hfailure⟩ := h.steps hreadings
  rcases hf : f.steps (sensor.readings noise truths) with ⟨estimates, failure⟩
  rcases hg : g.steps (sensor'.readings noise' truths') with ⟨estimates', failure'⟩
  rw [hf, hg] at hestimates hfailure
  obtain rfl : failure = failure' := hfailure
  cases failure with
  | none =>
      obtain ⟨hresult, -, -, hsteps⟩ := follow_of_steps_none hf .empty events
      obtain ⟨hresult', -, -, hsteps'⟩ := follow_of_steps_none hg .empty events'
      have hfinal := (Tracked.isRecordOf_pushAll_zip
        (sensor.length_readings noise truths) hsteps).final_eq
      have hfinal' := (Tracked.isRecordOf_pushAll_zip
        (sensor'.length_readings noise' truths') hsteps').final_eq
      refine .completed hresult hresult' ?_
      rw [hfinal, hfinal', ← List.getLast?_map, ← List.getLast?_map]
      exact congrArg List.getLast? hestimates
  | some e =>
      obtain ⟨hresult, -, hunread, hstep⟩ := follow_of_steps_some hf .empty events
      obtain ⟨hresult', -, hunread', -⟩ := follow_of_steps_some hg .empty events'
      have hsteps : estimates.length = estimates'.length := by
        simpa only [List.length_map] using congrArg List.length hestimates
      rw [← hsteps] at hunread'
      exact .failed hstep hresult hunread hresult' hunread'

/-- Filters whose parameters differ at most in the initial position are equally sure
after the same kinds of calls and answer with the same errors, whatever they read. So
runs with such filters end alike, whatever they track. -/
theorem uncertainty_independent_of_data [SmallestEigenvalue α] {config config' : FilterConfig α}
    {f f' : Filter α} (hf : Filter.create config = .ok f)
    (hf' : Filter.create config' = .ok f')
    (hconfig : { config with initialPosition := config'.initialPosition } = config') :
    (∀ calls calls', List.Forall₂ Call.SameKind calls calls' →
      (f.after calls).covariance = (f'.after calls').covariance ∧
      (f.after calls).phase = (f'.after calls').phase ∧
      (f.outcomes calls).map Outcome.uncertainty
        = (f'.outcomes calls').map Outcome.uncertainty) ∧
    ∀ e e' : Experiment α, e.config.filter = config → e'.config.filter = config' →
      ∀ (truths truths' : List (Point α)) (noise : ρ) (noise' : τ),
        truths.length = truths'.length →
        (e.track truths noise).EndAlike (e'.track truths' noise') truths truths' := by
  have h := Filter.sameUncertainty_of_create hf hf' hconfig
  constructor
  · intro calls calls' hcalls
    obtain ⟨hafter, houtcomes⟩ := h.after hcalls
    exact ⟨hafter.covariance_eq, hafter.phase_eq, houtcomes⟩
  · rintro e e' rfl rfl truths truths' noise noise' hlength
    rw [track_eq_follow hf, track_eq_follow hf']
    exact follow_endAlike h _ _ _ _ noise noise' hlength

/-- The run that becomes certain, with another start and more noise. -/
def noisierConfig : ExperimentConfig Float :=
  { noiselessConfig with
    deviation := 3
    filter := { noiselessConfig.filter with initialPosition := ⟨3, -4⟩ } }

def noisierFilter : Filter Float :=
  Filter.ofCovariances noisierConfig.filter
    ⟨Mat.identity.scale 1, Mat.identity.scale 0, Motion.accelerationNoise 1 0⟩

/-- No true position of the second run is a pair of finite numbers. -/
theorem uncertainty_independent_of_data_of_noiseless :
    Filter.create noiselessConfig.filter = .ok noiselessFilter ∧
      Filter.create noisierConfig.filter = .ok noisierFilter ∧
      (noiselessFilter.after [.step ⟨1, 0⟩, .update ⟨2, 1⟩]).covariance
        = (noisierFilter.after [.step ⟨0 / 0, 1 / 0⟩, .update ⟨-1 / 0, 0 / 0⟩]).covariance ∧
      (track ⟨noisierConfig, ⟨3⟩⟩
        [⟨0 / 0, 1⟩, ⟨1 / 0, 0 / 0⟩, ⟨0 / 0, 0 / 0⟩, ⟨0, -1 / 0⟩] (Replay.mk [])).result
          = .error (.filter .singularInnovation) := by
  have hf : Filter.create noiselessConfig.filter = .ok noiselessFilter := rfl
  have hf' : Filter.create noisierConfig.filter = .ok noisierFilter := rfl
  obtain ⟨hcalls, hruns⟩ :=
    uncertainty_independent_of_data (ρ := Replay) (τ := Replay) hf hf' rfl
  obtain ⟨hcovariance, -, -⟩ := hcalls [.step ⟨1, 0⟩, .update ⟨2, 1⟩]
    [.step ⟨0 / 0, 1 / 0⟩, .update ⟨-1 / 0, 0 / 0⟩] (.cons (.step _ _) (.cons (.update _ _) .nil))
  refine ⟨hf, hf', hcovariance, ?_⟩
  have hresult : (track ⟨noiselessConfig, ⟨0.5⟩⟩ noiselessTruths noiselessSource).result
      = .error (.filter .singularInnovation) := by
    obtain ⟨estimates, hsteps, -⟩ := steps_noiseless
    rw [track_eq_follow hf]
    exact (follow_of_steps_some hsteps .empty _).1
  cases hruns ⟨noiselessConfig, ⟨0.5⟩⟩ ⟨noisierConfig, ⟨3⟩⟩ rfl rfl noiselessTruths
      [⟨0 / 0, 1⟩, ⟨1 / 0, 0 / 0⟩, ⟨0 / 0, 0 / 0⟩, ⟨0, -1 / 0⟩] noiselessSource (Replay.mk [])
      rfl with
  | completed hok _ _ => cases hok.symm.trans hresult
  | failed _ herror _ herror' _ => exact herror'.trans (herror.symm.trans hresult)

end Experiment

end PlanarKalman
