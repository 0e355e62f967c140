import PlanarKalman.Experiment.Basic
import PlanarKalman.Proofs.Filter.Creation

/-!
# Which experiments there are

An experiment is validated part by part: its walk, its sensor and its filter. What
comes out holds the parameters as they were given and a sensor with the deviation
asked for; the filter that was created on the way is not kept.
-/

namespace PlanarKalman

open Validation

variable {α : Type} [Scalar α]

theorem Sensor.create_eq_ok_iff {deviation : α} {s : Sensor α} :
    Sensor.create deviation = .ok s ↔ IsNonNegative deviation ∧ ⟨deviation⟩ = s := by
  unfold Sensor.create
  split <;> simp_all

namespace Experiment

variable [SmallestEigenvalue α] {config : ExperimentConfig α} {e : Experiment α}

theorem validate_eq_ok_iff :
    validate config = .ok e ↔
      config.walk.validate = .ok () ∧ IsNonNegative config.deviation ∧
      (∃ f, Filter.create config.filter = .ok f) ∧ ⟨config, ⟨config.deviation⟩⟩ = e := by
  simp only [validate, bind_eq_ok_iff, pure_eq_ok_iff, mapError_eq_ok_iff,
    discard_eq_ok_iff, Sensor.create_eq_ok_iff]
  constructor
  · rintro ⟨_, hwalk, _, ⟨hdeviation, rfl⟩, _, hfilter, rfl⟩
    exact ⟨hwalk, hdeviation, hfilter, rfl⟩
  · rintro ⟨hwalk, hdeviation, hfilter, rfl⟩
    exact ⟨(), hwalk, _, ⟨hdeviation, rfl⟩, (), hfilter, rfl⟩

theorem create_eq_ok_iff : (create config).1 = .ok e ↔ validate config = .ok e := by
  unfold create
  cases validate config with
  | error fault => simp
  | ok e' => simp

end Experiment

end PlanarKalman
