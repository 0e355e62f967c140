import PlanarKalman.Filter.Basic
import PlanarKalman.Proofs.Validation

/-!
# What validation lets through

A filter is created exactly when its parameters resolve, and then it is known
part by part: the matrices are those of the resolved parameters, the belief is a
target at rest with the initial covariance, and no update is awaited. Each
covariance resolves by itself (`resolve_eq_ok_iff`), so a fact about one of them
does not look at the others.
-/

namespace PlanarKalman

open Validation

variable {α : Type} [Scalar α]

namespace FilterConfig

theorem checkVariance_eq_ok_iff {parameter : CovarianceParameter} {variance : α} {u : Unit} :
    checkVariance parameter variance = .ok u ↔ IsNonNegative variance := by
  unfold checkVariance
  split <;> simp_all

variable [SmallestEigenvalue α]

/-- A single number resolves to that multiple of the identity. -/
theorem resolveCovariance_uniform_eq_ok_iff {parameter : CovarianceParameter} {size : Nat}
    {variance : α} {A : Mat size size α} :
    resolveCovariance parameter size (.uniform variance) = .ok A ↔
      IsNonNegative variance ∧ Mat.identity.scale variance = A := by
  simp only [resolveCovariance, bind_eq_ok_iff, pure_eq_ok_iff, checkVariance_eq_ok_iff,
    exists_const]

/-- A single number resolves to the white-noise covariance of that variance. -/
theorem resolveProcessNoise_acceleration_eq_ok_iff {dt variance : α} {A : Mat 4 4 α} :
    resolveProcessNoise dt (.acceleration variance) = .ok A ↔
      IsNonNegative variance ∧ Motion.accelerationNoise dt variance = A := by
  simp only [resolveProcessNoise, bind_eq_ok_iff, pure_eq_ok_iff, checkVariance_eq_ok_iff,
    exists_const]

/-- A full matrix of the right shape is taken as it is, when it passes the check. -/
theorem resolveFull_eq_ok_iff {parameter : CovarianceParameter} {size rows columns : Nat}
    {entries : Mat rows columns α} {A : Mat size size α} :
    resolveFull parameter size entries = .ok A ↔
      entries.reshape? size size = some A ∧ A.isFinite = true ∧
      checkCovariance parameter A = .ok () := by
  unfold resolveFull
  split
  · rename_i hshape
    simp [hshape]
  · rename_i B hshape
    rw [hshape, Option.some.injEq]
    split
    · rename_i hfinite
      rw [bind_eq_ok_iff]
      constructor
      · rintro ⟨⟨⟩, hcheck, ⟨⟩⟩
        exact ⟨rfl, hfinite, hcheck⟩
      · rintro ⟨rfl, -, hcheck⟩
        exact ⟨(), hcheck, rfl⟩
    · rename_i hfinite
      constructor
      · exact nofun
      · rintro ⟨rfl, htrue, -⟩
        exact absurd htrue hfinite

theorem resolve_eq_ok_iff {c : FilterConfig α} {covariances : Covariances α} :
    c.resolve = .ok covariances ↔
      IsPositive c.timestep ∧ c.initialPosition.isFinite = true ∧
      resolveCovariance .initialCovariance 4 c.initialCovariance = .ok covariances.initial ∧
      resolveCovariance .measurementVariance 2 c.measurementNoise
        = .ok covariances.measurement ∧
      resolveProcessNoise c.timestep c.processNoise = .ok covariances.process := by
  simp only [resolve, guard_eq_ok_iff, bind_eq_ok_iff, pure_eq_ok_iff]
  constructor
  · rintro ⟨htime, hposition, P, hP, R, hR, Q, hQ, rfl⟩
    exact ⟨htime, hposition, hP, hR, hQ⟩
  · rintro ⟨htime, hposition, hP, hR, hQ⟩
    exact ⟨htime, hposition, _, hP, _, hR, _, hQ, rfl⟩

end FilterConfig

namespace Filter

variable [SmallestEigenvalue α]

/-- The filter that resolved parameters give. -/
def ofCovariances (config : FilterConfig α) (covariances : FilterConfig.Covariances α) :
    Filter α where
  config
  model := {
    transition := Motion.transition config.timestep
    processNoise := covariances.process
    observation := Motion.observation
    measurementNoise := covariances.measurement }
  mean := (State.restingAt config.initialPosition).toColumn
  covariance := covariances.initial
  phase := .awaitingPredict

theorem create_eq_ok_iff {config : FilterConfig α} {f : Filter α} :
    create config = .ok f ↔
      ∃ covariances, config.resolve = .ok covariances ∧ ofCovariances config covariances = f := by
  unfold create
  cases config.resolve with
  | error fault => simp
  | ok covariances => simp [ofCovariances]

end Filter

end PlanarKalman
