/-!
# Validation as a sequence of checks

Validation goes through checks in order and stops at the first fault. It lets
something through exactly when every check does: a sequence of two succeeds when
both succeed, and a guard when its condition holds. A sequence of two fails with
the fault of the second only when the first succeeds.
-/

namespace PlanarKalman

namespace Validation

variable {ε ε' α β : Type}

theorem bind_eq_ok_iff {x : Except ε α} {next : α → Except ε β} {b : β} :
    (x >>= next) = .ok b ↔ ∃ a, x = .ok a ∧ next a = .ok b := by
  cases x with
  | error fault => simp [bind, Except.bind]
  | ok a => simp [bind, Except.bind]

theorem bind_eq_error_iff {x : Except ε α} {next : α → Except ε β} {fault : ε} :
    (x >>= next) = .error fault ↔
      x = .error fault ∨ ∃ a, x = .ok a ∧ next a = .error fault := by
  cases x with
  | error fault' => simp [bind, Except.bind]
  | ok a => simp [bind, Except.bind]

theorem exists_ok_of_isOk {x : Except ε α} (h : x.isOk = true) : ∃ a, x = .ok a := by
  cases x with
  | error fault => cases h
  | ok a => exact ⟨a, rfl⟩

theorem pure_eq_ok_iff {a b : α} : (pure a : Except ε α) = .ok b ↔ a = b := by
  simp [pure, Except.pure]

/-- A guard that throws does not get to what follows it. -/
theorem guard_eq_ok_iff {p : Prop} [Decidable p] {fault : ε} {next : Except ε α}
    {skipped : PUnit → Except ε α} {a : α} :
    (if p then next else throw fault >>= skipped) = .ok a ↔ p ∧ next = .ok a := by
  by_cases hp : p
  · simp [hp]
  · simp [hp, bind, Except.bind, throw, throwThe, MonadExceptOf.throw]

theorem discard_eq_ok_iff {x : Except ε α} {u : PUnit} :
    discard x = .ok u ↔ ∃ a, x = .ok a := by
  cases x with
  | error fault => simp [discard, Functor.mapConst, Except.map]
  | ok a => simp [discard, Functor.mapConst, Except.map]

theorem discard_eq_error_iff {x : Except ε α} {fault : ε} :
    discard x = .error fault ↔ x = .error fault := by
  cases x with
  | error fault' => simp [discard, Functor.mapConst, Except.map]
  | ok a => simp [discard, Functor.mapConst, Except.map]

theorem mapError_eq_ok_iff {x : Except ε α} {wording : ε → ε'} {a : α} :
    x.mapError wording = .ok a ↔ x = .ok a := by
  cases x with
  | error fault => exact ⟨nofun, nofun⟩
  | ok b =>
      exact ⟨fun h => congrArg Except.ok (Except.ok.inj h),
        fun h => congrArg Except.ok (Except.ok.inj h)⟩

theorem mapError_eq_error_iff {x : Except ε α} {wording : ε → ε'} {fault : ε'} :
    x.mapError wording = .error fault ↔ ∃ found, x = .error found ∧ wording found = fault := by
  cases x with
  | error found =>
      exact ⟨fun h => ⟨found, rfl, Except.error.inj h⟩,
        fun ⟨_, hfound, hfault⟩ => congrArg Except.error (Except.error.inj hfound ▸ hfault)⟩
  | ok a => exact ⟨nofun, nofun⟩

end Validation

end PlanarKalman
