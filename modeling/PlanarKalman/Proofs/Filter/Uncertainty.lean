import PlanarKalman.Proofs.Filter.Creation
import PlanarKalman.Proofs.Filter.Runs

/-!
# How sure a filter is does not depend on what it reads

The covariance says how sure a filter is of its target. It is computed beside the
mean, in the same calls, but nothing of the mean or of a reading goes into it: two
filters that start equally sure stay equally sure for as long as the same kinds of
calls are made, whatever is read. This holds of the operations themselves, in any
rounding and for readings that are not numbers.

`SameUncertainty` is the relation that every pair of calls keeps. It leaves out the
mean, and of the parameters it has only what a call looks at.
-/

namespace PlanarKalman

variable {α : Type}

/-- Two calls of one kind, with any readings. -/
inductive Call.SameKind : Call α → Call α → Prop
  | predict : SameKind .predict .predict
  | update (z z' : Point α) : SameKind (.update z) (.update z')
  | step (z z' : Point α) : SameKind (.step z) (.step z')

/-- The same call with another reading in the place of its own, if it has one. -/
def Call.reread (φ : Point α → Point α) : Call α → Call α
  | .predict => .predict
  | .update z => .update (φ z)
  | .step z => .step (φ z)

theorem Call.SameKind.exists_reread {c d : Call α} (h : c.SameKind d) :
    ∃ φ, d = c.reread φ := by
  cases h with
  | predict => exact ⟨id, rfl⟩
  | update z z' => exact ⟨fun _ => z', rfl⟩
  | step z z' => exact ⟨fun _ => z', rfl⟩

/-- An answer without the position in it: how sure the estimate is, or the error. -/
def Outcome.uncertainty (answer : Outcome α) :
    Option (Except (FilterError α) (Mat 4 4 α)) :=
  answer.map (Except.map Estimate.covariance)

namespace Filter

/-- Two filters that differ at most in where they take the target to be. -/
structure SameUncertainty (f g : Filter α) : Prop where
  model_eq : f.model = g.model
  strict_eq : f.config.strict = g.config.strict
  covariance_eq : f.covariance = g.covariance
  phase_eq : f.phase = g.phase

namespace SameUncertainty

variable {f g : Filter α}

theorem admitsUpdate_eq (h : SameUncertainty f g) : f.admitsUpdate = g.admitsUpdate :=
  admitsUpdate_congr h.strict_eq h.phase_eq

variable [Scalar α]

theorem predict (h : SameUncertainty f g) : SameUncertainty f.predict g.predict := by
  refine ⟨h.model_eq, h.strict_eq, ?_, rfl⟩
  simp only [Filter.predict, h.model_eq, h.covariance_eq]

theorem innovationInverse?_eq (h : SameUncertainty f g) :
    f.innovationInverse? = g.innovationInverse? := by
  simp only [innovationInverse?, innovationCovariance, h.model_eq, h.covariance_eq]

theorem gain_eq (h : SameUncertainty f g) (inverse : Mat 2 2 α) :
    f.gain inverse = g.gain inverse := by
  rw [gain, gain, h.model_eq, h.covariance_eq]

theorem correct (h : SameUncertainty f g) (z z' : Point α) (inverse : Mat 2 2 α) :
    SameUncertainty (f.correct z inverse) (g.correct z' inverse) := by
  refine ⟨h.model_eq, h.strict_eq, ?_, rfl⟩
  simp only [Filter.correct, posterior, h.gain_eq, h.model_eq, h.covariance_eq]

/-- Two readings are weighed with the same inverse, or turned down for the same reason. -/
theorem attempt_cases (h : SameUncertainty f g) (z z' : Point α) :
    (∃ inverse, f.innovationInverse? = some inverse ∧
      f.attempt z = (f.correct z inverse, .ok (f.correct z inverse).estimate) ∧
      g.attempt z' = (g.correct z' inverse, .ok (g.correct z' inverse).estimate)) ∨
    ∃ e, f.attempt z = (f, .error e) ∧ g.attempt z' = (g, .error e) := by
  cases hf : f.update z with
  | ok next =>
      obtain ⟨hadmits, inverse, hinv, rfl⟩ := update_eq_ok_iff.mp hf
      have hg : g.update z' = .ok (g.correct z' inverse) := update_eq_ok_iff.mpr
        ⟨h.admitsUpdate_eq ▸ hadmits, inverse, h.innovationInverse?_eq ▸ hinv, rfl⟩
      exact Or.inl ⟨inverse, hinv, attempt_of_ok hf, attempt_of_ok hg⟩
  | error e =>
      have hg : g.update z' = .error e := by
        rw [update_eq_error_iff] at hf ⊢
        rwa [← h.admitsUpdate_eq, ← h.innovationInverse?_eq]
      exact Or.inr ⟨e, attempt_of_error hf, attempt_of_error hg⟩

/-- An error of one update is the error of the other, and two updates that succeed
leave the filters equally sure. -/
theorem attempt (h : SameUncertainty f g) (z z' : Point α) :
    SameUncertainty (f.attempt z).1 (g.attempt z').1 ∧
      (f.attempt z).2.map Estimate.covariance = (g.attempt z').2.map Estimate.covariance := by
  rcases h.attempt_cases z z' with ⟨inverse, -, hf, hg⟩ | ⟨e, hf, hg⟩
  · have hnext := h.correct z z' inverse
    rw [hf, hg]
    exact ⟨hnext, congrArg Except.ok hnext.covariance_eq⟩
  · rw [hf, hg]
    exact ⟨h, rfl⟩

theorem call (h : SameUncertainty f g) {c d : Call α} (hcd : c.SameKind d) :
    SameUncertainty (f.call c).1 (g.call d).1 ∧
      Outcome.uncertainty (f.call c).2 = Outcome.uncertainty (g.call d).2 := by
  obtain ⟨φ, rfl⟩ := hcd.exists_reread
  refine call_lift (fun g c => g.call (c.reread φ)) (fun _ _ => rfl)
    (S := fun p q => SameUncertainty p.1 q.1 ∧
      Outcome.uncertainty p.2 = Outcome.uncertainty q.2)
    (fun _ _ hfg => ⟨hfg.predict, hfg.predict, rfl⟩) (fun _ _ z hfg => ?_) h c
  obtain ⟨hnext, hanswer⟩ := hfg.attempt z (φ z)
  exact ⟨hnext, congrArg some hanswer⟩

theorem after (h : SameUncertainty f g) {calls calls' : List (Call α)}
    (hcalls : List.Forall₂ Call.SameKind calls calls') :
    SameUncertainty (f.after calls) (g.after calls') ∧
      (f.outcomes calls).map Outcome.uncertainty
        = (g.outcomes calls').map Outcome.uncertainty := by
  obtain ⟨hafter, houtcomes⟩ :=
    after_related (A := fun a b => Outcome.uncertainty a = Outcome.uncertainty b)
      (fun _ _ _ _ hfg hcd => hfg.call hcd) h hcalls
  refine ⟨hafter, ?_⟩
  rw [← List.forall₂_eq_eq_eq, List.forall₂_map_left_iff, List.forall₂_map_right_iff]
  exact houtcomes

/-- Step by step through equally many readings: the same steps succeed, with equally
sure estimates, and the first failure is the same. -/
theorem steps (h : SameUncertainty f g) {readings readings' : List (Point α)}
    (hlength : readings.length = readings'.length) :
    (f.steps readings).1.map Estimate.covariance
        = (g.steps readings').1.map Estimate.covariance ∧
      (f.steps readings).2 = (g.steps readings').2 := by
  induction readings generalizing f g readings' with
  | nil =>
      obtain rfl := List.eq_nil_of_length_eq_zero hlength.symm
      exact ⟨rfl, rfl⟩
  | cons z rest ih =>
      obtain ⟨z', rest', rfl⟩ := List.exists_cons_of_length_eq_add_one hlength.symm
      have hrest : rest.length = rest'.length := Nat.succ.inj hlength
      obtain ⟨hnext, hanswer⟩ := h.predict.attempt z z'
      rcases hf : f.step z with ⟨f', e | estimate⟩ <;>
        rcases hg : g.step z' with ⟨g', e' | estimate'⟩ <;>
          rw [← step, ← step, hf, hg] at hnext hanswer
      · obtain rfl := Except.error.inj hanswer
        rw [steps_cons_of_error hf, steps_cons_of_error hg]
        exact ⟨rfl, rfl⟩
      · cases hanswer
      · cases hanswer
      · obtain ⟨hestimates, hfailure⟩ := ih hnext hrest
        rw [steps_cons_of_ok hf, steps_cons_of_ok hg]
        exact ⟨congrArg₂ List.cons (Except.ok.inj hanswer) hestimates, hfailure⟩

end SameUncertainty

/-- Filters made from parameters that differ at most in the initial position are
equally sure at first. -/
theorem sameUncertainty_of_create [Scalar α] [SmallestEigenvalue α]
    {config config' : FilterConfig α} {f g : Filter α} (hf : create config = .ok f)
    (hg : create config' = .ok g)
    (hconfig : { config with initialPosition := config'.initialPosition } = config') :
    SameUncertainty f g := by
  obtain ⟨covariances, hres, rfl⟩ := create_eq_ok_iff.mp hf
  obtain ⟨covariances', hres', rfl⟩ := create_eq_ok_iff.mp hg
  obtain ⟨-, -, hP, hR, hQ⟩ := FilterConfig.resolve_eq_ok_iff.mp hres
  obtain ⟨-, -, hP', hR', hQ'⟩ := FilterConfig.resolve_eq_ok_iff.mp hres'
  rw [← hconfig] at hP' hR' hQ' ⊢
  have hinitial := Except.ok.inj (hP.symm.trans hP')
  have hmeasurement := Except.ok.inj (hR.symm.trans hR')
  have hprocess := Except.ok.inj (hQ.symm.trans hQ')
  exact ⟨by simp only [ofCovariances, hmeasurement, hprocess], rfl, hinitial, rfl⟩

end Filter

end PlanarKalman
