import Mathlib.Data.List.Induction
import PlanarKalman.Proofs.Filter.Creation
import PlanarKalman.Proofs.Filter.Runs

/-!
# The order of calls

A filter alternates between predicting and taking in a reading. What it waits for
is told by its history, the calls with their answers: an update is awaited when a
prediction has been made and no reading has been taken in since. Only a strict
filter insists on the order, and what it turns away has no effect, so it is the
permissive filter on the calls that were not turned away.

An update that fails leaves the filter as it is, also when it fails because the
innovation covariance is singular; the update is then still awaited and a strict
filter lets it be tried again. A step that fails has predicted all the same.

All of this is about which calls do something, not about numbers, so it holds over
any number system.
-/

namespace PlanarKalman

variable {α : Type}

/-! ## Histories -/

/-- Is the belief moved on by a time step, alone or before a reading is taken in? -/
def Call.predicts : Call α → Bool
  | .predict => true
  | .update _ => false
  | .step _ => true

/-- Has a reading been taken in? -/
def Outcome.isEstimate : Outcome α → Bool
  | some (.ok _) => true
  | _ => false

/-- Has the call been turned away because no update was awaited? -/
def Outcome.isRejection : Outcome α → Bool
  | some (.error .outOfSequence) => true
  | _ => false

theorem Outcome.isRejection_iff {answer : Outcome α} :
    answer.isRejection = true ↔ answer = some (.error .outOfSequence) := by
  unfold isRejection
  split <;> simp_all

/-- A prediction has been made, and no reading has been taken in since. A step makes
its prediction before its reading is taken in. -/
def PredictionOpen (history : List (Call α × Outcome α)) : Prop :=
  ∃ past call answer recent, history = past ++ (call, answer) :: recent ∧
    call.predicts = true ∧ ∀ entry ∈ (call, answer) :: recent, entry.2.isEstimate = false

theorem not_predictionOpen_nil : ¬ PredictionOpen ([] : List (Call α × Outcome α)) := by
  rintro ⟨past, call, answer, recent, h, -⟩
  simp at h

theorem predictionOpen_append_singleton {history : List (Call α × Outcome α)} {c : Call α}
    {answer : Outcome α} :
    PredictionOpen (history ++ [(c, answer)]) ↔
      answer.isEstimate = false ∧ (c.predicts = true ∨ PredictionOpen history) := by
  constructor
  · rintro ⟨past, call, first, recent, h, hcall, hrecent⟩
    -- either the last call made the open prediction, or it came after that
    rcases List.eq_nil_or_concat recent with rfl | ⟨recent', entry, rfl⟩
    · obtain ⟨rfl, hlast⟩ := List.append_inj' h rfl
      obtain ⟨rfl, rfl⟩ := Prod.mk.inj (List.singleton_inj.mp hlast)
      exact ⟨hrecent _ (List.mem_singleton_self _), Or.inl hcall⟩
    · rw [List.concat_eq_append, ← List.cons_append, ← List.append_assoc] at h
      obtain ⟨rfl, hlast⟩ := List.append_inj' h rfl
      obtain rfl := List.singleton_inj.mp hlast
      refine ⟨hrecent (c, answer) (by simp), Or.inr ⟨past, call, first, recent', rfl, hcall, ?_⟩⟩
      intro entry hentry
      refine hrecent entry ?_
      rw [List.concat_eq_append, ← List.cons_append]
      exact List.mem_append_left _ hentry
  · rintro ⟨hanswer, hcall | ⟨past, call, first, recent, rfl, hcall, hrecent⟩⟩
    · exact ⟨history, c, answer, [], rfl, hcall, by simpa using hanswer⟩
    · refine ⟨past, call, first, recent ++ [(c, answer)], by simp, hcall, ?_⟩
      intro entry hentry
      rw [← List.cons_append, List.mem_append, List.mem_singleton] at hentry
      rcases hentry with hentry | rfl
      · exact hrecent entry hentry
      · exact hanswer

namespace Filter

/-- A filter with the same belief that takes readings in at any time. -/
def permissive (f : Filter α) : Filter α :=
  { f with config := { f.config with strict := false } }

theorem admitsUpdate_permissive (f : Filter α) : f.permissive.admitsUpdate = true := rfl

theorem admitsUpdate_eq_false_iff {f : Filter α} :
    f.admitsUpdate = false ↔ f.config.strict = true ∧ f.phase = .awaitingPredict := by
  cases hphase : f.phase <;> simp [admitsUpdate, hphase]

variable [Scalar α]

def history (f : Filter α) (calls : List (Call α)) : List (Call α × Outcome α) :=
  calls.zip (f.outcomes calls)

@[simp] theorem history_nil (f : Filter α) : f.history [] = [] := rfl

@[simp] theorem history_cons (f : Filter α) (c : Call α) (rest : List (Call α)) :
    f.history (c :: rest) = (c, (f.call c).2) :: (f.call c).1.history rest := rfl

theorem history_append_singleton (f : Filter α) (calls : List (Call α)) (c : Call α) :
    f.history (calls ++ [c]) = f.history calls ++ [(c, ((f.after calls).call c).2)] := by
  rw [history, outcomes_append_singleton, List.zip_append (f.length_outcomes calls).symm]
  rfl

/-! ## One call -/

theorem isRejection_attempt (f : Filter α) (z : Point α) :
    Outcome.isRejection (some (f.attempt z).2) = !f.admitsUpdate := by
  cases h : f.update z with
  | ok g =>
      obtain ⟨hadmits, -⟩ := update_eq_ok_iff.mp h
      rw [attempt_of_ok h, hadmits]
      rfl
  | error e =>
      rw [attempt_of_error h]
      rcases update_eq_error_iff.mp h with ⟨hadmits, rfl⟩ | ⟨hadmits, -, rfl⟩ <;>
        rw [hadmits] <;> rfl

theorem attempt_of_answer_error {f : Filter α} {z : Point α} {e : FilterError α}
    (h : (f.attempt z).2 = .error e) : (f.attempt z).1 = f := by
  rcases f.attempt_cases z with ⟨inverse, -, heq⟩ | ⟨e', heq⟩
  · rw [heq] at h
    cases h
  · rw [heq]

theorem attempt_phase_eq_awaitingUpdate_iff {f : Filter α} {z : Point α} :
    (f.attempt z).1.phase = .awaitingUpdate ↔
      Outcome.isEstimate (some (f.attempt z).2) = false ∧ f.phase = .awaitingUpdate := by
  rcases f.attempt_cases z with ⟨inverse, -, heq⟩ | ⟨e, heq⟩
  · rw [heq]
    simp [Outcome.isEstimate, correct]
  · rw [heq]
    simp [Outcome.isEstimate]

theorem call_phase_eq_awaitingUpdate_iff {f : Filter α} {c : Call α} :
    (f.call c).1.phase = .awaitingUpdate ↔
      (f.call c).2.isEstimate = false ∧ (c.predicts = true ∨ f.phase = .awaitingUpdate) := by
  cases c with
  | predict => simp [call, predict, Call.predicts, Outcome.isEstimate]
  | update z =>
      refine attempt_phase_eq_awaitingUpdate_iff.trans (and_congr_right fun _ => ?_)
      simp [Call.predicts]
  | step z =>
      refine attempt_phase_eq_awaitingUpdate_iff.trans (and_congr_right fun _ => ?_)
      simp [Call.predicts, predict]

/-- What an update or a step does to a filter, which insists on the order of calls or
does not: whether it is turned away, and what is left of it when it fails. -/
structure AnswersInOrder (f : Filter α) (strict : Bool) : Prop where
  update_rejected_iff : ∀ z, (f.call (.update z)).2 = some (.error .outOfSequence) ↔
    strict = true ∧ f.phase = .awaitingPredict
  step_not_rejected : ∀ z, (f.call (.step z)).2 ≠ some (.error .outOfSequence)
  update_failed : ∀ z e, (f.call (.update z)).2 = some (.error e) →
    (f.call (.update z)).1 = f
  step_failed : ∀ z e, (f.call (.step z)).2 = some (.error e) →
    (f.call (.step z)).1 = (f.call .predict).1

theorem answersInOrder (f : Filter α) : f.AnswersInOrder f.config.strict where
  update_rejected_iff z := by
    show some (f.attempt z).2 = _ ↔ _
    rw [← Outcome.isRejection_iff, isRejection_attempt, Bool.not_eq_true',
      admitsUpdate_eq_false_iff]
  step_not_rejected z := by
    show some (f.predict.attempt z).2 ≠ _
    rw [Ne, ← Outcome.isRejection_iff, isRejection_attempt, admitsUpdate_predict]
    exact Bool.noConfusion
  update_failed _ _ h := attempt_of_answer_error (Option.some.inj h)
  step_failed _ _ h := attempt_of_answer_error (Option.some.inj h)

/-! ## What is awaited -/

theorem phase_after_eq_awaitingUpdate_iff {f : Filter α} (hphase : f.phase = .awaitingPredict)
    (calls : List (Call α)) :
    (f.after calls).phase = .awaitingUpdate ↔ PredictionOpen (f.history calls) := by
  induction calls using List.reverseRecOn with
  | nil => simp [hphase, not_predictionOpen_nil]
  | append_singleton rest c ih =>
      rw [after_append_singleton, call_phase_eq_awaitingUpdate_iff, history_append_singleton,
        predictionOpen_append_singleton, ih]

theorem config_after (f : Filter α) (calls : List (Call α)) :
    (f.after calls).config = f.config :=
  after_induction (motive := fun g => g.config = f.config) (fun _ h => h)
    (fun _ _ _ _ h => h) rfl calls

/-! ## Strict and permissive filters -/

/-- An update that is not turned away does the same with both filters. -/
theorem attempt_permissive {f : Filter α} (hadmits : f.admitsUpdate = true) (z : Point α) :
    f.permissive.attempt z = ((f.attempt z).1.permissive, (f.attempt z).2) := by
  cases h : f.update z with
  | ok g =>
      obtain ⟨-, inverse, hinv, rfl⟩ := update_eq_ok_iff.mp h
      have h' : f.permissive.update z = .ok (f.correct z inverse).permissive :=
        update_eq_ok_iff.mpr ⟨f.admitsUpdate_permissive, inverse, hinv, rfl⟩
      rw [attempt_of_ok h, attempt_of_ok h']
      rfl
  | error e =>
      rcases update_eq_error_iff.mp h with ⟨hrefused, -⟩ | ⟨-, hinv, rfl⟩
      · rw [hadmits] at hrefused
        cases hrefused
      · have h' : f.permissive.update z = .error .singularInnovation :=
          update_eq_error_iff.mpr (Or.inr ⟨f.admitsUpdate_permissive, hinv, rfl⟩)
        rw [attempt_of_error h, attempt_of_error h']

/-- A call is turned away and does nothing, or it does the same with both filters. -/
theorem call_permissive (f : Filter α) (c : Call α) :
    ((f.call c).2.isRejection = true ∧ (f.call c).1 = f) ∨
    ((f.call c).2.isRejection = false ∧
      f.permissive.call c = ((f.call c).1.permissive, (f.call c).2)) := by
  cases c with
  | predict => exact Or.inr ⟨rfl, rfl⟩
  | update z =>
      have hrejection := f.isRejection_attempt z
      cases hadmits : f.admitsUpdate with
      | false =>
          rw [hadmits] at hrejection
          have hanswer := Option.some.inj (Outcome.isRejection_iff.mp hrejection)
          exact Or.inl ⟨hrejection, attempt_of_answer_error hanswer⟩
      | true =>
          rw [hadmits] at hrejection
          refine Or.inr ⟨hrejection, ?_⟩
          rw [call, attempt_permissive hadmits]
          rfl
  | step z =>
      have hrejection := f.predict.isRejection_attempt z
      rw [f.admitsUpdate_predict] at hrejection
      refine Or.inr ⟨hrejection, ?_⟩
      have hattempt := attempt_permissive f.admitsUpdate_predict z
      rw [call, step, show f.permissive.predict = f.predict.permissive from rfl, hattempt]
      rfl

/-- The history without the calls that were turned away. -/
def keptHistory (f : Filter α) (calls : List (Call α)) : List (Call α × Outcome α) :=
  (f.history calls).filter fun entry => !entry.2.isRejection

/-- The calls that were not turned away. -/
def keptCalls (f : Filter α) (calls : List (Call α)) : List (Call α) :=
  (f.keptHistory calls).map Prod.fst

theorem after_permissive (f : Filter α) (calls : List (Call α)) :
    f.permissive.after (f.keptCalls calls) = (f.after calls).permissive ∧
      f.permissive.history (f.keptCalls calls) = f.keptHistory calls := by
  induction calls generalizing f with
  | nil => exact ⟨rfl, rfl⟩
  | cons c rest ih =>
      rcases f.call_permissive c with ⟨hrejected, hsame⟩ | ⟨hkept, hcall⟩
      -- turned away: the permissive filter is not called, the other stays where it is
      · have hrest : f.keptHistory (c :: rest) = f.keptHistory rest := by
          simp [keptHistory, hrejected, hsame]
        rw [keptCalls, hrest, after_cons, hsame]
        exact ih f
      · have hrest : f.keptHistory (c :: rest)
            = (c, (f.call c).2) :: (f.call c).1.keptHistory rest := by
          simp [keptHistory, hkept]
        obtain ⟨hafter, hhistory⟩ := ih (f.call c).1
        rw [keptCalls, hrest, List.map_cons, after_cons, history_cons, hcall]
        exact ⟨hafter, congrArg _ hhistory⟩

variable [SmallestEigenvalue α] {config : FilterConfig α} {f : Filter α}

theorem create_permissive (hf : create config = .ok f) :
    create { config with strict := false } = .ok f.permissive := by
  obtain ⟨covariances, hres, rfl⟩ := create_eq_ok_iff.mp hf
  exact create_eq_ok_iff.mpr ⟨covariances, hres, rfl⟩

/-- In every reachable state the filter waits for what its history says, has the matrices
and parameters it was made with, and answers in order. What it turns away might as well
not have been called: the permissive filter with otherwise the same parameters does the
same on the calls that are left. -/
theorem call_protocol (hf : create config = .ok f) :
    (∀ calls,
      ((f.after calls).phase = .awaitingUpdate ↔ PredictionOpen (f.history calls)) ∧
      (f.after calls).model = f.model ∧ (f.after calls).config = config ∧
      (f.after calls).AnswersInOrder config.strict) ∧
    ∃ g, create { config with strict := false } = .ok g ∧ ∀ calls,
      (g.after (f.keptCalls calls)).mean = (f.after calls).mean ∧
      (g.after (f.keptCalls calls)).covariance = (f.after calls).covariance ∧
      (g.after (f.keptCalls calls)).phase = (f.after calls).phase ∧
      g.history (f.keptCalls calls) = f.keptHistory calls := by
  obtain ⟨hphase, hconfig⟩ : f.phase = .awaitingPredict ∧ f.config = config := by
    obtain ⟨covariances, -, rfl⟩ := create_eq_ok_iff.mp hf
    exact ⟨rfl, rfl⟩
  refine ⟨fun calls => ?_, f.permissive, create_permissive hf, fun calls => ?_⟩
  · have hcalls : (f.after calls).config = config := by rw [config_after, hconfig]
    have hanswers := (f.after calls).answersInOrder
    rw [hcalls] at hanswers
    exact ⟨phase_after_eq_awaitingUpdate_iff hphase calls, model_after f calls, hcalls, hanswers⟩
  · obtain ⟨hafter, hhistory⟩ := f.after_permissive calls
    rw [hafter]
    exact ⟨rfl, rfl, rfl, hhistory⟩

/-! ## A strict filter that has to try again

Start and sensor have no variance and the motion is uncertain about velocities only, so
the innovation covariance is singular until the second prediction. -/

def hesitantConfig : FilterConfig Float where
  initialPosition := ⟨1, 2⟩
  initialCovariance := .uniform 0
  measurementNoise := .uniform 0
  processNoise := .full 4 4 (Mat.ofFn fun i j => if i.val = j.val ∧ 2 ≤ i.val then 1 else 0)
  timestep := 1
  strict := true

def hesitantFilter : Filter Float :=
  ofCovariances hesitantConfig ⟨Mat.identity.scale 0, Mat.identity.scale 0,
    Mat.ofFn fun i j => if i.val = j.val ∧ 2 ≤ i.val then 1 else 0⟩

/-- Turned away, then two failures, a success, and turned away again. -/
def hesitantCalls : List (Call Float) :=
  [.update ⟨1, 1⟩, .step ⟨1, 1⟩, .update ⟨1, 2⟩, .step ⟨2, 2⟩, .update ⟨0 / 0, 3⟩]

theorem call_protocol_of_hesitant :
    let kept : List (Call Float) := [.step ⟨1, 1⟩, .update ⟨1, 2⟩, .step ⟨2, 2⟩]
    create hesitantConfig = .ok hesitantFilter ∧
      (hesitantFilter.after [.step ⟨1, 1⟩]).phase = .awaitingUpdate ∧
      (∀ z, ((hesitantFilter.after [.step ⟨1, 1⟩]).call (.update z)).2
        ≠ some (.error .outOfSequence)) ∧
      ∃ g, create { hesitantConfig with strict := false } = .ok g ∧
        (g.after kept).mean = (hesitantFilter.after hesitantCalls).mean ∧
        (g.history kept).map Prod.snd
          = (hesitantFilter.keptHistory hesitantCalls).map Prod.snd := by
  intro kept
  have hf : create hesitantConfig = .ok hesitantFilter := by
    refine create_eq_ok_iff.mpr ⟨_, FilterConfig.resolve_eq_ok_iff.mpr ⟨?_, ?_, ?_, ?_, ?_⟩, rfl⟩
    · decide +kernel
    · decide +kernel
    · rfl
    · rfl
    · decide +kernel
  obtain ⟨hreachable, g, hg, hsame⟩ := call_protocol hf
  obtain ⟨hphase, -, -, hanswers⟩ := hreachable [.step ⟨1, 1⟩]
  have hawaits : (hesitantFilter.after [.step ⟨1, 1⟩]).phase = .awaitingUpdate :=
    hphase.mpr ⟨[], .step ⟨1, 1⟩, some (.error .singularInnovation), [], by decide +kernel,
      rfl, by decide⟩
  have hkept : hesitantFilter.keptCalls hesitantCalls = kept := by decide +kernel
  obtain ⟨hmean, -, -, hhistory⟩ := hsame hesitantCalls
  rw [hkept] at hmean hhistory
  refine ⟨hf, hawaits, fun z hrejected => ?_, g, hg, hmean, by rw [hhistory]⟩
  obtain ⟨-, hphase'⟩ := (hanswers.update_rejected_iff z).mp hrejected
  rw [hawaits] at hphase'
  cases hphase'

end Filter

end PlanarKalman
