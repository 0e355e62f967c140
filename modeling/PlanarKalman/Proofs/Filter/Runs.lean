import Mathlib.Data.List.Forall2
import PlanarKalman.Filter.Call

/-!
# Runs of a filter

A run is a list of calls. What a call can do is said once, by the inversion
lemmas for `update` and `attempt`: it predicts, it corrects with an inverse of
the innovation covariance, or it leaves the filter as it is and answers with an
error. Whatever predicting and correcting keep, every run keeps
(`after_induction`), and two filters that each pair of calls keeps related stay
related and answer alike for as long as the calls match (`after_related`,
`after_map`).

A step is nothing but a prediction and then an update. So what a filter has to do
with anything that is called along with it, another filter or a target, is kept by
every call as soon as predictions and attempted updates keep it (`call_lift`).
-/

namespace PlanarKalman

namespace Filter

variable {α β : Type} [Scalar α] [Scalar β]

/-! ## Single calls -/

omit [Scalar α] [Scalar β] in
theorem admitsUpdate_congr {f : Filter α} {g : Filter β}
    (hstrict : f.config.strict = g.config.strict) (hphase : f.phase = g.phase) :
    f.admitsUpdate = g.admitsUpdate := by
  rw [admitsUpdate, admitsUpdate, hstrict, hphase]

theorem admitsUpdate_predict (f : Filter α) : f.predict.admitsUpdate = true := by
  simp [admitsUpdate, predict]

theorem update_eq_ok_iff {f g : Filter α} {z : Point α} :
    f.update z = .ok g ↔ f.admitsUpdate = true ∧
      ∃ inverse, f.innovationInverse? = some inverse ∧ f.correct z inverse = g := by
  unfold update
  split
  · rename_i hadmits
    cases hinv : f.innovationInverse? with
    | none => simp
    | some inverse => simp [hadmits]
  · rename_i hadmits
    simp [hadmits]

theorem update_eq_error_iff {f : Filter α} {z : Point α} {e : FilterError α} :
    f.update z = .error e ↔
      (f.admitsUpdate = false ∧ e = .outOfSequence) ∨
      (f.admitsUpdate = true ∧ f.innovationInverse? = none ∧ e = .singularInnovation) := by
  unfold update
  split
  · rename_i hadmits
    cases hinv : f.innovationInverse? with
    | none => simp [hadmits, eq_comm]
    | some inverse => simp [hadmits]
  · rename_i hadmits
    simp [hadmits, eq_comm]

theorem attempt_of_ok {f g : Filter α} {z : Point α} (h : f.update z = .ok g) :
    f.attempt z = (g, .ok g.estimate) := by
  rw [attempt, h]

theorem attempt_of_error {f : Filter α} {z : Point α} {e : FilterError α}
    (h : f.update z = .error e) : f.attempt z = (f, .error e) := by
  rw [attempt, h]

/-- After a prediction an update is awaited, so only the innovation covariance counts. -/
theorem update_predict {f : Filter α} {inverse : Mat 2 2 α}
    (hinv : f.predict.innovationInverse? = some inverse) (z : Point α) :
    f.predict.update z = .ok (f.predict.correct z inverse) :=
  update_eq_ok_iff.mpr ⟨f.admitsUpdate_predict, inverse, hinv, rfl⟩

theorem update_predict_of_isSome {f : Filter α}
    (hinv : f.predict.innovationInverse?.isSome = true) (z : Point α) :
    f.predict.update z = .ok (f.step z).1 := by
  obtain ⟨inverse, hinverse⟩ := Option.isSome_iff_exists.mp hinv
  have hupdate := update_predict hinverse z
  rw [step, attempt_of_ok hupdate, hupdate]

theorem step_ok_of_isSome {f : Filter α} (hinv : f.predict.innovationInverse?.isSome = true)
    (z : Point α) : ∃ estimate, (f.step z).2 = .ok estimate := by
  rw [step, attempt_of_ok (update_predict_of_isSome hinv z)]
  exact ⟨_, rfl⟩

/-- An attempted update corrects the filter or leaves it as it is. -/
theorem attempt_cases (f : Filter α) (z : Point α) :
    (∃ inverse, f.innovationInverse? = some inverse ∧
      f.attempt z = (f.correct z inverse, .ok (f.correct z inverse).estimate)) ∨
    ∃ e, f.attempt z = (f, .error e) := by
  cases h : f.update z with
  | ok g =>
      obtain ⟨-, inverse, hinv, rfl⟩ := update_eq_ok_iff.mp h
      exact Or.inl ⟨inverse, hinv, attempt_of_ok h⟩
  | error e => exact Or.inr ⟨e, attempt_of_error h⟩

/-- A call that gives an answer attempts an update, with or without a prediction before it. -/
theorem exists_attempt {f : Filter α} {c : Call α}
    {answer : Except (FilterError α) (Estimate α)} (h : (f.call c).2 = some answer) :
    ∃ g z, (g = f ∨ g = f.predict) ∧ g.attempt z = ((f.call c).1, answer) := by
  cases c with
  | predict => cases h
  | update z => exact ⟨f, z, Or.inl rfl, Prod.ext rfl (Option.some.inj h)⟩
  | step z => exact ⟨f.predict, z, Or.inr rfl, Prod.ext rfl (Option.some.inj h)⟩

/-- What holds of a filter and of what goes along with it from call to call (`next`), where a
step is a prediction and then an update as well: if predictions keep `R`, and predictions and
attempts under `R` come out as `S` says, every call does. -/
theorem call_lift {σ υ : Type} (next : σ → Call α → σ × υ)
    (hstep : ∀ s z, next s (.step z) = next (next s .predict).1 (.update z))
    {R : Filter α → σ → Prop} {S : Filter α × Outcome α → σ × υ → Prop}
    (hpredict : ∀ f s, R f s →
      R f.predict (next s .predict).1 ∧ S (f.predict, none) (next s .predict))
    (hattempt : ∀ f s z, R f s →
      S ((f.attempt z).1, some (f.attempt z).2) (next s (.update z)))
    {f : Filter α} {s : σ} (h : R f s) (c : Call α) : S (f.call c) (next s c) := by
  cases c with
  | predict => exact (hpredict f s h).2
  | update z => exact hattempt f s z h
  | step z =>
      rw [hstep]
      exact hattempt _ _ z (hpredict f s h).1

/-! ## Runs -/

@[simp] theorem after_nil (f : Filter α) : f.after [] = f := rfl

@[simp] theorem after_cons (f : Filter α) (c : Call α) (rest : List (Call α)) :
    f.after (c :: rest) = (f.call c).1.after rest := rfl

theorem after_append_singleton (f : Filter α) (calls : List (Call α)) (c : Call α) :
    f.after (calls ++ [c]) = ((f.after calls).call c).1 := by
  rw [after, List.foldl_append]
  rfl

theorem length_outcomes (f : Filter α) (calls : List (Call α)) :
    (f.outcomes calls).length = calls.length := by
  induction calls generalizing f with
  | nil => rfl
  | cons c rest ih => exact congrArg (· + 1) (ih _)

theorem outcomes_append_singleton (f : Filter α) (calls : List (Call α)) (c : Call α) :
    f.outcomes (calls ++ [c]) = f.outcomes calls ++ [((f.after calls).call c).2] := by
  induction calls generalizing f with
  | nil => rfl
  | cons d rest ih => exact congrArg _ (ih _)

/-- What a prediction and a correction keep, every run keeps: a call does
nothing else to a filter. -/
theorem after_induction {motive : Filter α → Prop}
    (hpredict : ∀ f, motive f → motive f.predict)
    (hcorrect : ∀ f z inverse, f.innovationInverse? = some inverse → motive f →
      motive (f.correct z inverse))
    {f : Filter α} (hf : motive f) (calls : List (Call α)) : motive (f.after calls) := by
  have hattempt : ∀ g z, motive g → motive (g.attempt z).1 := by
    intro g z hg
    rcases g.attempt_cases z with ⟨inverse, hinv, heq⟩ | ⟨e, heq⟩
    · rw [heq]
      exact hcorrect g z inverse hinv hg
    · rw [heq]
      exact hg
  induction calls generalizing f with
  | nil => exact hf
  | cons c rest ih =>
      refine ih ?_
      cases c with
      | predict => exact hpredict f hf
      | update z => exact hattempt f z hf
      | step z => exact hattempt f.predict z (hpredict f hf)

/-- No call changes the matrices that the filter applies. -/
theorem model_after (f : Filter α) (calls : List (Call α)) :
    (f.after calls).model = f.model :=
  after_induction (motive := fun g => g.model = f.model) (fun _ h => h)
    (fun _ _ _ _ h => h) rfl calls

/-- Two filters stay related, and their answers are, when every pair of matching
calls keeps them so. -/
theorem after_related {R : Filter α → Filter β → Prop} {C : Call α → Call β → Prop}
    {A : Outcome α → Outcome β → Prop}
    (hcall : ∀ f g c d, R f g → C c d →
      R (f.call c).1 (g.call d).1 ∧ A (f.call c).2 (g.call d).2)
    {f : Filter α} {g : Filter β} (hfg : R f g)
    {calls : List (Call α)} {calls' : List (Call β)} (hcalls : List.Forall₂ C calls calls') :
    R (f.after calls) (g.after calls') ∧
      List.Forall₂ A (f.outcomes calls) (g.outcomes calls') := by
  induction hcalls generalizing f g with
  | nil => exact ⟨hfg, .nil⟩
  | @cons c d rest rest' hcd hrest ih =>
      obtain ⟨hnext, hanswer⟩ := hcall f g c d hfg hcd
      obtain ⟨hafter, houtcomes⟩ := ih hnext
      exact ⟨hafter, .cons hanswer houtcomes⟩

/-- The same, when the calls of the second filter and its answers are given by those of the
first. -/
theorem after_map {R : Filter α → Filter β → Prop} {C : Call α → Call β}
    {A : Outcome α → Outcome β}
    (hcall : ∀ f g c, R f g → R (f.call c).1 (g.call (C c)).1 ∧ A (f.call c).2 = (g.call (C c)).2)
    {f : Filter α} {g : Filter β} (hfg : R f g) (calls : List (Call α)) :
    R (f.after calls) (g.after (calls.map C)) ∧
      (f.outcomes calls).map A = g.outcomes (calls.map C) := by
  induction calls generalizing f g with
  | nil => exact ⟨hfg, rfl⟩
  | cons c rest ih =>
      obtain ⟨hnext, hanswer⟩ := hcall f g c hfg
      obtain ⟨hafter, houtcomes⟩ := ih hnext
      exact ⟨hafter, congrArg₂ List.cons hanswer houtcomes⟩

/-! ## Steps until one fails

Readings taken in step by step, up to the first that fails. -/

/-- The estimates of the steps before the first failure, and that failure. -/
def steps (f : Filter α) : List (Point α) → List (Estimate α) × Option (FilterError α)
  | [] => ([], none)
  | z :: rest =>
    match f.step z with
    | (next, .ok estimate) => (estimate :: (next.steps rest).1, (next.steps rest).2)
    | (_, .error e) => ([], some e)

theorem steps_cons_of_ok {f g : Filter α} {z : Point α} {estimate : Estimate α}
    (h : f.step z = (g, .ok estimate)) (rest : List (Point α)) :
    f.steps (z :: rest) = (estimate :: (g.steps rest).1, (g.steps rest).2) := by
  rw [steps, h]

theorem steps_cons_of_error {f g : Filter α} {z : Point α} {e : FilterError α}
    (h : f.step z = (g, .error e)) (rest : List (Point α)) :
    f.steps (z :: rest) = ([], some e) := by
  rw [steps, h]

/-- When no step fails, the readings that follow are taken in by the filter as it then
stands. -/
theorem steps_append_of_none {f : Filter α} {readings : List (Point α)}
    {estimates : List (Estimate α)} (h : f.steps readings = (estimates, none))
    (more : List (Point α)) :
    f.steps (readings ++ more)
      = (estimates ++ ((f.after (readings.map .step)).steps more).1,
        ((f.after (readings.map .step)).steps more).2) := by
  induction readings generalizing f estimates with
  | nil =>
      obtain rfl : [] = estimates := congrArg Prod.fst h
      rfl
  | cons z rest ih =>
      rcases hstep : f.step z with ⟨g, e | estimate⟩
      · rw [steps_cons_of_error hstep] at h
        cases h
      · rw [steps_cons_of_ok hstep] at h
        obtain ⟨rfl, hrest⟩ := Prod.mk.inj h
        have hafter : f.after ((z :: rest).map .step) = g.after (rest.map .step) := by
          rw [List.map_cons, after_cons, call, hstep]
        rw [List.cons_append, steps_cons_of_ok hstep, ih (Prod.ext rfl hrest), hafter]
        rfl

/-- A step that fails is the last one, whatever readings would have followed. -/
theorem steps_append_of_some {f : Filter α} {readings : List (Point α)}
    {estimates : List (Estimate α)} {e : FilterError α}
    (h : f.steps readings = (estimates, some e)) (more : List (Point α)) :
    f.steps (readings ++ more) = (estimates, some e) := by
  induction readings generalizing f estimates with
  | nil => cases congrArg Prod.snd h
  | cons z rest ih =>
      rw [List.cons_append]
      rcases hstep : f.step z with ⟨g, e' | estimate⟩
      · rw [steps_cons_of_error hstep] at h ⊢
        exact h
      · rw [steps_cons_of_ok hstep] at h ⊢
        obtain ⟨rfl, hrest⟩ := Prod.mk.inj h
        rw [ih (Prod.ext rfl hrest)]

theorem outcomes_step_cons {f g : Filter α} {z : Point α}
    {answer : Except (FilterError α) (Estimate α)} (h : f.step z = (g, answer))
    (rest : List (Call α)) :
    f.outcomes (.step z :: rest) = some answer :: g.outcomes rest := by
  rw [outcomes, call, h]

/-- The answers to a list of steps begin with the estimates before the first failure.
Then they end, or the failure comes next. -/
theorem steps_eq_iff {f : Filter α} {readings : List (Point α)}
    {estimates : List (Estimate α)} {failure : Option (FilterError α)} :
    f.steps readings = (estimates, failure) ↔ ∃ later,
      f.outcomes (readings.map .step)
        = estimates.map (some ∘ .ok) ++ failure.elim [] fun e => some (.error e) :: later := by
  induction readings generalizing f estimates with
  | nil => cases estimates <;> cases failure <;> simp [steps, outcomes]
  | cons z rest ih =>
      rcases h : f.step z with ⟨g, answer⟩
      rw [List.map_cons, outcomes_step_cons h]
      cases answer with
      | error e =>
          rw [steps_cons_of_error h]
          cases estimates <;> cases failure <;> simp
      | ok estimate =>
          rw [steps_cons_of_ok h]
          cases estimates with
          | nil => cases failure <;> simp
          | cons first others =>
              have hrest := @ih g others
              rw [Prod.ext_iff] at hrest
              simp [← hrest, and_assoc]

theorem steps_eq_none_iff {f : Filter α} {readings : List (Point α)}
    {estimates : List (Estimate α)} :
    f.steps readings = (estimates, none) ↔
      f.outcomes (readings.map .step) = estimates.map (some ∘ .ok) := by
  rw [steps_eq_iff]
  simp

theorem steps_eq_some_iff {f : Filter α} {readings : List (Point α)}
    {estimates : List (Estimate α)} {e : FilterError α} :
    f.steps readings = (estimates, some e) ↔ ∃ later,
      f.outcomes (readings.map .step)
        = estimates.map (some ∘ .ok) ++ some (.error e) :: later := by
  rw [steps_eq_iff]
  rfl

theorem length_of_steps_none {f : Filter α} {readings : List (Point α)}
    {estimates : List (Estimate α)} (h : f.steps readings = (estimates, none)) :
    estimates.length = readings.length := by
  have hlength := congrArg List.length (steps_eq_none_iff.mp h)
  rw [length_outcomes, List.length_map, List.length_map] at hlength
  exact hlength.symm

theorem length_lt_of_steps_some {f : Filter α} {readings : List (Point α)}
    {estimates : List (Estimate α)} {e : FilterError α}
    (h : f.steps readings = (estimates, some e)) : estimates.length < readings.length := by
  obtain ⟨later, hanswers⟩ := steps_eq_some_iff.mp h
  have hlength := congrArg List.length hanswers
  rw [length_outcomes, List.length_map, List.length_append, List.length_map,
    List.length_cons] at hlength
  omega

/-- When none of the first `k` readings makes a step fail, the steps with all readings begin
with the same estimates, and fail later if they do. -/
theorem steps_of_take_none {f : Filter α} {readings : List (Point α)}
    {estimates : List (Estimate α)} {k : Nat}
    (h : f.steps (readings.take k) = (estimates, none)) :
    (f.steps readings).1.take k = estimates ∧
      ∀ e, (f.steps readings).2 = some e → k ≤ (f.steps readings).1.length := by
  have hsteps := steps_append_of_none h (readings.drop k)
  rw [List.take_append_drop] at hsteps
  have hlength := length_of_steps_none h
  rw [hsteps]
  obtain hk | hk := Nat.le_total k readings.length
  · rw [List.length_take, Nat.min_eq_left hk] at hlength
    refine ⟨List.take_left' hlength, fun e _ => ?_⟩
    rw [List.length_append]
    omega
  · rw [List.drop_of_length_le hk]
    rw [List.length_take, Nat.min_eq_right hk] at hlength
    rw [steps, List.append_nil]
    refine ⟨List.take_of_length_le (hlength ▸ hk), fun e he => ?_⟩
    cases he

end Filter

end PlanarKalman
