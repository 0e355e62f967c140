import PlanarKalman.Proofs.RoundedArithmetic
import PlanarKalman.Proofs.Filter.Protocol

/-!
# Where a rounded covariance is symmetric

In rounded arithmetic a covariance need not be symmetric. A full matrix is taken as it is when it
is symmetric up to the tolerance, and the products of a prediction and of a correction are added
up along the rows, so that an entry and its mirror image are rounded differently. But what a
correction stores is a mean of a matrix and its transpose, and sums commute: there an entry and its
mirror image are one and the same number.

So symmetry is not kept by every call, and no invariant of the filter alone says when it holds.
The history says it: the last estimate is current until a prediction is made (`IsCurrent`), because
updates that fail leave the filter as it is.
-/

namespace PlanarKalman

variable {α : Type}

def Mat.IsSymmetric {n : Nat} (A : Mat n n α) : Prop := ∀ i j, A i j = A j i

instance {n : Nat} [DecidableEq α] (A : Mat n n α) : Decidable A.IsSymmetric :=
  inferInstanceAs (Decidable (∀ _ _, _))

/-- The estimate is the last one that was given, and since then no prediction has been made. Only
updates that fail have come after it. -/
def IsCurrent (estimate : Estimate α) (history : List (Call α × Outcome α)) : Prop :=
  ∃ past call recent, history = past ++ (call, some (.ok estimate)) :: recent ∧
    ∀ entry ∈ recent, entry.1.predicts = false ∧ Outcome.isEstimate entry.2 = false

theorem not_isCurrent_nil (estimate : Estimate α) : ¬ IsCurrent estimate [] := by
  rintro ⟨past, call, recent, h, -⟩
  simp at h

theorem isCurrent_append_singleton {estimate : Estimate α}
    {history : List (Call α × Outcome α)} {c : Call α} {answer : Outcome α} :
    IsCurrent estimate (history ++ [(c, answer)]) ↔
      answer = some (.ok estimate) ∨
      IsCurrent estimate history ∧ c.predicts = false ∧ answer.isEstimate = false := by
  constructor
  · rintro ⟨past, call, recent, h, hrecent⟩
    -- either the last call gave the estimate, or it is one of those that have come after it
    rcases List.eq_nil_or_concat recent with rfl | ⟨recent', entry, rfl⟩
    · obtain ⟨-, hlast⟩ := List.append_inj' h rfl
      exact Or.inl (Prod.mk.inj (List.singleton_inj.mp hlast)).2
    · rw [List.concat_eq_append] at h hrecent
      rw [← List.cons_append, ← List.append_assoc] at h
      obtain ⟨rfl, hlast⟩ := List.append_inj' h rfl
      obtain rfl := List.singleton_inj.mp hlast
      obtain ⟨hbefore, hafter⟩ := List.forall_mem_append.mp hrecent
      exact Or.inr ⟨⟨past, call, recent', rfl, hbefore⟩, hafter _ (List.mem_singleton_self _)⟩
  · rintro (rfl | ⟨⟨past, call, recent, rfl, hrecent⟩, hc, hanswer⟩)
    · exact ⟨history, c, [], rfl, List.forall_mem_nil _⟩
    · refine ⟨past, call, recent ++ [(c, answer)], by simp,
        List.forall_mem_append.mpr ⟨hrecent, ?_⟩⟩
      rw [List.forall_mem_singleton]
      exact ⟨hc, hanswer⟩

variable [Scalar α]

theorem Mat.isSymmetric_symmetricPart (hcomm : ∀ a b : α, a + b = b + a) {n : Nat}
    (A : Mat n n α) : A.symmetricPart.IsSymmetric := by
  intro i j
  rw [symmetricPart, scale_apply, scale_apply, add_apply, add_apply, transpose_apply,
    transpose_apply, hcomm (A i j)]

namespace Filter

/-! ## One call -/

/-- What an estimate says is what the filter holds, and comes from a correction. -/
theorem call_of_estimate (hcomm : ∀ a b : α, a + b = b + a) {f : Filter α} {c : Call α}
    {estimate : Estimate α} (h : (f.call c).2 = some (.ok estimate)) :
    (f.call c).1.covariance = estimate.covariance ∧ estimate.covariance.IsSymmetric := by
  obtain ⟨g, z, -, hattempt⟩ := exists_attempt h
  rcases g.attempt_cases z with ⟨inverse, -, heq⟩ | ⟨e, heq⟩
  · obtain ⟨hnext, hanswer⟩ := Prod.mk.inj (heq.symm.trans hattempt)
    obtain rfl := Except.ok.inj hanswer
    rw [← hnext]
    exact ⟨rfl, Mat.isSymmetric_symmetricPart hcomm _⟩
  · cases congrArg Prod.snd (heq.symm.trans hattempt)

/-- A call that neither predicts nor gives an estimate is an update that fails. -/
theorem call_of_failed_update {f : Filter α} {c : Call α} (hc : c.predicts = false)
    (hanswer : (f.call c).2.isEstimate = false) : (f.call c).1 = f := by
  cases c with
  | predict => cases hc
  | step z => cases hc
  | update z =>
      have hfailed : Outcome.isEstimate (some (f.attempt z).2) = false := hanswer
      rcases f.attempt_cases z with ⟨inverse, -, heq⟩ | ⟨e, heq⟩
      · rw [heq] at hfailed
        cases hfailed
      · exact congrArg Prod.fst heq

/-! ## Runs -/

theorem covariance_of_isCurrent (hcomm : ∀ a b : α, a + b = b + a) {f : Filter α}
    {calls : List (Call α)} {estimate : Estimate α} (h : IsCurrent estimate (f.history calls)) :
    (f.after calls).covariance = estimate.covariance ∧ estimate.covariance.IsSymmetric := by
  induction calls using List.reverseRecOn with
  | nil => exact absurd h (not_isCurrent_nil estimate)
  | append_singleton rest c ih =>
      rw [history_append_singleton, isCurrent_append_singleton] at h
      rw [after_append_singleton]
      rcases h with hanswer | ⟨hrest, hc, hanswer⟩
      · exact call_of_estimate hcomm hanswer
      · rw [call_of_failed_update hc hanswer]
        exact ih hrest

theorem getElem?_outcomes {f : Filter α} {calls : List (Call α)} {n : Nat} {answer : Outcome α}
    (h : (f.outcomes calls)[n]? = some answer) :
    ∃ c, f.after (calls.take (n + 1)) = ((f.after (calls.take n)).call c).1 ∧
      ((f.after (calls.take n)).call c).2 = answer := by
  induction calls generalizing f n with
  | nil => cases h
  | cons c rest ih =>
      cases n with
      | zero => exact ⟨c, rfl, Option.some.inj h⟩
      | succ n => exact ih h

/-! ## Binary64 numbers -/

/-- Each estimate that a run gives is exactly symmetric, and its covariance is that of the filter
until the next prediction, however many updates fail. Nothing is asked of what the filter starts
from. -/
theorem estimates_symmetric (f : Filter Float) (calls : List (Call Float)) :
    (∀ n estimate, (f.outcomes calls)[n]? = some (some (.ok estimate)) →
      (∀ i j, estimate.covariance i j = estimate.covariance j i) ∧
      (f.after (calls.take (n + 1))).covariance = estimate.covariance) ∧
    ∀ estimate, IsCurrent estimate (f.history calls) →
      (f.after calls).covariance = estimate.covariance ∧
      ∀ i j, (f.after calls).covariance i j = (f.after calls).covariance j i := by
  constructor
  · intro n estimate h
    obtain ⟨c, hafter, hanswer⟩ := getElem?_outcomes h
    obtain ⟨hcovariance, hsymmetric⟩ := call_of_estimate float_add_comm hanswer
    rw [hafter]
    exact ⟨hsymmetric, hcovariance⟩
  · intro estimate h
    obtain ⟨hcovariance, hsymmetric⟩ := covariance_of_isCurrent float_add_comm h
    rw [hcovariance]
    exact ⟨rfl, hsymmetric⟩

/-! ## A filter that does not start symmetric

Its first covariance is symmetric up to the tolerance only, and a prediction does not mend that. -/

def lopsidedStart : Mat 4 4 Float :=
  Mat.ofFn fun i j => if i = j then 4 else if i.val = 0 ∧ j.val = 1 then 1e-10 else 0

def lopsidedConfig : FilterConfig Float where
  initialPosition := ⟨1, 2⟩
  initialCovariance := .full 4 4 lopsidedStart
  measurementNoise := .uniform 3
  processNoise := .acceleration 0.1
  timestep := 0.1
  strict := true

def lopsidedFilter : Filter Float :=
  ofCovariances lopsidedConfig
    ⟨lopsidedStart, Mat.identity.scale 3, Motion.accelerationNoise 0.1 0.1⟩

/-- The update is turned away. -/
def lopsidedCalls : List (Call Float) := [.step ⟨1.5, 2.5⟩, .update ⟨1, 1⟩]

theorem estimates_symmetric_of_lopsided :
    create lopsidedConfig = .ok lopsidedFilter ∧
      ¬ lopsidedFilter.covariance.IsSymmetric ∧ ¬ lopsidedFilter.predict.covariance.IsSymmetric ∧
      ∃ estimate, lopsidedFilter.outcomes lopsidedCalls
          = [some (.ok estimate), some (.error .outOfSequence)] ∧
        estimate.covariance.IsSymmetric ∧
        (lopsidedFilter.after lopsidedCalls).covariance = estimate.covariance := by
  have hf : create lopsidedConfig = .ok lopsidedFilter := by
    refine create_eq_ok_iff.mpr
      ⟨_, FilterConfig.resolve_eq_ok_iff.mpr ⟨?_, ?_, ?_, ?_, ?_⟩, rfl⟩ <;> decide +kernel
  have hinverse : lopsidedFilter.predict.innovationInverse?.isSome = true := by decide +kernel
  obtain ⟨estimate, hestimate⟩ := step_ok_of_isSome hinverse ⟨1.5, 2.5⟩
  have hupdate : ((lopsidedFilter.step ⟨1.5, 2.5⟩).1.call (.update ⟨1, 1⟩)).2
      = some (.error .outOfSequence) := by decide +kernel
  have hstep : lopsidedFilter.step ⟨1.5, 2.5⟩
      = ((lopsidedFilter.step ⟨1.5, 2.5⟩).1, .ok estimate) := by rw [← hestimate]
  have houtcomes : lopsidedFilter.outcomes lopsidedCalls
      = [some (.ok estimate), some (.error .outOfSequence)] := by
    rw [lopsidedCalls, outcomes_step_cons hstep, outcomes, hupdate, outcomes]
  have hcurrent : IsCurrent estimate (lopsidedFilter.history lopsidedCalls) := by
    rw [history, houtcomes]
    exact ⟨[], .step ⟨1.5, 2.5⟩, [(.update ⟨1, 1⟩, some (.error .outOfSequence))], rfl,
      List.forall_mem_singleton.mpr ⟨rfl, rfl⟩⟩
  obtain ⟨hestimates, hrun⟩ := estimates_symmetric lopsidedFilter lopsidedCalls
  obtain ⟨hsymmetric, -⟩ := hestimates 0 estimate (by rw [houtcomes]; rfl)
  exact ⟨hf, by decide +kernel, by decide +kernel, estimate, houtcomes, hsymmetric,
    (hrun estimate hcurrent).1⟩

end Filter

end PlanarKalman
