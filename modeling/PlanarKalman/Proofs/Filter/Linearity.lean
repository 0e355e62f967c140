import PlanarKalman.Proofs.Filter.Covariance
import PlanarKalman.Proofs.Filter.Uncertainty

/-!
# Adding up and shifting what a filter reads

What a filter believes of its target is a weighted sum of where it took the target to be and
of its readings. The weights come from the gains, and the gains from the covariance, in which
no reading appears. So three filters that are made and called alike use the same weights, and
when the third starts from and reads a combination of what the others do, its state is that
combination of theirs (`Superposes`), after calls that fail as well.

The origin of the plane does not matter either. A target at rest stays where it is, and the
sensor sees it there, so the same displacement of the start and of all readings goes through
every prediction and correction as it is (`Shifted`).
-/

namespace PlanarKalman

open Matrix

/-! ## Combined and displaced calls -/

section Calls

variable {α : Type} [Scalar α]

namespace Point

def combine (a b : α) (p q : Point α) : Point α := ⟨a * p.x + b * q.x, a * p.y + b * q.y⟩

def shift (p c : Point α) : Point α := ⟨p.x + c.x, p.y + c.y⟩

end Point

/-- A target elsewhere, with the same velocity. -/
def State.shift (s : State α) (c : Point α) : State α := ⟨s.x + c.x, s.y + c.y, s.vx, s.vy⟩

namespace Call

/-- The call that reads a combination of what two calls of one kind read. -/
def combine (a b : α) : Call α → Call α → Call α
  | .update z, .update w => .update (.combine a b z w)
  | .step z, .step w => .step (.combine a b z w)
  | c, _ => c

def shift (call : Call α) (c : Point α) : Call α :=
  match call with
  | .predict => .predict
  | .update z => .update (z.shift c)
  | .step z => .step (z.shift c)

end Call

/-- An estimate elsewhere, just as sure. -/
def Estimate.shift (e : Estimate α) (c : Point α) : Estimate α := ⟨e.position.shift c, e.covariance⟩

/-- The answer with its estimate elsewhere; an error stays as it is. -/
def Outcome.shift (answer : Outcome α) (c : Point α) : Outcome α :=
  answer.map (Except.map (Estimate.shift · c))

/-- The same filter when it is made with another initial position. -/
def Filter.startingAt (f : Filter α) (p : Point α) : Filter α :=
  { f with
    config := { f.config with initialPosition := p }
    mean := (State.restingAt p).toColumn }

end Calls

variable {K : Type} [Field K] [LinearOrder K]

theorem Point.toMatrix_combine (a b : K) (p q : Point K) :
    (Point.combine a b p q).toColumn.toMatrix
      = a • p.toColumn.toMatrix + b • q.toColumn.toMatrix := by
  ext i j
  fin_cases i <;> simp [Point.combine, Point.toColumn, Mat.column]

theorem Point.toMatrix_shift (p c : Point K) :
    (p.shift c).toColumn.toMatrix = p.toColumn.toMatrix + c.toColumn.toMatrix := by
  ext i j
  fin_cases i <;> simp [Point.shift, Point.toColumn, Mat.column]

/-- A target at rest is its position and nothing else. -/
theorem State.toMatrix_restingAt_eq (p : Point K) :
    (State.restingAt p).toColumn.toMatrix
      = (Motion.placement : Matrix _ _ K) * p.toColumn.toMatrix := by
  ext i j
  rw [Matrix.mul_apply, Fin.sum_univ_two]
  fin_cases i <;> fin_cases j <;>
    simp [State.toColumn, State.restingAt, Motion.placement, Point.toColumn, Mat.column]

namespace Filter

variable {f g h : Filter K} {a b : K}

/-! ## Combinations -/

/-- The third filter, equally sure, believes a combination of what the others do. -/
structure Superposes (a b : K) (f g h : Filter K) : Prop where
  first : SameUncertainty f h
  second : SameUncertainty g h
  mean : h.mean.toMatrix = a • f.mean.toMatrix + b • g.mean.toMatrix

namespace Superposes

theorem predict (s : Superposes a b f g h) : Superposes a b f.predict g.predict h.predict := by
  refine ⟨s.first.predict, s.second.predict, ?_⟩
  rw [toMatrix_predict_mean, toMatrix_predict_mean, toMatrix_predict_mean, s.first.model_eq,
    s.second.model_eq, s.mean, Matrix.mul_add, Matrix.mul_smul, Matrix.mul_smul]

/-- The same gain weighs all three readings. -/
theorem correct (s : Superposes a b f g h) (z w : Point K) (inverse : Mat 2 2 K) :
    Superposes a b (f.correct z inverse) (g.correct w inverse)
      (h.correct (.combine a b z w) inverse) := by
  refine ⟨s.first.correct _ _ _, s.second.correct _ _ _, ?_⟩
  rw [toMatrix_correct_mean, toMatrix_correct_mean, toMatrix_correct_mean, s.first.gain_eq,
    s.second.gain_eq, s.first.model_eq, s.second.model_eq, s.mean, Point.toMatrix_combine]
  simp only [Matrix.mul_add, Matrix.mul_sub, Matrix.mul_smul, smul_add, smul_sub]
  abel

theorem attempt (s : Superposes a b f g h) (z w : Point K) :
    Superposes a b (f.attempt z).1 (g.attempt w).1 (h.attempt (.combine a b z w)).1 := by
  rcases s.first.attempt_cases z (.combine a b z w) with ⟨inverse, hinv, hf, hh⟩ | ⟨e, hf, hh⟩ <;>
    rcases s.second.attempt_cases w (.combine a b z w) with
      ⟨inverse', hinv', hg, hh'⟩ | ⟨e', hg, hh'⟩
  -- the third filter answers once, so the others cannot differ in whether they succeed
  · have hsame : f.innovationInverse? = g.innovationInverse? :=
      s.first.innovationInverse?_eq.trans s.second.innovationInverse?_eq.symm
    obtain rfl : inverse = inverse' := Option.some.inj (hinv.symm.trans (hsame.trans hinv'))
    rw [hf, hg, hh]
    exact s.correct z w inverse
  · cases congrArg Prod.snd (hh.symm.trans hh')
  · cases congrArg Prod.snd (hh.symm.trans hh')
  · rw [hf, hg, hh]
    exact s

theorem call (s : Superposes a b f g h) {c d : Call K} (hcd : c.SameKind d) :
    Superposes a b (f.call c).1 (g.call d).1 (h.call (.combine a b c d)).1 := by
  obtain ⟨φ, rfl⟩ := hcd.exists_reread
  -- the other two filters go along with the first as a pair
  have hpair : Superposes a b f (g, h).1 (g, h).2 := s
  exact call_lift
    (fun q c => (((q.1.call (c.reread φ)).1, (q.2.call (.combine a b c (c.reread φ))).1), ()))
    (fun _ _ => rfl) (R := fun f q => Superposes a b f q.1 q.2)
    (S := fun p q => Superposes a b p.1 q.1.1 q.1.2)
    (fun _ _ hs => ⟨hs.predict, hs.predict⟩) (fun _ _ z hs => hs.attempt z (φ z)) hpair c

theorem after (s : Superposes a b f g h) {calls calls' : List (Call K)}
    (hcalls : List.Forall₂ Call.SameKind calls calls') :
    Superposes a b (f.after calls) (g.after calls')
      (h.after (List.zipWith (Call.combine a b) calls calls')) := by
  induction hcalls generalizing f g h with
  | nil => exact s
  | cons hcd _ ih => exact ih (s.call hcd)

end Superposes

/-! ## Displacements -/

/-- The second filter, equally sure, takes the target to be elsewhere, with the same
velocity. The motion leaves a target at rest where it is, and the sensor sees it there. -/
structure Shifted (c : Point K) (f g : Filter K) : Prop where
  sameUncertainty : SameUncertainty f g
  stays : f.model.transition.toMatrix * (Motion.placement : Matrix _ _ K) = Motion.placement
  sees : f.model.observation.toMatrix * (Motion.placement : Matrix _ _ K) = 1
  mean : g.mean.toMatrix
    = f.mean.toMatrix + (Motion.placement : Matrix _ _ K) * c.toColumn.toMatrix

namespace Shifted

variable {c : Point K}

theorem state_eq (s : Shifted c f g) : g.state = f.state.shift c := by
  have hmean : ∀ i, g.mean i 0
      = f.mean i 0 + ((Motion.placement : Matrix _ _ K) * c.toColumn.toMatrix) i 0 :=
    fun i => congrFun (congrFun s.mean i) 0
  simp [state, State.ofColumn, State.shift, Mat.component, hmean, Motion.placement,
    Matrix.mul_apply, Fin.sum_univ_two, Point.toColumn, Mat.column]

theorem estimate_eq (s : Shifted c f g) : g.estimate = f.estimate.shift c := by
  rw [estimate, s.state_eq, ← s.sameUncertainty.covariance_eq]
  rfl

theorem predict (s : Shifted c f g) : Shifted c f.predict g.predict := by
  refine ⟨s.sameUncertainty.predict, s.stays, s.sees, ?_⟩
  rw [toMatrix_predict_mean, toMatrix_predict_mean, ← s.sameUncertainty.model_eq, s.mean,
    Matrix.mul_add, ← Matrix.mul_assoc, s.stays]

/-- The difference between reading and expectation is as before. -/
theorem correct (s : Shifted c f g) (z : Point K) (inverse : Mat 2 2 K) :
    Shifted c (f.correct z inverse) (g.correct (z.shift c) inverse) := by
  refine ⟨s.sameUncertainty.correct _ _ _, s.stays, s.sees, ?_⟩
  have hdifference : (z.shift c).toColumn.toMatrix - f.model.observation.toMatrix * g.mean.toMatrix
      = z.toColumn.toMatrix - f.model.observation.toMatrix * f.mean.toMatrix := by
    rw [Point.toMatrix_shift, s.mean, Matrix.mul_add, ← Matrix.mul_assoc, s.sees, Matrix.one_mul,
      add_sub_add_right_eq_sub]
  rw [toMatrix_correct_mean, toMatrix_correct_mean, ← s.sameUncertainty.gain_eq,
    ← s.sameUncertainty.model_eq, hdifference, s.mean, add_right_comm]

theorem attempt (s : Shifted c f g) (z : Point K) :
    Shifted c (f.attempt z).1 (g.attempt (z.shift c)).1 ∧
      (f.attempt z).2.map (Estimate.shift · c) = (g.attempt (z.shift c)).2 := by
  rcases s.sameUncertainty.attempt_cases z (z.shift c) with
    ⟨inverse, -, hf, hg⟩ | ⟨e, hf, hg⟩
  · have hnext := s.correct z inverse
    rw [hf, hg]
    exact ⟨hnext, congrArg Except.ok hnext.estimate_eq.symm⟩
  · rw [hf, hg]
    exact ⟨s, rfl⟩

theorem call (s : Shifted c f g) (d : Call K) :
    Shifted c (f.call d).1 (g.call (d.shift c)).1 ∧
      Outcome.shift (f.call d).2 c = (g.call (d.shift c)).2 := by
  refine call_lift (fun g d => g.call (Call.shift d c)) (fun _ _ => rfl)
    (S := fun p q => Shifted c p.1 q.1 ∧ Outcome.shift p.2 c = q.2)
    (fun _ _ hfg => ⟨hfg.predict, hfg.predict, rfl⟩) (fun _ _ z hfg => ?_) s d
  obtain ⟨hnext, hanswer⟩ := hfg.attempt z
  exact ⟨hnext, congrArg some hanswer⟩

theorem after (s : Shifted c f g) (calls : List (Call K)) :
    Shifted c (f.after calls) (g.after (calls.map (Call.shift · c))) ∧
      (f.outcomes calls).map (Outcome.shift · c) = g.outcomes (calls.map (Call.shift · c)) :=
  after_map (fun _ _ d hfg => hfg.call d) s calls

end Shifted

/-! ## Created filters -/

theorem sameUncertainty_startingAt (f : Filter K) (p q : Point K) :
    SameUncertainty (f.startingAt p) (f.startingAt q) :=
  ⟨rfl, rfl, rfl, rfl⟩

theorem superposes_startingAt (f : Filter K) (a b : K) (p q : Point K) :
    Superposes a b (f.startingAt p) (f.startingAt q) (f.startingAt (.combine a b p q)) := by
  refine ⟨sameUncertainty_startingAt .., sameUncertainty_startingAt .., ?_⟩
  simp only [startingAt, State.toMatrix_restingAt_eq, Point.toMatrix_combine, Matrix.mul_add,
    Matrix.mul_smul]

section Created

variable [SmallestEigenvalue K] {config : FilterConfig K}

/-- Exact positions are all finite, so parameters pass with any of them. -/
theorem create_startingAt (hf : create config = .ok f) (p : Point K) :
    create { config with initialPosition := p } = .ok (f.startingAt p) := by
  obtain ⟨covariances, hres, rfl⟩ := create_eq_ok_iff.mp hf
  obtain ⟨htime, -, hP, hR, hQ⟩ := FilterConfig.resolve_eq_ok_iff.mp hres
  have hfinite : p.isFinite = true := by simp [Point.isFinite]
  exact create_eq_ok_iff.mpr
    ⟨covariances, FilterConfig.resolve_eq_ok_iff.mpr ⟨htime, hfinite, hP, hR, hQ⟩, rfl⟩

theorem shifted_startingAt (hf : create config = .ok f) (c p : Point K) :
    Shifted c (f.startingAt p) (f.startingAt (p.shift c)) := by
  obtain ⟨covariances, -, rfl⟩ := create_eq_ok_iff.mp hf
  refine ⟨sameUncertainty_startingAt .., Motion.transition_mul_placement _,
    Motion.observation_mul_placement, ?_⟩
  simp only [startingAt, State.toMatrix_restingAt_eq, Point.toMatrix_shift, Matrix.mul_add]

/-- What a filter believes is linear in where it starts and what it reads, taken together.
When both are displaced, so are its positions, and nothing else changes. -/
theorem runs_superpose (hf : create config = .ok f) :
    (∀ p, create { config with initialPosition := p } = .ok (f.startingAt p)) ∧
    (∀ a b p q calls calls', List.Forall₂ Call.SameKind calls calls' →
      ((f.startingAt (.combine a b p q)).after
          (List.zipWith (Call.combine a b) calls calls')).mean.toMatrix
        = a • ((f.startingAt p).after calls).mean.toMatrix
          + b • ((f.startingAt q).after calls').mean.toMatrix) ∧
    ∀ c p calls, let displaced := calls.map (Call.shift · c)
      ((f.startingAt (p.shift c)).after displaced).state
        = ((f.startingAt p).after calls).state.shift c ∧
      ((f.startingAt (p.shift c)).after displaced).covariance
        = ((f.startingAt p).after calls).covariance ∧
      ((f.startingAt (p.shift c)).after displaced).phase
        = ((f.startingAt p).after calls).phase ∧
      (f.startingAt (p.shift c)).outcomes displaced
        = ((f.startingAt p).outcomes calls).map (Outcome.shift · c) := by
  refine ⟨create_startingAt hf, fun a b p q calls calls' hcalls => ?_, fun c p calls => ?_⟩
  · exact ((superposes_startingAt f a b p q).after hcalls).mean
  · obtain ⟨hafter, houtcomes⟩ := (shifted_startingAt hf c p).after calls
    exact ⟨hafter.state_eq, hafter.sameUncertainty.covariance_eq.symm,
      hafter.sameUncertainty.phase_eq.symm, houtcomes.symm⟩

end Created

/-- The first update fails in every one of the runs. -/
theorem runs_superpose_of_certain :
    letI := leastDiagonal
    let calls : List (Call ℚ) := [.update ⟨1, 1⟩, .step ⟨3, -1⟩, .predict, .update ⟨0, 5⟩]
    let calls' : List (Call ℚ) := [.update ⟨0, 2⟩, .step ⟨4, 4⟩, .predict, .update ⟨1, 1⟩]
    create certainConfig = .ok certainFilter ∧
      List.Forall₂ Call.SameKind calls calls' ∧
      (certainFilter.outcomes calls).head? = some (some (.error .singularInnovation)) ∧
      ((certainFilter.startingAt ⟨2, 1⟩).after
          [.update ⟨2, 0⟩, .step ⟨2, -6⟩, .predict, .update ⟨-1, 9⟩]).mean.toMatrix
        = (2 : ℚ) • (certainFilter.after calls).mean.toMatrix
          + (-1 : ℚ) • ((certainFilter.startingAt ⟨0, 3⟩).after calls').mean.toMatrix ∧
      (certainFilter.startingAt ⟨4, -2⟩).outcomes
          [.update ⟨4, -3⟩, .step ⟨6, -5⟩, .predict, .update ⟨3, 1⟩]
        = (certainFilter.outcomes calls).map (Outcome.shift · ⟨3, -4⟩) := by
  let := leastDiagonal
  have hf : create certainConfig = .ok certainFilter := rfl
  have hcalls : List.Forall₂ Call.SameKind
      [.update ⟨1, 1⟩, .step ⟨3, -1⟩, .predict, .update ⟨0, 5⟩]
      ([.update ⟨0, 2⟩, .step ⟨4, 4⟩, .predict, .update ⟨1, 1⟩] : List (Call ℚ)) :=
    .cons (.update ..) (.cons (.step ..) (.cons .predict (.cons (.update ..) .nil)))
  have hstart : Point.combine 2 (-1) ⟨1, 2⟩ ⟨0, 3⟩ = (⟨2, 1⟩ : Point ℚ) := by decide +kernel
  have hdisplacedStart : Point.shift ⟨1, 2⟩ ⟨3, -4⟩ = (⟨4, -2⟩ : Point ℚ) := by decide +kernel
  obtain ⟨-, hlinear, hdisplaced⟩ := runs_superpose hf
  have hsum := hlinear 2 (-1) ⟨1, 2⟩ ⟨0, 3⟩ _ _ hcalls
  obtain ⟨-, -, -, houtcomes⟩ := hdisplaced ⟨3, -4⟩ ⟨1, 2⟩
    [.update ⟨1, 1⟩, .step ⟨3, -1⟩, .predict, .update ⟨0, 5⟩]
  rw [hstart] at hsum
  rw [hdisplacedStart] at houtcomes
  refine ⟨hf, hcalls, by decide +kernel, Eq.trans ?_ hsum, Eq.trans ?_ houtcomes⟩
  · congr 3
    decide +kernel
  · congr 1
    decide +kernel

end Filter

end PlanarKalman
