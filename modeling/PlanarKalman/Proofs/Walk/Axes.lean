import PlanarKalman.Proofs.Rounding.Negation
import PlanarKalman.Proofs.Walk.Bounds
import PlanarKalman.Proofs.Walk.Session

/-!
# A walk is two walks along the axes

In each step a walk draws one sample for each axis, first for `x` and then for `y`. What
happens on an axis is a motion of its own (`WalkConfig.axis`), in which neither the other axis
nor its samples occur: along `x` the walk follows the samples with even numbers, along `y` those
with odd numbers (`along_motion`). So everything about two walks is a matter of what their
samples on each axis have to do with one another. Walks of which both have the same samples on
one axis agree there, and whoever swaps the samples of the axes swaps the axes.

The rule of an axis is the same on both sides of zero: with negated samples it leads to
negated positions and velocities, and where one walk is cut back to its highest velocity, the
other is cut back to its lowest. Only of zeros it is not said which one comes out.
-/

namespace PlanarKalman

open NormalSource

/-! ## One axis -/

/-- Position and velocity on one axis. -/
structure AxisState (α : Type) where
  position : α
  velocity : α
deriving DecidableEq

namespace State

variable {α : Type}

/-- What a state is on an axis: `x` is the first one and `y` the second. -/
def along (k : Fin 2) (s : State α) : AxisState α := ⟨![s.x, s.y] k, ![s.vx, s.vy] k⟩

/-- The same place, with the names of the axes exchanged. -/
def swap (s : State α) : State α := ⟨s.y, s.x, s.vy, s.vx⟩

theorem along_swap (k : Fin 2) (s : State α) : s.swap.along k = s.along k.rev := by
  fin_cases k <;> rfl

theorem eq_of_along {s t : State α} (h : ∀ k, s.along k = t.along k) : s = t := by
  obtain ⟨hx, hvx⟩ : s.x = t.x ∧ s.vx = t.vx := AxisState.mk.inj (h 0)
  obtain ⟨hy, hvy⟩ : s.y = t.y ∧ s.vy = t.vy := AxisState.mk.inj (h 1)
  cases s
  cases t
  simp only at hx hy hvx hvy
  rw [hx, hy, hvx, hvy]

end State

namespace WalkConfig

variable {ρ τ α : Type} [Scalar α]

/-- The motion on one axis, by the samples that are drawn for it. -/
def axis (c : WalkConfig α) (samples : ℕ → α) : ℕ → AxisState α
  | 0 => ⟨0, 0⟩
  | i + 1 =>
    let a := c.axis samples i
    { position := a.position + a.velocity * c.stepSize
      velocity := clampBetween (-c.maxVelocity) c.maxVelocity
        (a.velocity + samples i * c.stepSize) }

variable [NormalSource ρ α] [NormalSource τ α] {c : WalkConfig α} {source : ρ} {source' : τ}

theorem along_motion (c : WalkConfig α) (source : ρ) (k : Fin 2) (i : ℕ) :
    (c.motion source i).1.along k = c.axis (fun j => sampleAt source (2 * j + k)) i := by
  induction i with
  | zero => fin_cases k <;> rfl
  | succ i ih =>
      -- Two samples belong to each step before this one.
      have hsample : sampleAt (α := α) (c.motion source i).2 k = sampleAt source (2 * i + k) := by
        rw [c.source_motion, sampleAt_advance]
      rw [axis, ← ih, ← hsample]
      fin_cases k <;> rfl

theorem map_along_path (c : WalkConfig α) (source : ρ) (k : Fin 2) :
    (c.path source).map (State.along k)
      = (List.range c.steps).map (c.axis fun j => sampleAt source (2 * j + k)) := by
  rw [path, List.map_map]
  exact List.map_congr_left fun i _ => c.along_motion source k i

theorem path_of_swapped
    (h : ∀ j (k : Fin 2), sampleAt (α := α) source' (2 * j + k) = sampleAt source (2 * j + k.rev)) :
    c.path source' = (c.path source).map State.swap := by
  simp only [path, List.map_map]
  refine List.map_congr_left fun i _ => State.eq_of_along fun k => ?_
  rw [Function.comp_apply, State.along_swap, along_motion, along_motion]
  simp only [h]

end WalkConfig

/-! ## The other side of zero -/

structure State.IsNegation (s t : State Float) : Prop where
  x : PlanarKalman.IsNegation s.x t.x
  y : PlanarKalman.IsNegation s.y t.y
  vx : PlanarKalman.IsNegation s.vx t.vx
  vy : PlanarKalman.IsNegation s.vy t.vy

namespace WalkConfig

variable {ρ τ : Type} [NormalSource ρ Float] [NormalSource τ Float] {c : WalkConfig Float}

theorem axis_isNegation (hbound : 0 < c.maxVelocity) {samples samples' : ℕ → Float}
    (h : ∀ j, IsNegation (samples j) (samples' j)) (i : ℕ) :
    IsNegation (c.axis samples i).position (c.axis samples' i).position ∧
      IsNegation (c.axis samples i).velocity (c.axis samples' i).velocity := by
  induction i with
  | zero => exact ⟨.zero, .zero⟩
  | succ i ih =>
      obtain ⟨hposition, hvelocity⟩ := ih
      exact ⟨hposition.add (hvelocity.mul c.stepSize),
        (hvelocity.add ((h i).mul c.stepSize)).clampBetween hbound⟩

theorem motion_isNegation (hbound : 0 < c.maxVelocity) {source : ρ} {source' : τ}
    (h : ∀ n, sampleAt (α := Float) source' n = -sampleAt source n) (i : ℕ) :
    (c.motion source i).1.IsNegation (c.motion source' i).1 := by
  have haxis : ∀ k : Fin 2,
      IsNegation ((c.motion source i).1.along k).position
        ((c.motion source' i).1.along k).position ∧
      IsNegation ((c.motion source i).1.along k).velocity
        ((c.motion source' i).1.along k).velocity := by
    intro k
    rw [along_motion, along_motion]
    exact axis_isNegation hbound (fun j => .inl (h _)) i
  exact ⟨(haxis 0).1, (haxis 1).1, (haxis 0).2, (haxis 1).2⟩

end WalkConfig

namespace Walk

variable {ρ τ : Type} [NormalSource ρ Float] [NormalSource τ Float]

/-- Along each axis a walk is the motion of that axis by every other sample. So two walks with
the same parameters, compared state by state, are the same along an axis if the samples for that
axis are, whatever the others are; with the samples of each step swapped the axes are swapped;
and with all samples negated each state is negated, also where velocities are cut back to their
bounds. -/
theorem axes_driven_independently {config : WalkConfig Float} {source : ρ} {source' : τ}
    {w : Walk ρ Float} {w' : Walk τ Float} (hw : create config source = .ok w)
    (hw' : create config source' = .ok w') :
    let samples : ℕ → Float := sampleAt source
    let samples' : ℕ → Float := sampleAt source'
    (∀ k : Fin 2, w.states.map (State.along k)
      = (List.range config.steps).map (config.axis fun j => samples (2 * j + k))) ∧
    (∀ k : Fin 2, (∀ j, samples (2 * j + k) = samples' (2 * j + k)) →
      w.states.map (State.along k) = w'.states.map (State.along k)) ∧
    ((∀ j, samples' (2 * j) = samples (2 * j + 1) ∧ samples' (2 * j + 1) = samples (2 * j)) →
      w'.states = w.states.map State.swap) ∧
    ((∀ n, samples' n = -samples n) → List.Forall₂ State.IsNegation w.states w'.states) := by
  obtain ⟨hvalid, rfl⟩ := create_eq_ok_iff.mp hw
  obtain ⟨-, rfl⟩ := create_eq_ok_iff.mp hw'
  obtain ⟨-, -, -, hbound⟩ := WalkConfig.validate_float_iff.mp hvalid
  rw [states_eq_path, states_eq_path]
  refine ⟨config.map_along_path source, fun k h => ?_, fun h => ?_, fun h => ?_⟩
  · have hsamples : (fun j => sampleAt (α := Float) source (2 * j + k))
        = fun j => sampleAt source' (2 * j + k) := funext h
    rw [path, path, WalkConfig.map_along_path, WalkConfig.map_along_path, hsamples]
  · exact WalkConfig.path_of_swapped fun j => Fin.forall_fin_two.mpr (h j)
  · rw [path, path, WalkConfig.path, WalkConfig.path, List.forall₂_map_left_iff,
      List.forall₂_map_right_iff, List.forall₂_same]
    exact fun i _ => WalkConfig.motion_isNegation hbound h i

/-! ## Samples that take turns -/

/-- A source with one sample for each axis. -/
structure Alternating (α : Type) where
  first : α
  second : α

instance {α : Type} : NormalSource (Alternating α) α :=
  ⟨fun s => (s.first, ⟨s.second, s.first⟩)⟩

theorem sampleAt_alternating {α : Type} (s : Alternating α) (j : ℕ) :
    sampleAt (α := α) s (2 * j) = s.first ∧ sampleAt (α := α) s (2 * j + 1) = s.second := by
  have hadvance : advance α s (2 * j) = s := by
    induction j with
    | zero => rfl
    | succ j ih =>
        rw [Nat.mul_succ, ← advance_advance, ih]
        rfl
  rw [← Nat.add_zero (2 * j), ← sampleAt_advance, Nat.add_zero, ← sampleAt_advance, hadvance]
  exact ⟨rfl, rfl⟩

def alternatingWalk (first second : Float) : Walk (Alternating Float) Float :=
  ⟨briefConfig, ⟨first, second⟩⟩

/-- Along `x` every velocity is cut back to its bound, along `y` none is. -/
theorem axes_driven_independently_of_alternating :
    (alternatingWalk 3 (-1)).states = [⟨0, 0, 0, 0⟩, ⟨0, 0, 2, -1⟩, ⟨2, -1, 2, -2⟩] ∧
    (alternatingWalk 3 (-1)).states.map (State.along 0)
      = (alternatingWalk 3 0.5).states.map (State.along 0) ∧
    (alternatingWalk 3 (-1)).states.map (State.along 1)
      = (alternatingWalk 0.5 (-1)).states.map (State.along 1) ∧
    (alternatingWalk (-1) 3).states = (alternatingWalk 3 (-1)).states.map State.swap ∧
    List.Forall₂ State.IsNegation (alternatingWalk 3 (-1)).states
      (alternatingWalk (-3) 1).states := by
  have hcreate : ∀ first second, create briefConfig (Alternating.mk first second)
      = .ok (alternatingWalk first second) := fun _ _ => rfl
  have hsample := fun (first second : Float) => sampleAt_alternating ⟨first, second⟩
  have hindependent := fun first second =>
    axes_driven_independently (hcreate 3 (-1)) (hcreate first second)
  refine ⟨by decide +kernel, (hindependent 3 0.5).2.1 0 fun j => ?_,
    (hindependent 0.5 (-1)).2.1 1 fun j => ?_, (hindependent (-1) 3).2.2.1 fun j => ?_,
    (hindependent (-3) 1).2.2.2 fun n => ?_⟩
  · exact (hsample 3 (-1) j).1.trans (hsample 3 0.5 j).1.symm
  · exact (hsample 3 (-1) j).2.trans (hsample 0.5 (-1) j).2.symm
  · exact ⟨(hsample (-1) 3 j).1.trans (hsample 3 (-1) j).2.symm,
      (hsample (-1) 3 j).2.trans (hsample 3 (-1) j).1.symm⟩
  · have hneg : (-(-1) : Float) = 1 := by decide +kernel
    obtain ⟨j, rfl | rfl⟩ := Nat.even_or_odd' n
    · rw [(hsample _ _ j).1, (hsample _ _ j).1]
    · rw [(hsample _ _ j).2, (hsample _ _ j).2, hneg]

end Walk

end PlanarKalman
