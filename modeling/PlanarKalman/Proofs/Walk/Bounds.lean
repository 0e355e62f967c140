import Mathlib.Tactic.Linarith
import Mathlib.Tactic.Ring
import PlanarKalman.Proofs.Experiment.Failure
import PlanarKalman.Proofs.OrderedField
import PlanarKalman.Proofs.RoundedArithmetic

/-!
# How fast and how far a walk goes

The parameters of a walk are accepted when there is a step and both numbers are finite
and positive. Then there is always an interval to cut a velocity back to, so no step is
impossible, and every velocity that comes out of one is in it.

For rounded numbers the second part needs an argument, because a step may be so large that
the change of the velocity overflows. The change is still a number, and the velocity it is
added to is finite because it is within the bounds: so the sum is a number and can be cut
back. The bound that one step establishes is what the next one relies on.

In exact arithmetic a position is what the velocities before it add up to. The first
velocity is zero, so the walk has not moved after one step, and from there on it moves by
the bound at most.
-/

namespace PlanarKalman

open NormalSource

/-- A source whose samples are all the same. -/
structure Steady (α : Type) where
  sample : α

instance {α : Type} : NormalSource (Steady α) α := ⟨fun s => (s.sample, s)⟩

theorem sampleAt_steady {α : Type} (s : Steady α) (n : Nat) : sampleAt (α := α) s n = s.sample := by
  have hadvance : advance α s n = s := by
    induction n with
    | zero => rfl
    | succ n ih => exact ih
  rw [sampleAt, hadvance]
  rfl

namespace State

variable {ρ α : Type} [Scalar α] [NormalSource ρ α]

theorem advance_vx (stepSize maxVelocity : α) (s : State α) (source : ρ) :
    (s.advance stepSize maxVelocity source).1.vx
      = clampBetween (-maxVelocity) maxVelocity (s.vx + sampleAt source 0 * stepSize) := rfl

theorem advance_vy (stepSize maxVelocity : α) (s : State α) (source : ρ) :
    (s.advance stepSize maxVelocity source).1.vy
      = clampBetween (-maxVelocity) maxVelocity (s.vy + sampleAt source 1 * stepSize) := rfl

end State

/-- A state of a walk is the motion after some number of steps less than its length. -/
theorem WalkConfig.mem_path {ρ α : Type} [Scalar α] [NormalSource ρ α] {c : WalkConfig α}
    {source : ρ} {s : State α} (hs : s ∈ c.path source) : ∃ k, (c.motion source k).1 = s := by
  obtain ⟨k, -, hk⟩ := List.mem_map.mp hs
  exact ⟨k, hk⟩

theorem WalkConfig.map_take_path {ρ α β : Type} [Scalar α] [NormalSource ρ α]
    (c : WalkConfig α) (source : ρ) (view : State α → β) {i : ℕ} (hi : i ≤ c.steps) :
    ((c.path source).take i).map view
      = (List.range i).map fun k => view (c.motion source k).1 := by
  rw [path, ← List.map_take, List.take_range, Nat.min_eq_left hi, List.map_map]
  rfl

/-! ## Rounded numbers -/

section Float

variable {ρ : Type} [NormalSource ρ Float]

theorem WalkConfig.validate_float_iff {c : WalkConfig Float} :
    c.validate = .ok () ↔ 1 ≤ c.steps ∧ (c.stepSize.isFinite = true ∧ 0 < c.stepSize) ∧
      (c.maxVelocity.isFinite = true ∧ 0 < c.maxVelocity) := by
  rw [validate_eq_ok_iff, ← isPositive_float_iff, ← isPositive_float_iff, Nat.one_le_iff_ne_zero]
  exact ⟨fun h => ⟨h.1, h.2, h.3⟩, fun h => ⟨h.1, h.2.1, h.2.2⟩⟩

/-- A number that is at most the bound, on either side of zero. -/
structure IsWithin (bound a : Float) : Prop where
  isNumber : a.isNaN = false
  ge : -bound ≤ a
  le : a ≤ bound

namespace IsWithin

variable {bound a change : Float}

theorem clampBetween (hbound : bound.isFinite = true) (hpos : 0 < bound)
    (ha : a.isNaN = false) : IsWithin bound (clampBetween (-bound) bound a) := by
  obtain ⟨hnumber, hge, hle⟩ := clampBetween_between (isNaN_of_isFinite (isFinite_neg hbound))
    (isNaN_of_isFinite hbound) (neg_le_self hpos) ha
  exact ⟨hnumber, hge, hle⟩

/-- A change that is a number, even an infinity, leaves a number to cut back. -/
theorem add_clampBetween (ha : IsWithin bound a) (hbound : bound.isFinite = true)
    (hpos : 0 < bound) (hchange : change.isNaN = false) :
    IsWithin bound (PlanarKalman.clampBetween (-bound) bound (a + change)) :=
  clampBetween hbound hpos
    (isNaN_add (isFinite_of_between (isFinite_neg hbound) hbound ha.ge ha.le) hchange)

end IsWithin

theorem WalkConfig.advance?_eq_some {c : WalkConfig Float} (hc : c.validate = .ok ())
    (s : State Float) (source : ρ) :
    s.advance? c.stepSize c.maxVelocity source
      = some (s.advance c.stepSize c.maxVelocity source) := by
  obtain ⟨-, -, -, hpos⟩ := validate_float_iff.mp hc
  exact if_pos (neg_le_self hpos)

theorem WalkConfig.motion_isWithin {c : WalkConfig Float} (hc : c.validate = .ok ())
    {source : ρ} (hsamples : ∀ n, (sampleAt (α := Float) source n).isFinite = true) (k : Nat) :
    IsWithin c.maxVelocity (c.motion source k).1.vx ∧
      IsWithin c.maxVelocity (c.motion source k).1.vy := by
  obtain ⟨-, ⟨hstep, -⟩, hfinite, hpos⟩ := validate_float_iff.mp hc
  induction k with
  | zero =>
      have hzero : IsWithin c.maxVelocity 0 := ⟨rfl, neg_le_zero hpos, le_of_lt hpos⟩
      exact ⟨hzero, hzero⟩
  | succ k ih =>
      have hchange : ∀ n, (sampleAt (α := Float) (c.motion source k).2 n * c.stepSize).isNaN
          = false := by
        intro n
        rw [c.source_motion, sampleAt_advance]
        exact isNaN_mul (hsamples _) hstep
      rw [motion, State.advance_vx, State.advance_vy]
      exact ⟨ih.1.add_clampBetween hfinite hpos (hchange 0),
        ih.2.add_clampBetween hfinite hpos (hchange 1)⟩

end Float

/-! ## Exact arithmetic -/

section Exact

variable {K ρ : Type} [Field K] [LinearOrder K] [NormalSource ρ K]

/-- One axis of a walk: it starts at rest in zero, and in each step the position goes on
with the velocity it has. -/
structure MovesAlong (stepSize : K) (x v : ℕ → K) : Prop where
  position_zero : x 0 = 0
  velocity_zero : v 0 = 0
  position_succ : ∀ k, x (k + 1) = x k + v k * stepSize

theorem MovesAlong.position_eq {stepSize : K} {x v : ℕ → K} (h : MovesAlong stepSize x v)
    (k : ℕ) : x k = stepSize * ((List.range k).map v).sum := by
  induction k with
  | zero => simp [h.position_zero]
  | succ k ih =>
      rw [h.position_succ, ih, List.range_succ, List.map_append, List.sum_append, mul_add,
        mul_comm (v k)]
      simp

namespace WalkConfig

theorem movesAlong_x (c : WalkConfig K) (source : ρ) :
    MovesAlong c.stepSize (fun k => (c.motion source k).1.x) fun k => (c.motion source k).1.vx :=
  ⟨rfl, rfl, fun _ => rfl⟩

theorem movesAlong_y (c : WalkConfig K) (source : ρ) :
    MovesAlong c.stepSize (fun k => (c.motion source k).1.y) fun k => (c.motion source k).1.vy :=
  ⟨rfl, rfl, fun _ => rfl⟩

end WalkConfig

variable [IsStrictOrderedRing K]

/-- The first velocity is zero, so the first step leads nowhere. -/
theorem MovesAlong.abs_position_le {stepSize bound : K} {x v : ℕ → K}
    (h : MovesAlong stepSize x v) (hstep : 0 ≤ stepSize) (hv : ∀ k, |v k| ≤ bound) (k : ℕ) :
    |x k| ≤ ((k - 1 : ℕ) : K) * stepSize * bound := by
  induction k with
  | zero => simp [h.position_zero]
  | succ k ih =>
      rcases k with _ | k
      · simp [h.position_succ, h.position_zero, h.velocity_zero]
      · rw [Nat.add_sub_cancel] at ih ⊢
        calc |x (k + 1 + 1)| = |x (k + 1) + v (k + 1) * stepSize| := by rw [h.position_succ]
          _ ≤ |x (k + 1)| + |v (k + 1)| * stepSize := by
              rw [← abs_of_nonneg hstep, ← abs_mul, abs_of_nonneg hstep]
              exact abs_add_le _ _
          _ ≤ (k : K) * stepSize * bound + bound * stepSize :=
              add_le_add ih (mul_le_mul_of_nonneg_right (hv _) hstep)
          _ = ((k + 1 : ℕ) : K) * stepSize * bound := by
              push_cast
              ring

theorem abs_clampBetween_le {bound : K} (hbound : 0 ≤ bound) (a : K) :
    |clampBetween (-bound) bound a| ≤ bound := by
  rw [abs_le]
  by_cases hbelow : a < -bound
  · have hnot : ¬ bound < -bound := by linarith
    simp only [clampBetween, hbelow, hnot, if_true, if_false]
    exact ⟨le_refl _, by linarith⟩
  · by_cases habove : bound < a
    · simp only [clampBetween, hbelow, habove, if_true, if_false]
      exact ⟨by linarith, le_refl _⟩
    · simp only [clampBetween, hbelow, habove, if_false]
      exact ⟨not_lt.mp hbelow, not_lt.mp habove⟩

theorem WalkConfig.abs_velocity_le {c : WalkConfig K} (hmax : 0 ≤ c.maxVelocity) (source : ρ)
    (k : ℕ) :
    |(c.motion source k).1.vx| ≤ c.maxVelocity ∧ |(c.motion source k).1.vy| ≤ c.maxVelocity := by
  cases k with
  | zero =>
      have hzero : |(0 : K)| ≤ c.maxVelocity := by rwa [abs_zero]
      exact ⟨hzero, hzero⟩
  | succ k => exact ⟨abs_clampBetween_le hmax _, abs_clampBetween_le hmax _⟩

/-- The position of state `i` is what the velocities of the states before it add up to, and
it is no further away than `i - 1` steps at full speed. -/
structure State.IsReached (c : WalkConfig K) (states : List (State K)) (i : ℕ) (s : State K) :
    Prop where
  x_eq : s.x = c.stepSize * ((states.take i).map State.vx).sum
  y_eq : s.y = c.stepSize * ((states.take i).map State.vy).sum
  abs_x_le : |s.x| ≤ ((i - 1 : ℕ) : K) * c.stepSize * c.maxVelocity
  abs_y_le : |s.y| ≤ ((i - 1 : ℕ) : K) * c.stepSize * c.maxVelocity

theorem WalkConfig.isReached {c : WalkConfig K} (hc : c.validate = .ok ()) (source : ρ) {i : ℕ}
    {s : State K} (hs : (c.path source)[i]? = some s) : s.IsReached c (c.path source) i := by
  obtain ⟨-, hstep, hmax⟩ := validate_eq_ok_iff.mp hc
  rw [isPositive_iff] at hstep hmax
  have hi : i < c.steps := by
    obtain ⟨hlt, -⟩ := List.getElem?_eq_some_iff.mp hs
    rwa [length_path] at hlt
  obtain rfl : (c.motion source i).1 = s :=
    Option.some.inj ((c.getElem?_path source hi).symm.trans hs)
  constructor
  · rw [c.map_take_path source State.vx hi.le]
    exact (c.movesAlong_x source).position_eq i
  · rw [c.map_take_path source State.vy hi.le]
    exact (c.movesAlong_y source).position_eq i
  · exact (c.movesAlong_x source).abs_position_le hstep.le
      (fun k => (abs_velocity_le hmax.le source k).1) i
  · exact (c.movesAlong_y source).abs_position_le hstep.le
      (fun k => (abs_velocity_le hmax.le source k).2) i

end Exact

namespace Walk

/-- Parameters are accepted when they can be walked with: then every step has an interval
to cut the velocity back to, and with samples that are finite every velocity is a number
within its bounds, also when a change of it overflows. In exact arithmetic a position is the
sum of the velocities before it, times the step, and so it is bounded as well. -/
theorem stays_within_bounds (config : WalkConfig Float) :
    (config.validate = .ok () ↔ 1 ≤ config.steps ∧
      (config.stepSize.isFinite = true ∧ 0 < config.stepSize) ∧
      (config.maxVelocity.isFinite = true ∧ 0 < config.maxVelocity)) ∧
    (config.validate = .ok () → ∀ {ρ : Type} [NormalSource ρ Float] (source : ρ),
      (∀ n, (sampleAt (α := Float) source n).isFinite = true) →
      (∀ (s : State Float) (source : ρ),
        s.advance? config.stepSize config.maxVelocity source
          = some (s.advance config.stepSize config.maxVelocity source)) ∧
      ∀ s ∈ (Walk.mk config source).states,
        IsWithin config.maxVelocity s.vx ∧ IsWithin config.maxVelocity s.vy) ∧
    ∀ {K : Type} [Field K] [LinearOrder K] [IsStrictOrderedRing K] (config : WalkConfig K),
      config.validate = .ok () → ∀ {ρ : Type} [NormalSource ρ K] (source : ρ) (i : ℕ)
        (s : State K), (Walk.mk config source).states[i]? = some s →
        s.IsReached config (Walk.mk config source).states i := by
  refine ⟨WalkConfig.validate_float_iff, ?_, ?_⟩
  · intro hc ρ _ source hsamples
    refine ⟨WalkConfig.advance?_eq_some hc, fun s hs => ?_⟩
    rw [states_eq_path] at hs
    obtain ⟨k, rfl⟩ := WalkConfig.mem_path hs
    exact WalkConfig.motion_isWithin hc hsamples k
  · intro K _ _ _ config hc ρ _ source i s hs
    rw [states_eq_path] at hs ⊢
    exact WalkConfig.isReached hc source hs

/-! Two walks of three states: one in which the change of the velocity overflows, and one
in fractions. -/

def hugeStepConfig : WalkConfig Float := ⟨3, 1.5e308, 2⟩

def halfStepConfig : WalkConfig ℚ := ⟨3, 1 / 2, 2⟩

theorem stays_within_bounds_of_steady :
    ((1.5 : Float) * hugeStepConfig.stepSize).isFinite = false ∧
    (∀ s ∈ (Walk.mk hugeStepConfig (Steady.mk (1.5 : Float))).states,
      IsWithin 2 s.vx ∧ IsWithin 2 s.vy) ∧
    ∃ s, (Walk.mk halfStepConfig (Steady.mk (3 : ℚ))).states[2]? = some s ∧
      s.IsReached halfStepConfig (Walk.mk halfStepConfig (Steady.mk (3 : ℚ))).states 2 := by
  have hfloat : hugeStepConfig.validate = .ok () := by decide +kernel
  have hexact : halfStepConfig.validate = .ok () := by decide +kernel
  have hsamples : ∀ n, (sampleAt (Steady.mk (1.5 : Float)) n : Float).isFinite = true := by
    intro n
    rw [sampleAt_steady]
    decide +kernel
  obtain ⟨-, hsafe, hreached⟩ := stays_within_bounds hugeStepConfig
  refine ⟨by decide +kernel, (hsafe hfloat _ hsamples).2, _, rfl, ?_⟩
  exact hreached halfStepConfig hexact _ 2 _ rfl

end Walk

end PlanarKalman
