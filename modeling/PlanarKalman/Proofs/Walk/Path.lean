import PlanarKalman.Proofs.Random.Samples
import PlanarKalman.Walk.Basic

/-!
# The path of a walk

A walk is drawn lazily, but there is nothing to choose: its parameters and its source
fix the state after every number of steps (`WalkConfig.motion`), whether or not a
cursor ever comes there. The path is the list of the first of these states.

A cursor that has given out `k` states is a definite one (`Walk.cursorAt`): what
follows is state `k`, and of its own copy of the source it has drawn two samples for
each step, and no step leads to the first state. So a cursor is no more than a place
in the path.
-/

namespace PlanarKalman

open NormalSource

variable {ρ α : Type} [Scalar α] [NormalSource ρ α]

namespace WalkConfig

/-- The state after `k` steps from the origin, and the source behind the samples that
these steps have drawn. -/
def motion (c : WalkConfig α) (source : ρ) : Nat → State α × ρ
  | 0 => (.origin, source)
  | k + 1 =>
    let (s, source) := c.motion source k
    s.advance c.stepSize c.maxVelocity source

/-- The states that a walk with the given parameters goes through. -/
def path (c : WalkConfig α) (source : ρ) : List (State α) :=
  (List.range c.steps).map fun k => (c.motion source k).1

theorem source_motion (c : WalkConfig α) (source : ρ) (k : Nat) :
    (c.motion source k).2 = advance α source (2 * k) := by
  induction k with
  | zero => rfl
  | succ k ih =>
      have hstep : (c.motion source (k + 1)).2 = advance α (c.motion source k).2 2 := rfl
      rw [hstep, ih, advance_advance, Nat.mul_succ]

/-- How long a walk is does not change its motion. -/
theorem motion_steps (c : WalkConfig α) (steps : Nat) (source : ρ) :
    ({ c with steps } : WalkConfig α).motion source = c.motion source := by
  funext k
  induction k with
  | zero => rfl
  | succ k ih => simp only [motion, ih]

@[simp] theorem length_path (c : WalkConfig α) (source : ρ) :
    (c.path source).length = c.steps := by
  simp [path]

theorem getElem?_path (c : WalkConfig α) (source : ρ) {k : Nat} (hk : k < c.steps) :
    (c.path source)[k]? = some (c.motion source k).1 := by
  simp [path, hk]

theorem drop_path (c : WalkConfig α) (source : ρ) {k : Nat} (hk : k < c.steps) :
    (c.path source).drop k = (c.motion source k).1 :: (c.path source).drop (k + 1) := by
  have hlength : k < (c.path source).length := by rwa [length_path]
  rw [List.drop_eq_getElem_cons hlength]
  simp [path]

/-- A shorter walk is the beginning of a longer one. -/
theorem path_isPrefix (c : WalkConfig α) (source : ρ) {longer : Nat} (h : c.steps ≤ longer) :
    c.path source <+: ({ c with steps := longer } : WalkConfig α).path source := by
  obtain ⟨more, rfl⟩ := Nat.exists_eq_add_of_le h
  rw [path, path, c.motion_steps (c.steps + more), List.range_add, List.map_append]
  exact List.prefix_append _ _

end WalkConfig

namespace Walk

/-- The states of a walk, one after the other, and the source behind each of them. -/
def motion (w : Walk ρ α) : Nat → State α × ρ := w.config.motion w.source

def path (w : Walk ρ α) : List (State α) := w.config.path w.source

/-- The cursor that has given out `k` states. -/
def cursorAt (w : Walk ρ α) : Nat → Cursor ρ α
  | 0 => w.cursor
  | k + 1 => { w.cursor with
      last := some (w.motion k).1
      remaining := w.length - (k + 1)
      source := (w.motion k).2 }

@[simp] theorem length_path (w : Walk ρ α) : w.path.length = w.length :=
  w.config.length_path w.source

@[simp] theorem remaining_cursorAt (w : Walk ρ α) (k : Nat) :
    (w.cursorAt k).remaining = w.length - k := by
  cases k <;> rfl

theorem following_cursorAt (w : Walk ρ α) (k : Nat) :
    (w.cursorAt k).following = w.motion k := by
  cases k <;> rfl

/-- A cursor draws two samples for each state it has given out, but none for the
first. -/
theorem source_cursorAt (w : Walk ρ α) (k : Nat) :
    (w.cursorAt k).source = advance α w.source (2 * (k - 1)) := by
  cases k with
  | zero => rfl
  | succ k => exact w.config.source_motion w.source k

theorem next?_cursorAt_of_lt (w : Walk ρ α) {k : Nat} (hk : k < w.length) :
    (w.cursorAt k).next? = some ((w.motion k).1, w.cursorAt (k + 1)) := by
  obtain ⟨left, hleft⟩ := Nat.exists_eq_add_of_lt hk
  have hremaining : (w.cursorAt k).remaining = left + 1 := by
    rw [remaining_cursorAt]
    omega
  have hnext : w.length - (k + 1) = left := by omega
  simp only [Cursor.next?, hremaining, following_cursorAt]
  cases k <;> simp [cursorAt, hnext]

theorem next?_cursorAt_length (w : Walk ρ α) : (w.cursorAt w.length).next? = none := by
  rw [Cursor.next?_eq_none_iff, remaining_cursorAt, Nat.sub_self]

theorem take_cursorAt (w : Walk ρ α) {k n : Nat} (h : k + n ≤ w.length) :
    (w.cursorAt k).take n = ((w.path.drop k).take n, w.cursorAt (k + n)) := by
  induction n generalizing k with
  | zero => rfl
  | succ n ih =>
      have hk : k < w.length := by omega
      rw [Cursor.take_succ, next?_cursorAt_of_lt w hk]
      simp only
      rw [ih (by omega), path, w.config.drop_path w.source hk, List.take_succ_cons]
      simp only [Nat.add_assoc, Nat.add_comm 1]
      rfl

theorem drain_cursorAt (w : Walk ρ α) {k : Nat} (hk : k ≤ w.length) :
    (w.cursorAt k).drain = (w.path.drop k, w.cursorAt w.length) := by
  have hlength : (w.path.drop k).length = w.length - k := by
    rw [List.length_drop, length_path]
  rw [Cursor.drain, remaining_cursorAt, take_cursorAt w (by omega),
    List.take_of_length_le (Nat.le_of_eq hlength), Nat.add_sub_cancel' hk]

@[simp] theorem states_eq_path (w : Walk ρ α) : w.states = w.path :=
  congrArg Prod.fst (w.drain_cursorAt (Nat.zero_le _))

end Walk

end PlanarKalman
