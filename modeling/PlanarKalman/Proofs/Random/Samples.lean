import PlanarKalman.Random.Source

/-!
# The samples of a source

A source of normal samples is a stream: the samples it gives, by the number of
samples drawn before, and the source that is left after a number of draws. What a
program draws is then told by indices, and where it leaves the source by a count.
-/

namespace PlanarKalman

namespace NormalSource

variable {ρ α : Type} [NormalSource ρ α]

/-- The source after a number of draws. -/
def advance (α : Type) [NormalSource ρ α] (source : ρ) : Nat → ρ
  | 0 => source
  | n + 1 => advance α (nextNormal (α := α) source).2 n

/-- The sample that is drawn after `n` others. -/
def sampleAt (source : ρ) (n : Nat) : α := (nextNormal (advance α source n)).1

@[simp] theorem advance_zero (source : ρ) : advance α source 0 = source := rfl

theorem advance_advance (source : ρ) (m n : Nat) :
    advance α (advance α source m) n = advance α source (m + n) := by
  induction m generalizing source with
  | zero => rw [Nat.zero_add, advance_zero]
  | succ m ih =>
      rw [Nat.add_right_comm]
      exact ih _

theorem sampleAt_advance (source : ρ) (m n : Nat) :
    sampleAt (α := α) (advance α source m) n = sampleAt source (m + n) := by
  rw [sampleAt, advance_advance]
  rfl

end NormalSource

end PlanarKalman
