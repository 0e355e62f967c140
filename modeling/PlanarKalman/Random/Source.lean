import PlanarKalman.Scalar

/-!
# Random sources

A random source is a value. Drawing from it gives the drawn thing and the source
as it stands afterwards, so two users of one source see its draws in an order
that is plain in the program, and whoever keeps the old value can draw the same
again.

Two kinds of source are told apart by what they give: 64-bit words, or samples
of the standard normal distribution. The simulation only ever asks for normal
samples.
-/

namespace PlanarKalman

class WordSource (ρ : Type) where
  nextWord : ρ → UInt64 × ρ

class NormalSource (ρ : Type) (α : Type) where
  nextNormal : ρ → α × ρ

/-- A normal sample with the given standard deviation. One sample is drawn also
when the deviation is zero. -/
def gaussian {ρ α : Type} [NormalSource ρ α] [Mul α] (deviation : α) (source : ρ) : α × ρ :=
  let (sample, source) := NormalSource.nextNormal (α := α) source
  (sample * deviation, source)

/-- A source that gives out listed words. When they are used up it repeats the
word of which every normal sample is zero. -/
structure Replay where
  words : List UInt64
deriving DecidableEq, Repr

def Replay.idleWord : UInt64 := 0x8000000000000001

instance : WordSource Replay where
  nextWord
    | ⟨[]⟩ => (Replay.idleWord, ⟨[]⟩)
    | ⟨word :: rest⟩ => (word, ⟨rest⟩)

end PlanarKalman
