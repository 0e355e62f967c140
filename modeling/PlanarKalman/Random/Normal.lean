import PlanarKalman.Random.Source
import PlanarKalman.Random.NormalTable

/-!
# Normal samples from words

Samples of the standard normal distribution by cutting the area under its curve
into strips. The lowest eight bits of a word choose a strip and the others a
point across it. If that point is below the next strip it lies under the curve
and is the sample; this is nearly always so. Otherwise a second word decides
whether the point, which is in the part of the strip that the curve crosses, is
under the curve. A point beyond the lowest strip is replaced by a sample of the
tail, which is drawn by rejection from an exponential.

A draw can be rejected any number of times. To be a function, sampling gives up
after a million rejections in a row and answers zero; one draw in a hundred is
rejected at all.
-/

namespace PlanarKalman

namespace Normal

variable {ρ : Type} [WordSource ρ]

/-- A point between minus one and one, from the upper 52 bits of a word. -/
def acrossStrip (word : UInt64) : Float :=
  2.0 + (word >>> 12).toFloat / 2251799813685248.0 - 3.0

/-- A point between zero and one, zero included. -/
def unitInterval (source : ρ) : Float × ρ :=
  let (word, source) := WordSource.nextWord source
  ((word >>> 11).toFloat / 9007199254740992.0, source)

/-- A point between zero and one, neither of them included. -/
def openInterval (source : ρ) : Float × ρ :=
  let (word, source) := WordSource.nextWord source
  (1.0 + (word >>> 12).toFloat / 4503599627370496.0 - 0.9999999999999999, source)

/-- How many draws are made before sampling gives up. -/
def patience : Nat := 1000000

/-- A distance beyond the start of the tail, as a number that is not positive. -/
def tailDepth : Nat → ρ → Float × ρ
  | 0, source => (0.0, source)
  | draws + 1, source =>
    let (a, source) := openInterval source
    let (b, source) := openInterval source
    let x := a.log / NormalTable.tailStart
    let y := b.log
    if -2.0 * y < x * x then tailDepth draws source else (x, source)

/-- A sample of the tail on the given side. -/
def tail (isNegative : Bool) (source : ρ) : Float × ρ :=
  let (x, source) := tailDepth patience source
  (if isNegative then x - NormalTable.tailStart else NormalTable.tailStart - x, source)

def sample : Nat → ρ → Float × ρ
  | 0, source => (0.0, source)
  | draws + 1, source =>
    let (word, source) := WordSource.nextWord source
    let strip := (word &&& 0xff).toNat
    let u := acrossStrip word
    let x := u * NormalTable.width strip
    if x.abs < NormalTable.width (strip + 1) then
      (x, source)
    else if strip = 0 then
      tail (u < 0.0) source
    else
      let (v, source) := unitInterval source
      let low := NormalTable.height strip
      let high := NormalTable.height (strip + 1)
      if high + (low - high) * v < ((-x * x) / 2.0).exp then (x, source)
      else sample draws source

end Normal

instance {ρ : Type} [WordSource ρ] : NormalSource ρ Float where
  nextNormal := Normal.sample Normal.patience

end PlanarKalman
