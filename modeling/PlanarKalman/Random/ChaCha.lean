import PlanarKalman.Random.Source

/-!
# A seeded generator

Words from the ChaCha stream cipher with twelve rounds. A block is computed from
a key, a counter and four constants; the stream is the blocks for the counters
0, 1, 2, … one after the other, and each two 32-bit words of it, the low half
first, make one word of the source.

A seed is one 64-bit number. Its key is eight outputs of a permuted
congruential generator that starts from the seed.
-/

namespace PlanarKalman

namespace ChaCha

/-- Sixteen words: the state that is scrambled, and the outcome. -/
abbrev Block : Type := Vector UInt32 16

abbrev Key : Type := Vector UInt32 8

def rotateLeft (word count : UInt32) : UInt32 :=
  (word <<< count) ||| (word >>> (32 - count))

/-- Scrambles four words of a block. -/
def quarterRound (a b c d : Fin 16) (s : Block) : Block :=
  let s := s.set a (s[a] + s[b])
  let s := s.set d (rotateLeft (s[d] ^^^ s[a]) 16)
  let s := s.set c (s[c] + s[d])
  let s := s.set b (rotateLeft (s[b] ^^^ s[c]) 12)
  let s := s.set a (s[a] + s[b])
  let s := s.set d (rotateLeft (s[d] ^^^ s[a]) 8)
  let s := s.set c (s[c] + s[d])
  s.set b (rotateLeft (s[b] ^^^ s[c]) 7)

/-- Scrambles the columns of the block, seen as a square, and then its
diagonals. -/
def doubleRound (s : Block) : Block :=
  let s := quarterRound 0 4 8 12 s
  let s := quarterRound 1 5 9 13 s
  let s := quarterRound 2 6 10 14 s
  let s := quarterRound 3 7 11 15 s
  let s := quarterRound 0 5 10 15 s
  let s := quarterRound 1 6 11 12 s
  let s := quarterRound 2 7 8 13 s
  quarterRound 3 4 9 14 s

/-- The block before scrambling: constants, key, counter, and two words that
stay zero. -/
def initial (key : Key) (counter : UInt64) : Block :=
  #v[0x61707865, 0x3320646e, 0x79622d32, 0x6b206574,
    key[0], key[1], key[2], key[3], key[4], key[5], key[6], key[7],
    counter.toUInt32, (counter >>> 32).toUInt32, 0, 0]

/-- The block of a counter: six double rounds, added to where they started. -/
def block (key : Key) (counter : UInt64) : Block :=
  let start := initial key counter
  Vector.zipWith (· + ·) (Nat.repeat doubleRound 6 start) start

def joinHalves (low high : UInt32) : UInt64 :=
  low.toUInt64 ||| (high.toUInt64 <<< 32)

/-- The words of the source that a stretch of the stream holds. -/
def wordsOf : List UInt32 → List UInt64
  | low :: high :: rest => joinHalves low high :: wordsOf rest
  | _ => []

end ChaCha

/-- A seeded generator: its key, the counter of the next block, and the words of
the current block that are still to come. -/
structure Generator where
  key : ChaCha.Key
  counter : UInt64
  pending : List UInt64
deriving DecidableEq, Repr

namespace Generator

/-- One step of the congruential generator, and the word it puts out: its upper
bits folded and then rotated by the uppermost ones. -/
def expand (state : UInt64) : UInt32 × UInt64 :=
  let state := state * 6364136223846793005 + 11634580027462260723
  let folded := (((state >>> 18) ^^^ state) >>> 27).toUInt32
  let turn := (state >>> 59).toUInt32
  ((folded >>> turn) ||| (folded <<< (32 - turn)), state)

/-- The outputs of the congruential generator from a state on. -/
def expansion : Nat → UInt64 → List UInt32
  | 0, _ => []
  | count + 1, state =>
    let (word, state) := expand state
    word :: expansion count state

def keyOfSeed (seed : UInt64) : ChaCha.Key :=
  let words := expansion 8 seed
  Vector.ofFn fun i => words.getD i 0

def ofSeed (seed : UInt64) : Generator := ⟨keyOfSeed seed, 0, []⟩

/-- The next word, from a new block when the current one is used up. -/
def next (g : Generator) : UInt64 × Generator :=
  match g.pending with
  | word :: rest => (word, { g with pending := rest })
  | [] =>
    let words := ChaCha.wordsOf (ChaCha.block g.key g.counter).toList
    (words.headD 0, ⟨g.key, g.counter + 1, words.drop 1⟩)

instance : WordSource Generator := ⟨next⟩

end Generator

end PlanarKalman
