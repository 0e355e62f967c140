import Mathlib
import PlanarKalman.Scalar

/-!
# Rounded arithmetic

A binary64 number is a word, and an operation takes the words apart, computes exactly,
rounds and puts the result together again. Two things about a number survive the way
through the word: whether it is one at all, and on which side of zero it is (`side?`).
That is enough to say when an operation gives a number: a product of finite numbers
always is one, possibly an infinity, and so is the sum of a finite number and any number.
Rounding does not know which operand came first, so sums commute.

The order is total on numbers, so one of two comparisons always succeeds. It is what keeps
a number finite that was cut back to finite bounds.

What the fields of a word are after it was put together is known from the library's lemmas on
`Float.Model`. No single module of Mathlib brings them in, so this one imports it whole.
-/

namespace PlanarKalman

namespace Rounded

open Float.Model Float.Model.UnpackedFloat

/-! ## Words -/

def isNegative : Sign → Bool
  | .negative => true
  | .positive => false

/-- The side of zero that a number is on, and nothing for what is no number. -/
def side? : UnpackedFloat → Option Bool
  | .notANumber => none
  | .infinity s => some (isNegative s)
  | .zero s => some (isNegative s)
  | .finite s _ _ _ => some (isNegative s)

theorem isNaN_eq (u : UnpackedFloat) : u.isNaN = (side? u).isNone := by
  cases u <;> rfl

/-- The greatest exponent field belongs to the infinities and to what is no number. -/
theorem unpack_packComponents (s : Sign) {e : BitVec 11} (he : e ≠ -1#11) (m : BitVec 52) :
    side? (UnpackedFloat.unpack .binary64 (packComponents .binary64 s e m))
        = some (isNegative s) ∧
      (UnpackedFloat.unpack .binary64 (packComponents .binary64 s e m)).isFinite = true := by
  simp only [UnpackedFloat.unpack, unpackExponent_packComponents,
    unpackMantissa_packComponents, unpackSign_packComponents, Sign.ofBitVec_toBitVec, he, if_false]
  split
  · split <;> exact ⟨rfl, rfl⟩
  · exact ⟨rfl, rfl⟩

theorem exponentField_ne {b : Nat} (h : ¬ 2 ^ Format.binary64.exponentBits ≤ b + 1) :
    BitVec.ofNat 11 b ≠ -1#11 := by
  intro hall
  have hb := congrArg BitVec.toNat hall
  simp at hb h
  omega

@[simp] theorem side?_unpack_pack (u : UnpackedFloat) :
    side? (Float.Model.pack u).unpack = side? u := by
  cases u with
  | notANumber => decide +kernel
  | infinity s => cases s <;> decide +kernel
  | zero s => cases s <;> decide +kernel
  | finite s m e hm =>
      simp only [Float.Model.pack, Float.Model.unpack, UnpackedFloat.pack]
      split
      · cases s <;> rfl
      · rename_i hsmall
        split
        · exact (unpack_packComponents s (exponentField_ne hsmall) _).1
        · exact (unpack_packComponents s (by decide) _).1

theorem isFinite_unpack_pack (s : Sign) {m : Nat} {e : Int} (hm : 0 < m) (he : e < 972) :
    (Float.Model.pack (.finite s m e hm)).unpack.isFinite = true := by
  have hbias : (Format.binary64.exponentBias : Int) = 1023 := rfl
  simp only [Float.Model.pack, Float.Model.unpack, UnpackedFloat.pack]
  split
  · omega
  · rename_i hsmall
    split
    · exact (unpack_packComponents s (exponentField_ne hsmall) _).2
    · exact (unpack_packComponents s (by decide) _).2

theorem exponent_lt {a : Float.Model} {s : Sign} {m : Nat} {e : Int} {hm : 0 < m}
    (h : a.unpack = .finite s m e hm) : e < 972 := by
  have hbias : (Format.binary64.exponentBias : Int) = 1023 := rfl
  simp only [Float.Model.unpack, UnpackedFloat.unpack] at h
  generalize @unpackExponent .binary64 a.toBits.toBitVec = field at h
  split at h
  · split at h <;> cases h
  · rename_i hfield
    have hlt : field.toNat < 2048 := field.isLt
    have hne : field.toNat ≠ 2047 := fun heq => hfield (BitVec.eq_of_toNat_eq heq)
    split at h
    · rename_i hzero
      have hnone : field.toNat = 0 := congrArg BitVec.toNat hzero
      split at h <;> cases h
      omega
    · cases h
      omega

/-- The first digit of a mantissa is not written down when it has all its digits. -/
theorem toNat_one_append (fraction : BitVec 52) :
    (1#1 ++ fraction).toNat = 2 ^ 52 + fraction.toNat := by
  rw [BitVec.toNat_append, ← Nat.shiftLeft_add_eq_or_of_lt fraction.isLt]
  rfl

/-! ## When an operation gives a number -/

theorem isNaN_roundWithAccuracy (s : Sign) (m : Nat) (e : Int) (accuracy : Accuracy) :
    (roundWithAccuracy .binary64 s m e accuracy).isNaN = false := by
  simp only [roundWithAccuracy]
  split <;> rfl

theorem isNaN_normalize (m e : Int) (s : Sign) :
    (UnpackedFloat.normalize .binary64 m e s).isNaN = false := by
  unfold UnpackedFloat.normalize
  split
  · exact isNaN_roundWithAccuracy ..
  · rfl
  · exact isNaN_roundWithAccuracy ..

theorem isNaN_unpacked_mul {x y : UnpackedFloat} (hx : x.isFinite = true)
    (hy : y.isFinite = true) : (x.mul .binary64 y).isNaN = false := by
  cases x with
  | notANumber | infinity s => cases hx
  | zero s =>
      cases y with
      | notANumber | infinity s' => cases hy
      | zero s' | finite s' m' e' => rfl
  | finite s m e =>
      cases y with
      | notANumber | infinity s' => cases hy
      | zero s' => rfl
      | finite s' m' e' => exact isNaN_roundWithAccuracy ..

theorem isNaN_unpacked_add {x y : UnpackedFloat} (hx : x.isFinite = true)
    (hy : y.isNaN = false) : (x.add .binary64 y).isNaN = false := by
  cases x with
  | notANumber | infinity s => cases hx
  | zero s =>
      cases y with
      | notANumber => cases hy
      | zero s' => cases s <;> cases s' <;> rfl
      | infinity s' | finite s' m' e' => rfl
  | finite s m e =>
      cases y with
      | notANumber => cases hy
      | zero s' | infinity s' => rfl
      | finite s' m' e' => exact isNaN_normalize ..

/-- The operands are looked at in order, but the answers do not show it. -/
theorem unpacked_add_comm (x y : UnpackedFloat) : x.add .binary64 y = y.add .binary64 x := by
  cases x with
  | notANumber => cases y <;> rfl
  | infinity s =>
      cases y with
      | infinity s' => cases s <;> cases s' <;> rfl
      | notANumber | zero s' | finite s' m' e' => rfl
  | zero s =>
      cases y with
      | zero s' => cases s <;> cases s' <;> rfl
      | notANumber | infinity s' | finite s' m' e' => rfl
  | finite s m e =>
      cases y with
      | notANumber | infinity s' | zero s' => rfl
      | finite s' m' e' =>
          simp only [UnpackedFloat.add, Int.min_comm e e', Int.add_comm (s.apply _)]

theorem isNaN_pack (u : UnpackedFloat) : (Float.Model.pack u).unpack.isNaN = u.isNaN := by
  rw [isNaN_eq, isNaN_eq, side?_unpack_pack]

/-! ## The order of the numbers -/

theorem compare_finite_swap (m m' : Nat) (e e' : Int) :
    (compare e' e).then (compare m' m) = ((compare e e').then (compare m m')).swap := by
  rw [Ordering.swap_then, Std.OrientedOrd.eq_swap (a := e'),
    Std.OrientedOrd.eq_swap (a := m')]

theorem compare_swap (x y : UnpackedFloat) :
    y.compare x = (x.compare y).map Ordering.swap := by
  cases x with
  | notANumber => cases y <;> rfl
  | infinity s =>
      cases y with
      | infinity s' => cases s <;> cases s' <;> rfl
      | notANumber | zero s' | finite s' m' e' => cases s <;> rfl
  | zero s =>
      cases y with
      | infinity s' | finite s' m' e' => cases s' <;> rfl
      | notANumber | zero s' => rfl
  | finite s m e =>
      cases y with
      | infinity s' => cases s <;> cases s' <;> rfl
      | notANumber | zero s' => cases s <;> rfl
      | finite s' m' e' =>
          cases s <;> cases s' <;>
            simp [UnpackedFloat.compare, compare_finite_swap m m' e e']

theorem exists_compare {x y : UnpackedFloat} (hx : x.isNaN = false) (hy : y.isNaN = false) :
    ∃ o, x.compare y = some o := by
  cases x with
  | notANumber => cases hx
  | infinity s | zero s | finite s m e =>
      cases y with
      | notANumber => cases hy
      | infinity s' | zero s' | finite s' m' e' => cases s <;> cases s' <;> exact ⟨_, rfl⟩

theorem compare_of_sides {x y : UnpackedFloat} (hx : side? x = some true)
    (hy : side? y = some false) : ∃ o, x.compare y = some o ∧ o.isLE = true := by
  cases x with
  | notANumber => cases hx
  | infinity s | zero s | finite s m e =>
      cases s with
      | positive => cases hx
      | negative =>
          cases y with
          | notANumber => cases hy
          | infinity s' | zero s' | finite s' m' e' =>
              cases s' with
              | negative => cases hy
              | positive => exact ⟨_, rfl, rfl⟩

theorem sides_of_compare {x : UnpackedFloat} {s : Sign} (h : (zero s).compare x = some .lt) :
    side? x = some false ∧ side? x.neg = some true := by
  cases x with
  | notANumber | zero s' => cases h
  | infinity s' | finite s' m e =>
      cases s' with
      | negative => cases h
      | positive => exact ⟨rfl, rfl⟩

/-- Nothing but a finite number is between two finite numbers. -/
theorem isFinite_of_compare {low x high : UnpackedFloat} (hlow : low.isFinite = true)
    (hhigh : high.isFinite = true) (hl : (low.compare x).any (·.isLE) = true)
    (hh : (x.compare high).any (·.isLE) = true) : x.isFinite = true := by
  cases x with
  | zero s | finite s m e => rfl
  | notANumber => cases hh
  | infinity s =>
      cases s with
      | positive =>
          cases high with
          | notANumber | infinity s' => cases hhigh
          | zero s' | finite s' m' e' => cases hh
      | negative =>
          cases low with
          | notANumber | infinity s' => cases hlow
          | zero s' => cases hl
          | finite s' m' e' => cases s' <;> cases hl

end Rounded

/-! ## Binary64 numbers -/

section Float

open Rounded

variable {a b low high : Float}

theorem isNaN_of_isFinite (ha : a.isFinite = true) : a.isNaN = false := by
  change a.toModel.unpack.isFinite = true at ha
  change a.toModel.unpack.isNaN = false
  cases hu : a.toModel.unpack with
  | notANumber =>
      rw [hu] at ha
      cases ha
  | infinity s | zero s | finite s m e => rfl

theorem isNaN_mul (ha : a.isFinite = true) (hb : b.isFinite = true) : (a * b).isNaN = false :=
  (isNaN_pack _).trans (isNaN_unpacked_mul ha hb)

theorem isNaN_add (ha : a.isFinite = true) (hb : b.isNaN = false) : (a + b).isNaN = false :=
  (isNaN_pack _).trans (isNaN_unpacked_add ha hb)

/-- What is no number is one value, so this is an equation for all operands. -/
theorem float_add_comm (a b : Float) : a + b = b + a :=
  congrArg (fun u => Float.ofModel (Float.Model.pack u)) (unpacked_add_comm _ _)

theorem isFinite_neg (ha : a.isFinite = true) : (-a).isFinite = true := by
  change a.toModel.unpack.isFinite = true at ha
  change (Float.Model.pack a.toModel.unpack.neg).unpack.isFinite = true
  cases hu : a.toModel.unpack with
  | notANumber | infinity s =>
      rw [hu] at ha
      cases ha
  | zero s => cases s <;> decide +kernel
  | finite s m e hm => exact isFinite_unpack_pack _ hm (exponent_lt hu)

theorem le_iff_compare :
    a ≤ b ↔ (a.toModel.unpack.compare b.toModel.unpack).any (·.isLE) = true :=
  decide_eq_true_iff

theorem lt_iff_compare : a < b ↔ a.toModel.unpack.compare b.toModel.unpack = some .lt :=
  decide_eq_true_iff.trans beq_iff_eq

theorem le_of_lt (h : a < b) : a ≤ b := by
  rw [le_iff_compare, lt_iff_compare.mp h]
  rfl

/-- Of two numbers one is smaller, or the other is no larger. -/
theorem le_of_not_lt (ha : a.isNaN = false) (hb : b.isNaN = false) (h : ¬ a < b) : b ≤ a := by
  rw [lt_iff_compare] at h
  rw [le_iff_compare, compare_swap a.toModel.unpack]
  obtain ⟨o, ho⟩ := exists_compare (x := a.toModel.unpack) (y := b.toModel.unpack) ha hb
  rw [ho] at h ⊢
  cases o with
  | lt => exact absurd rfl h
  | eq | gt => rfl

theorem lt_of_not_le (ha : a.isNaN = false) (hb : b.isNaN = false) (h : ¬ a ≤ b) : b < a := by
  rw [le_iff_compare] at h
  rw [lt_iff_compare, compare_swap a.toModel.unpack]
  obtain ⟨o, ho⟩ := exists_compare (x := a.toModel.unpack) (y := b.toModel.unpack) ha hb
  rw [ho] at h ⊢
  cases o with
  | lt | eq => exact absurd rfl h
  | gt => rfl

theorem not_le_of_lt (h : a < b) : ¬ b ≤ a := by
  rw [le_iff_compare, compare_swap a.toModel.unpack, lt_iff_compare.mp h]
  exact Bool.false_ne_true

theorem le_self (ha : a.isNaN = false) : a ≤ a := by
  by_cases h : a < a
  · exact le_of_lt h
  · exact le_of_not_lt ha ha h

/-- A positive number is one whose finite value is greater than zero. -/
theorem isPositive_float_iff : IsPositive a ↔ a.isFinite = true ∧ 0 < a := by
  have hzero : (Zero.zero : Float) = 0 := rfl
  have hnumber : (0 : Float).isNaN = false := rfl
  constructor
  · rintro ⟨hfinite, hpos⟩
    have hpos' : ¬ a ≤ (Zero.zero : Float) := hpos
    rw [hzero] at hpos'
    exact ⟨hfinite, lt_of_not_le (isNaN_of_isFinite hfinite) hnumber hpos'⟩
  · rintro ⟨hfinite, hpos⟩
    refine ⟨hfinite, ?_⟩
    change ¬ a ≤ (Zero.zero : Float)
    rw [hzero]
    exact not_le_of_lt hpos

theorem sides_of_pos (ha : 0 < a) :
    side? a.toModel.unpack = some false ∧ side? (-a).toModel.unpack = some true := by
  have hzero : (0 : Float).toModel.unpack = .zero .positive := rfl
  rw [lt_iff_compare, hzero] at ha
  obtain ⟨hside, hnegated⟩ := sides_of_compare ha
  exact ⟨hside, (side?_unpack_pack _).trans hnegated⟩

theorem le_of_sides (ha : side? a.toModel.unpack = some true)
    (hb : side? b.toModel.unpack = some false) : a ≤ b := by
  obtain ⟨o, ho, hle⟩ := compare_of_sides ha hb
  rw [le_iff_compare, ho]
  exact hle

theorem neg_le_self (ha : 0 < a) : -a ≤ a := le_of_sides (sides_of_pos ha).2 (sides_of_pos ha).1

theorem neg_le_zero (ha : 0 < a) : -a ≤ 0 := le_of_sides (sides_of_pos ha).2 rfl

theorem isFinite_of_between (hlow : low.isFinite = true) (hhigh : high.isFinite = true)
    (hl : low ≤ a) (hh : a ≤ high) : a.isFinite = true :=
  isFinite_of_compare hlow hhigh (le_iff_compare.mp hl) (le_iff_compare.mp hh)

/-- Cutting back to bounds gives a number between them. -/
theorem clampBetween_between (hlow : low.isNaN = false) (hhigh : high.isNaN = false)
    (hle : low ≤ high) (ha : a.isNaN = false) :
    (clampBetween low high a).isNaN = false ∧
      low ≤ clampBetween low high a ∧ clampBetween low high a ≤ high := by
  by_cases hbelow : a < low
  · by_cases habove : high < low
    · simp only [clampBetween, hbelow, habove, if_true]
      exact ⟨hhigh, hle, le_self hhigh⟩
    · simp only [clampBetween, hbelow, habove, if_true, if_false]
      exact ⟨hlow, le_self hlow, hle⟩
  · by_cases habove : high < a
    · simp only [clampBetween, hbelow, habove, if_true, if_false]
      exact ⟨hhigh, hle, le_self hhigh⟩
    · simp only [clampBetween, hbelow, habove, if_false]
      exact ⟨ha, le_of_not_lt ha hlow hbelow, le_of_not_lt hhigh ha habove⟩

end Float

end PlanarKalman
