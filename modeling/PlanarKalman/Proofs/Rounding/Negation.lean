import PlanarKalman.Proofs.RoundedArithmetic

/-!
# Arithmetic on the other side of zero

Rounding looks at magnitudes, so an operation on negated numbers gives the negated result. The
exception is zero: there are two of them, and which one comes out of a sum is not decided by
symmetry. A number less itself is the positive zero, on whichever side of zero the number was.
So the numbers that stand opposite each other are those of which one is the negation of the other,
and any two zeros (`IsNegation`). Products, sums and cutting back to symmetric bounds keep that.

On numbers taken apart the relation has a case for each kind of number (`Opposite`), and it takes
one case analysis to see what an operation does to it. An infinity less itself is no number, and
what is no number is opposite itself, so nothing has to be finite.
-/

namespace PlanarKalman

namespace Rounded

open Float.Model Float.Model.UnpackedFloat

/-- Numbers that differ in their sign only, whatever signs two zeros have. -/
inductive Opposite : UnpackedFloat → UnpackedFloat → Prop
  | notANumber : Opposite .notANumber .notANumber
  | infinity (s : Sign) : Opposite (.infinity s) (.infinity (-s))
  | zero (s s' : Sign) : Opposite (.zero s) (.zero s')
  | finite (s : Sign) (m : Nat) (e : Int) (hm : 0 < m) :
      Opposite (.finite s m e hm) (.finite (-s) m e hm)

theorem opposite_neg (u : UnpackedFloat) : Opposite u u.neg := by
  cases u with
  | notANumber => exact .notANumber
  | infinity s => exact .infinity s
  | zero s => exact .zero s _
  | finite s m e hm => exact .finite s m e hm

theorem Opposite.symm {u v : UnpackedFloat} (h : Opposite u v) : Opposite v u := by
  cases h with
  | notANumber => exact .notANumber
  | infinity s => cases s <;> exact .infinity _
  | zero s s' => exact .zero s' s
  | finite s m e hm => cases s <;> exact .finite _ m e hm

theorem Opposite.eq_neg_or_zero {u v : UnpackedFloat} (h : Opposite u v) :
    v = u.neg ∨ (∃ s, u = .zero s) ∧ ∃ s', v = .zero s' := by
  cases h with
  | notANumber | infinity s | finite s m e hm => exact .inl rfl
  | zero s s' => exact .inr ⟨⟨s, rfl⟩, ⟨s', rfl⟩⟩

/-! ## Operations -/

theorem opposite_roundWithAccuracy (s : Sign) (m : Nat) (e : Int) (accuracy : Accuracy) :
    Opposite (roundWithAccuracy .binary64 s m e accuracy)
      (roundWithAccuracy .binary64 (-s) m e accuracy) := by
  simp only [roundWithAccuracy]
  split
  · exact .zero s _
  · exact .finite s _ _ _

theorem opposite_round (s : Sign) (m : Nat) (e : Int) :
    Opposite (UnpackedFloat.round .binary64 s m e) (UnpackedFloat.round .binary64 (-s) m e) :=
  opposite_roundWithAccuracy s _ _ _

/-- A sum of zero has the sign that is asked for, on either side. -/
theorem opposite_normalize (m e : Int) (s s' : Sign) :
    Opposite (UnpackedFloat.normalize .binary64 m e s)
      (UnpackedFloat.normalize .binary64 (-m) e s') := by
  unfold UnpackedFloat.normalize
  rcases Int.lt_trichotomy m 0 with hneg | rfl | hpos
  · rw [compare_lt_iff_lt.mpr hneg, compare_gt_iff_gt.mpr (Int.neg_pos_of_neg hneg)]
    exact opposite_round .negative _ e
  · exact .zero s s'
  · rw [compare_gt_iff_gt.mpr hpos, compare_lt_iff_lt.mpr (Int.neg_neg_of_pos hpos),
      Int.neg_neg]
    exact opposite_round .positive _ e

theorem sign_neg_mul (s t : Sign) : -s * t = -(s * t) := by
  cases s <;> cases t <;> rfl

theorem sign_neg_apply (s : Sign) (n : Int) : (-s).apply n = -(s.apply n) := by
  cases s with
  | negative => exact (Int.neg_neg n).symm
  | positive => rfl

variable {u u' v v' : UnpackedFloat}

theorem Opposite.mul (h : Opposite u u') (v : UnpackedFloat) :
    Opposite (u.mul .binary64 v) (u'.mul .binary64 v) := by
  cases h with
  | notANumber => exact .notANumber
  | infinity s =>
      cases v with
      | notANumber | zero t => exact .notANumber
      | infinity t | finite t m' e' =>
          simp only [UnpackedFloat.mul, sign_neg_mul]
          exact .infinity _
  | zero s s' =>
      cases v with
      | notANumber | infinity t => exact .notANumber
      | zero t | finite t m' e' => exact .zero _ _
  | finite s m e hm =>
      cases v with
      | notANumber => exact .notANumber
      | zero t => exact .zero _ _
      | infinity t =>
          simp only [UnpackedFloat.mul, sign_neg_mul]
          exact .infinity _
      | finite t m' e' =>
          simp only [UnpackedFloat.mul, sign_neg_mul]
          exact opposite_roundWithAccuracy _ _ _ _

theorem Opposite.add (h : Opposite u u') (h' : Opposite v v') :
    Opposite (u.add .binary64 v) (u'.add .binary64 v') := by
  cases h with
  | notANumber => exact .notANumber
  | infinity s =>
      cases h' with
      | notANumber => exact .notANumber
      | infinity t => cases s <;> cases t <;> constructor
      | zero t t' | finite t m' e' => exact .infinity s
  | zero s s' =>
      cases h' with
      | notANumber => exact .notANumber
      | infinity t => exact .infinity t
      | zero t t' => cases s <;> cases s' <;> cases t <;> cases t' <;> constructor
      | finite t m' e' hm' => exact .finite t m' e' hm'
  | finite s m e hm =>
      cases h' with
      | notANumber => exact .notANumber
      | infinity t => exact .infinity t
      | zero t t' => exact .finite s m e hm
      | finite t m' e' =>
          simp only [UnpackedFloat.add, sign_neg_apply, ← Int.neg_add]
          exact opposite_normalize _ _ _ _

/-- The order is turned around. -/
theorem Opposite.compare (h : Opposite u u') (h' : Opposite v v') :
    u.compare v = v'.compare u' := by
  cases h with
  | notANumber => cases h' <;> rfl
  | infinity s =>
      cases h' with
      | infinity t => cases s <;> cases t <;> rfl
      | notANumber | zero t t' | finite t m' e' => cases s <;> rfl
  | zero s s' =>
      cases h' with
      | infinity t | finite t m' e' => cases t <;> rfl
      | notANumber | zero t t' => rfl
  | finite s m e hm =>
      cases h' with
      | infinity t => cases s <;> cases t <;> rfl
      | notANumber | zero t t' => cases s <;> rfl
      | finite t m' e' =>
          cases s with
          | negative =>
              cases t with
              | negative => exact congrArg some (compare_finite_swap m m' e e').symm
              | positive => rfl
          | positive =>
              cases t with
              | negative => rfl
              | positive => exact congrArg some (compare_finite_swap m' m e' e)

/-! ## Words -/

/-- The sign has a bit of its own. -/
theorem unpack_packComponents_neg (s : Sign) (e : BitVec 11) (m : BitVec 52) :
    UnpackedFloat.unpack .binary64 (packComponents .binary64 (-s) e m)
      = (UnpackedFloat.unpack .binary64 (packComponents .binary64 s e m)).neg := by
  simp only [UnpackedFloat.unpack, unpackExponent_packComponents,
    unpackMantissa_packComponents, unpackSign_packComponents, Sign.ofBitVec_toBitVec]
  split
  · split <;> rfl
  · split
    · split <;> rfl
    · rfl

theorem unpack_pack_neg (u : UnpackedFloat) :
    (Float.Model.pack u.neg).unpack = (Float.Model.pack u).unpack.neg := by
  cases u with
  | notANumber => rfl
  | infinity s | zero s => exact unpack_packComponents_neg s _ _
  | finite s m e hm =>
      simp only [Float.Model.pack, Float.Model.unpack, UnpackedFloat.neg, UnpackedFloat.pack]
      split
      · exact unpack_packComponents_neg s _ _
      · split <;> exact unpack_packComponents_neg s _ _

theorem opposite_pack_neg (u : UnpackedFloat) :
    Opposite (Float.Model.pack u).unpack (Float.Model.pack u.neg).unpack := by
  rw [unpack_pack_neg]
  exact opposite_neg _

theorem Opposite.pack (h : Opposite u u') :
    Opposite (Float.Model.pack u).unpack (Float.Model.pack u').unpack := by
  cases h with
  | notANumber => exact opposite_pack_neg .notANumber
  | infinity s => exact opposite_pack_neg (.infinity s)
  | zero s s' => cases s <;> cases s' <;> exact .zero _ _
  | finite s m e hm => exact opposite_pack_neg (.finite s m e hm)

/-- What is below a number before zero is before zero itself. -/
theorem side_of_compare_lt (hv : side? v = some true) (hlt : u.compare v = some .lt) :
    side? u = some true := by
  cases u with
  | notANumber => cases hlt
  | infinity s | zero s | finite s m e =>
      cases s with
      | negative => rfl
      | positive =>
          cases v with
          | notANumber => cases hv
          | infinity t | zero t | finite t m' e' =>
              cases t with
              | positive => cases hv
              | negative => cases hlt

end Rounded

/-! ## Binary64 numbers -/

/-- One is the negation of the other, or both are zero. -/
def IsNegation (a b : Float) : Prop := b = -a ∨ (a == 0) = true ∧ (b == 0) = true

section Float

open Rounded

variable {a b c d bound : Float}

theorem beq_zero_iff : (a == 0) = true ↔ ∃ s, a.toModel.unpack = .zero s := by
  change (a.toModel.unpack.beq (.zero .positive)) = true ↔ _
  cases a.toModel.unpack with
  | notANumber => simp [Float.Model.UnpackedFloat.beq, Float.Model.UnpackedFloat.compare]
  | zero s => exact iff_of_true rfl ⟨s, rfl⟩
  | infinity s | finite s m e hm =>
      cases s <;> simp [Float.Model.UnpackedFloat.beq, Float.Model.UnpackedFloat.compare]

theorem eq_of_unpack (h : a.toModel.unpack = b.toModel.unpack) : a = b := by
  have hword := congrArg (fun u => Float.ofModel (Float.Model.pack u)) h
  exact (Float.ofBits_toBits a).symm.trans (hword.trans (Float.ofBits_toBits b))

theorem unpack_neg (a : Float) : (-a).toModel.unpack = a.toModel.unpack.neg := by
  refine (unpack_pack_neg _).trans (congrArg Float.Model.UnpackedFloat.neg ?_)
  exact congrArg (fun x : Float => x.toModel.unpack) (Float.ofBits_toBits a)

theorem isNegation_iff : IsNegation a b ↔ Opposite a.toModel.unpack b.toModel.unpack := by
  constructor
  · rintro (rfl | ⟨ha, hb⟩)
    · rw [unpack_neg]
      exact opposite_neg _
    · obtain ⟨s, hs⟩ := beq_zero_iff.mp ha
      obtain ⟨s', hs'⟩ := beq_zero_iff.mp hb
      rw [hs, hs']
      exact .zero s s'
  · intro h
    by_cases hneg : b.toModel.unpack = a.toModel.unpack.neg
    · exact .inl (eq_of_unpack (hneg.trans (unpack_neg a).symm))
    · obtain ⟨⟨s, hs⟩, ⟨s', hs'⟩⟩ := h.eq_neg_or_zero.resolve_left hneg
      exact .inr ⟨beq_zero_iff.mpr ⟨s, hs⟩, beq_zero_iff.mpr ⟨s', hs'⟩⟩

/-! ### Symmetric bounds -/

theorem clampBetween_of_lt_neg (hbound : 0 < bound) (h : a < -bound) :
    clampBetween (-bound) bound a = -bound := by
  have hinside : ¬ bound < -bound := fun hlt => not_le_of_lt hlt (neg_le_self hbound)
  simp only [clampBetween, h, hinside, if_true, if_false]

theorem clampBetween_of_lt (hbound : 0 < bound) (h : bound < a) :
    clampBetween (-bound) bound a = bound := by
  -- The order need not be transitive for this: the bounds are on different sides of zero.
  have habove : ¬ a < -bound := by
    intro hlow
    obtain ⟨hpositive, hnegative⟩ := sides_of_pos hbound
    have hside := side_of_compare_lt hnegative (lt_iff_compare.mp hlow)
    have hbelow := side_of_compare_lt hside (lt_iff_compare.mp h)
    rw [hpositive] at hbelow
    cases hbelow
  simp only [clampBetween, habove, h, if_true, if_false]

namespace IsNegation

theorem zero : IsNegation 0 0 := .inr ⟨rfl, rfl⟩

theorem neg (a : Float) : IsNegation a (-a) := .inl rfl

theorem symm (h : IsNegation a b) : IsNegation b a :=
  isNegation_iff.mpr (isNegation_iff.mp h).symm

theorem mul (h : IsNegation a b) (c : Float) : IsNegation (a * c) (b * c) :=
  isNegation_iff.mpr ((isNegation_iff.mp h).mul c.toModel.unpack).pack

theorem add (h : IsNegation a b) (h' : IsNegation c d) : IsNegation (a + c) (b + d) :=
  isNegation_iff.mpr ((isNegation_iff.mp h).add (isNegation_iff.mp h')).pack

/-- The order is turned around. -/
theorem lt_iff (h : IsNegation a b) (h' : IsNegation c d) : a < c ↔ d < b := by
  rw [lt_iff_compare, lt_iff_compare,
    (isNegation_iff.mp h).compare (isNegation_iff.mp h')]

/-- One number is cut back to the lower bound when the other is cut back to the upper one. -/
theorem clampBetween (hbound : 0 < bound) (h : IsNegation a b) :
    IsNegation (clampBetween (-bound) bound a) (clampBetween (-bound) bound b) := by
  have hbounds : IsNegation (-bound) bound := (neg bound).symm
  by_cases hlow : a < -bound
  · rw [clampBetween_of_lt_neg hbound hlow,
      clampBetween_of_lt hbound ((h.lt_iff hbounds).mp hlow)]
    exact hbounds
  · by_cases hhigh : bound < a
    · rw [clampBetween_of_lt hbound hhigh,
        clampBetween_of_lt_neg hbound ((hbounds.symm.lt_iff h).mp hhigh)]
      exact neg bound
    -- What is within the bounds, or no number at all, stays as it is.
    · have hhigh' : ¬ bound < b := mt (h.lt_iff hbounds).mpr hlow
      have hlow' : ¬ b < -bound := mt (hbounds.symm.lt_iff h).mpr hhigh
      simp only [PlanarKalman.clampBetween, hlow, hhigh, hlow', hhigh', if_false]
      exact h

end IsNegation

end Float

end PlanarKalman
