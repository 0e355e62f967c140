import PlanarKalman.Proofs.RoundedArithmetic
import PlanarKalman.Proofs.Rounding.Grid

/-!
# What the operations round

A product or a quotient of binary64 numbers is computed on mantissas and then cut down to the
digits there are room for, one bit at a time. Of what is cut off two bits are kept, and they
are enough to round as if nothing had been cut off (`Describes`). So the magnitude of the
result is the rounding of the exact one, and it is a finite number when there is a field for
its exponent (`IsRounding`).

Magnitudes are all that is looked at here. The sign of a product or quotient plays no part in
how large it is.
-/

namespace PlanarKalman

namespace Rounded

open Float.Model Float.Model.UnpackedFloat

/-! ## Mantissas with what was cut off -/

/-- A mantissa and its two bits say where `f` is: there, or a half above if the first bit is
set, and by some rest above that if the second is. -/
def Describes (em : ExtendedMantissa) (f : ℚ) : Prop :=
  ∃ rest : ℚ, f = em.mantissa + (if em.roundBit then 1 / 2 else 0) + rest ∧
    0 ≤ rest ∧ rest < 1 / 2 ∧ (em.stickyBit = true ↔ 0 < rest)

namespace Describes

variable {em : ExtendedMantissa} {f : ℚ}

theorem mantissa_le (h : Describes em f) : (em.mantissa : ℚ) ≤ f := by
  obtain ⟨rest, rfl, hnonneg, -, -⟩ := h
  split <;> linarith

theorem lt_mantissa (h : Describes em f) : f < em.mantissa + 1 := by
  obtain ⟨rest, rfl, -, hlt, -⟩ := h
  split <;> linarith

/-- The bit that is cut off becomes the first of the two, and the two become the rest. -/
theorem shiftRightOne (h : Describes em f) : Describes em.shiftRightOne (f / 2) := by
  obtain ⟨rest, rfl, hnonneg, hlt, hsticky⟩ := h
  have hhalves : (em.mantissa : ℚ) = 2 * (em.mantissa / 2 : ℕ) + (em.mantissa % 2 : ℕ) := by
    exact_mod_cast (Nat.div_add_mod em.mantissa 2).symm
  refine ⟨(if em.roundBit then 1 / 4 else 0) + rest / 2, ?_, ?_, ?_, ?_⟩
  · show _ = ((em.mantissa / 2 : ℕ) : ℚ) + (if em.mantissa % 2 != 0 then 1 / 2 else 0) + _
    rw [hhalves]
    rcases Nat.mod_two_eq_zero_or_one em.mantissa with hmod | hmod <;>
      cases em.roundBit <;> rw [hmod] <;> norm_num <;> ring
  · split <;> linarith
  · split <;> linarith
  · show (em.roundBit || em.stickyBit) = true ↔ _
    cases em.roundBit with
    | true => simp; linarith
    | false => simp [hsticky]

theorem shiftRight (h : Describes em f) (n : ℕ) : Describes (em >>> n) (f / 2 ^ n) := by
  induction n with
  | zero =>
      rw [pow_zero, div_one]
      exact h
  | succ n ih =>
      rw [pow_succ, ← div_div]
      exact ih.shiftRightOne

/-- The two bits are enough to round. -/
theorem isNearest (h : Describes em f) : IsNearest f em.roundedMantissa := by
  obtain ⟨m, roundBit, stickyBit⟩ := em
  obtain ⟨rest, rfl, hnonneg, hlt, hsticky⟩ := h
  cases stickyBit with
  | true =>
      have hpos : 0 < rest := hsticky.mp rfl
      refine isNearest_of_lt ?_
      cases roundBit with
      | true =>
          show |((m + 1 : ℕ) : ℚ) - (m + 1 / 2 + rest)| < 1 / 2
          push_cast
          rw [abs_lt]
          constructor <;> linarith
      | false =>
          show |(m : ℚ) - (m + 0 + rest)| < 1 / 2
          rw [abs_lt]
          constructor <;> linarith
  | false =>
      obtain rfl : rest = 0 :=
        le_antisymm (not_lt.mp fun hpos => Bool.noConfusion (hsticky.mpr hpos)) hnonneg
      cases roundBit with
      | true =>
          show IsNearest (m + 1 / 2 + 0) (m + m % 2)
          rw [add_zero]
          exact isNearest_half m
      | false =>
          show IsNearest (m + 0 + 0) m
          rw [add_zero, add_zero]
          exact isNearest_natCast m

end Describes

theorem describes_exact (m : ℕ) : Describes (.ofMantissaAndAccuracy m .exact) m :=
  ⟨0, by simp [ExtendedMantissa.ofMantissaAndAccuracy]⟩

/-- The rest of a division, compared with half the divisor. -/
theorem describes_fraction (n : ℕ) {d : ℕ} (hd : 0 < d) :
    Describes (.ofMantissaAndAccuracy (n / d) (accuracyOfFraction (n % d) d)) (n / d) := by
  have hpos : (0 : ℚ) < d := Nat.cast_pos.mpr hd
  have hquotient : (n : ℚ) / d = (n / d : ℕ) + (n % d : ℕ) / d := by
    rw [div_eq_iff hpos.ne', add_mul, div_mul_cancel₀ _ hpos.ne', mul_comm]
    exact_mod_cast (Nat.div_add_mod n d).symm
  have hlt : ((n % d : ℕ) : ℚ) < d := Nat.cast_lt.mpr (Nat.mod_lt n hd)
  have hhalf : ((2 * (n % d) : ℕ) : ℚ) = 2 * (n % d : ℕ) := by push_cast; ring
  rw [hquotient, accuracyOfFraction]
  split
  · rename_i hzero
    rw [hzero, Nat.cast_zero, zero_div, add_zero]
    exact describes_exact _
  · rename_i hrest
    have hsome : (0 : ℚ) < (n % d : ℕ) / d :=
      div_pos (Nat.cast_pos.mpr (Nat.pos_of_ne_zero hrest)) hpos
    cases hcompare : compare (2 * (n % d)) d with
    | lt =>
        have hless : ((2 * (n % d) : ℕ) : ℚ) < d :=
          Nat.cast_lt.mpr (compare_lt_iff_lt.mp hcompare)
        refine ⟨(n % d : ℕ) / d, ?_, hsome.le, ?_, iff_of_true rfl hsome⟩
        · simp [ExtendedMantissa.ofMantissaAndAccuracy]
        · rw [div_lt_div_iff₀ hpos two_pos]
          linarith
    | eq =>
        have hsame : ((2 * (n % d) : ℕ) : ℚ) = d :=
          congrArg Nat.cast (compare_eq_iff_eq.mp hcompare)
        refine ⟨0, ?_, le_rfl, one_half_pos, by simp [ExtendedMantissa.ofMantissaAndAccuracy]⟩
        have hexact : ((n % d : ℕ) : ℚ) / d = 1 / 2 := by
          rw [div_eq_div_iff hpos.ne' two_ne_zero]
          linarith
        rw [hexact]
        simp [ExtendedMantissa.ofMantissaAndAccuracy]
    | gt =>
        have hmore : (d : ℚ) < ((2 * (n % d) : ℕ) : ℚ) :=
          Nat.cast_lt.mpr (compare_gt_iff_gt.mp hcompare)
        have habove : 1 / 2 < ((n % d : ℕ) : ℚ) / d := by
          rw [div_lt_div_iff₀ two_pos hpos]
          linarith
        have hbelow : ((n % d : ℕ) : ℚ) / d < 1 := (div_lt_one hpos).mpr hlt
        refine ⟨(n % d : ℕ) / d - 1 / 2, ?_, by linarith, by linarith,
          iff_of_true rfl (by linarith)⟩
        simp [ExtendedMantissa.ofMantissaAndAccuracy]

/-! ## Rounding a mantissa -/

theorem targetExponent_totalExponent (m : ℕ) (e : ℤ) :
    Format.binary64.targetExponent (totalExponent m e) = max ((m.log2 : ℤ) + e - 52) (-1074) := by
  have htarget : Format.binary64.targetExponent (totalExponent m e)
      = max ((m.log2 : ℤ) + 1 + e - 53) (-1074) := rfl
  rw [htarget]
  congr 1
  omega

theorem shiftToTargetExponent_eq (m : ℕ) {e g : ℤ} (accuracy : Accuracy)
    (hg : Format.binary64.targetExponent (totalExponent m e) = g) (he : e ≤ g) :
    shiftToTargetExponent .binary64 m e accuracy
      = (ExtendedMantissa.ofMantissaAndAccuracy m accuracy >>> (g - e).toNat, g) := by
  have hsum : e + ((g - e).toNat : ℤ) = g := by omega
  simp only [shiftToTargetExponent, hg, shiftToExponent, hsum]

/-- Less than a unit is left of nothing but what is less than the least unit. -/
theorem le_least_of_lt_one {e : ℤ} {f : ℚ} (hf : 0 < f) (hlt : f < 1)
    (he : e ≤ lastPlace (f * 2 ^ e)) : e ≤ -1074 := by
  by_contra hmore
  have hplace : lastPlace (f * 2 ^ e) ≠ -1074 := by omega
  have hfull : (2 : ℚ) ^ (lastPlace (f * 2 ^ e) + 52) < 2 ^ e :=
    (zpow_le_of_lastPlace (mul_pos hf (zpow_two_pos e)) hplace).trans_lt
      (mul_lt_of_lt_one_left (zpow_two_pos e) hlt)
  rw [zpow_lt_zpow_iff_right₀ one_lt_two] at hfull
  omega

/-- The exponent that a mantissa is shifted to is that of the last place. -/
theorem targetExponent_eq_lastPlace {m : ℕ} {e : ℤ} {f : ℚ} (hf : 0 < f) (hm : (m : ℚ) ≤ f)
    (hlt : f < m + 1) (he : e ≤ lastPlace (f * 2 ^ e)) :
    Format.binary64.targetExponent (totalExponent m e) = lastPlace (f * 2 ^ e) := by
  have hx : 0 < f * 2 ^ e := mul_pos hf (zpow_two_pos e)
  rw [targetExponent_totalExponent]
  refine (lastPlace_eq hx (le_max_right ..) ?_ ?_).symm
  · have hdigits : ((m + 1 : ℕ) : ℚ) ≤ (2 ^ (m.log2 + 1) : ℕ) := Nat.cast_le.mpr Nat.lt_log2_self
    calc f * 2 ^ e
        < (2 ^ (m.log2 + 1) : ℕ) * 2 ^ e := by
          refine mul_lt_mul_of_pos_right (hlt.trans_le ?_) (zpow_two_pos e)
          exact_mod_cast hdigits
      _ = 2 ^ (e + (m.log2 + 1 : ℕ)) := (zpow_add_digits _ _).symm
      _ ≤ 2 ^ (max ((m.log2 : ℤ) + e - 52) (-1074) + 53) := zpow_two_le (by push_cast; omega)
  · rw [or_iff_not_imp_left]
    intro hplace
    -- nothing is known of the first digit when there is none, but then the unit is the least
    rcases Nat.eq_zero_or_pos m with rfl | hpos
    · rw [Nat.cast_zero, zero_add] at hlt
      have hleast := le_least_of_lt_one hf hlt he
      rw [Nat.log2_zero] at hplace
      omega
    · have hexponent : max ((m.log2 : ℤ) + e - 52) (-1074) + 52 = e + m.log2 := by omega
      have hdigits : ((2 ^ m.log2 : ℕ) : ℚ) ≤ m := Nat.cast_le.mpr (Nat.log2_self_le hpos.ne')
      rw [hexponent, zpow_add_digits]
      exact mul_le_mul_of_nonneg_right (hdigits.trans hm) (zpow_two_pos e).le

/-- What a number in the making holds: zero, or so many units of the last place. -/
def Holds (y : ℚ) : UnpackedFloat → Prop
  | .zero _ => y = 0
  | .finite _ m e _ => IsCanonical m e ∧ y = m * 2 ^ e
  | _ => False

/-- The second shift makes room for a digit that rounding may have added. -/
theorem holds_second_shift (s : Sign) {n : ℕ} {g : ℤ} (hn : n ≤ 2 ^ 53) (hg : -1074 ≤ g)
    (hfull : g = -1074 ∨ 2 ^ 52 ≤ n) :
    Holds (n * 2 ^ g)
      (let (em, e) := shiftToTargetExponent .binary64 n g .exact
       if h : em.mantissa = 0 then .zero s
       else .finite s em.mantissa e (Nat.pos_of_ne_zero h)) := by
  rcases hn.eq_or_lt with rfl | hlt
  · have htarget : Format.binary64.targetExponent (totalExponent (2 ^ 53) g) = g + 1 := by
      rw [targetExponent_totalExponent, Nat.log2_two_pow]
      omega
    have hone : (g + 1 - g).toNat = 1 := by omega
    rw [shiftToTargetExponent_eq _ _ htarget (by omega), hone]
    have hpower : (2 : ℚ) ^ (g + 1) = (2 ^ 1 : ℕ) * 2 ^ g := zpow_add_digits g 1
    refine ⟨⟨by decide, by omega, Or.inr le_rfl⟩, ?_⟩
    show ((2 ^ 53 : ℕ) : ℚ) * 2 ^ g = (2 ^ 53 / 2 : ℕ) * 2 ^ (g + 1)
    rw [hpower, ← mul_assoc]
    norm_num
  · have hzero : (Format.binary64.targetExponent (totalExponent n g) - g).toNat = 0 := by
      have hdigits : n.log2 < 53 := by
        rcases Nat.eq_zero_or_pos n with rfl | hpos
        · decide
        · exact (Nat.log2_lt hpos.ne').mpr hlt
      rw [targetExponent_totalExponent]
      omega
    have hshift : shiftToTargetExponent .binary64 n g .exact
        = (.ofMantissaAndAccuracy n .exact, g) := by
      simp only [shiftToTargetExponent, shiftToExponent, hzero, Nat.cast_zero, add_zero]
      rfl
    rw [hshift]
    show Holds _ (if h : n = 0 then .zero s else .finite s n g (Nat.pos_of_ne_zero h))
    split
    · rename_i hnone
      rw [hnone, Nat.cast_zero, zero_mul]
      rfl
    · exact ⟨⟨hlt, hg, hfull⟩, rfl⟩

/-- Rounding a mantissa with its accuracy is rounding what they stand for. -/
theorem holds_roundWithAccuracy (s : Sign) {m : ℕ} {e : ℤ} {accuracy : Accuracy} {f : ℚ}
    (hdescribes : Describes (.ofMantissaAndAccuracy m accuracy) f) (hf : 0 < f)
    (he : e ≤ lastPlace (f * 2 ^ e)) :
    ∃ y, Rounds (f * 2 ^ e) y ∧ Holds y (roundWithAccuracy .binary64 s m e accuracy) := by
  have hx : 0 < f * 2 ^ e := mul_pos hf (zpow_two_pos e)
  have hmantissa : (ExtendedMantissa.ofMantissaAndAccuracy m accuracy).mantissa = m := by
    cases accuracy with
    | exact => rfl
    | inexact o => cases o <;> rfl
  have hle := hdescribes.mantissa_le
  have hlt := hdescribes.lt_mantissa
  rw [hmantissa] at hle hlt
  have hshift := shiftToTargetExponent_eq m accuracy (targetExponent_eq_lastPlace hf hle hlt he) he
  have hunits : f / 2 ^ (lastPlace (f * 2 ^ e) - e).toNat
      = f * 2 ^ e / 2 ^ lastPlace (f * 2 ^ e) := by
    have hpower := zpow_add_digits e (lastPlace (f * 2 ^ e) - e).toNat
    rw [Int.toNat_of_nonneg (sub_nonneg.mpr he), add_sub_cancel, Nat.cast_pow,
      Nat.cast_ofNat] at hpower
    rw [hpower, mul_div_mul_right _ _ (zpow_two_pos e).ne']
  have hnear := (hdescribes.shiftRight (lastPlace (f * 2 ^ e) - e).toNat).isNearest
  rw [hunits] at hnear
  refine ⟨_, ⟨_, hnear, rfl⟩, ?_⟩
  simp only [roundWithAccuracy, hshift]
  exact holds_second_shift s (hnear.le_pow hx) (le_lastPlace _)
    (or_iff_not_imp_left.mpr (hnear.pow_le hx))

/-! ## Words -/

theorem finite_congr (s : Sign) {m m' : ℕ} {e e' : ℤ} {hm : 0 < m} {hm' : 0 < m'} (h : m = m')
    (he : e = e') : UnpackedFloat.finite s m e hm = .finite s m' e' hm' := by
  subst h he
  rfl

/-- A field between the least and the greatest, for a mantissa with all its digits. -/
theorem unpack_full (s : Sign) {m : ℕ} (hm : 0 < m) (hfull : 2 ^ 52 ≤ m) (hlt : m < 2 ^ 53)
    {b : ℕ} (hpos : 0 < b) (hb : b < 2047) :
    UnpackedFloat.unpack .binary64
        (packComponents .binary64 s (BitVec.ofNat 11 b) (BitVec.ofNat 52 m))
      = .finite s m (b - 1075) hm := by
  have hbias : (Format.binary64.exponentBias : ℤ) = 1023 := rfl
  have hfield : (BitVec.ofNat 11 b).toNat = b := Nat.mod_eq_of_lt (by omega)
  have hfraction : (BitVec.ofNat 52 m).toNat = m % 2 ^ 52 := rfl
  have hall : BitVec.ofNat 11 b ≠ -1#11 := fun h => by
    have hmost := congrArg BitVec.toNat h
    rw [hfield] at hmost
    exact absurd hmost hb.ne
  have hnone : BitVec.ofNat 11 b ≠ 0#11 := fun h => by
    have hleast := congrArg BitVec.toNat h
    rw [hfield] at hleast
    exact absurd hleast hpos.ne'
  simp only [UnpackedFloat.unpack, unpackExponent_packComponents, unpackMantissa_packComponents,
    unpackSign_packComponents, Sign.ofBitVec_toBitVec, hall, hnone, if_false]
  refine finite_congr s ?_ ?_
  · rw [toNat_one_append, hfraction]
    omega
  · rw [hfield, hbias]
    omega

/-- The least field, for a mantissa that lacks digits. -/
theorem unpack_least (s : Sign) {m : ℕ} (hm : 0 < m) (hlt : m < 2 ^ 52) :
    UnpackedFloat.unpack .binary64 (packComponents .binary64 s 0#11 (BitVec.ofNat 52 m))
      = .finite s m (-1074) hm := by
  have hfraction : (BitVec.ofNat 52 m).toNat = m := Nat.mod_eq_of_lt hlt
  have hsome : BitVec.ofNat 52 m ≠ 0#52 := fun h => by
    have hzero := congrArg BitVec.toNat h
    rw [hfraction] at hzero
    exact absurd hzero hm.ne'
  have hall : (0#11 : BitVec 11) ≠ -1#11 := by decide
  simp only [UnpackedFloat.unpack, unpackExponent_packComponents, unpackMantissa_packComponents,
    unpackSign_packComponents, Sign.ofBitVec_toBitVec, hall, hsome, if_false, if_true, dif_neg,
    not_false_eq_true]
  exact finite_congr s hfraction rfl

theorem unpack_pack_of_lt (s : Sign) {m : ℕ} {e : ℤ} (hm : 0 < m) (h : IsCanonical m e)
    (he : e < 972) : (Float.Model.pack (.finite s m e hm)).unpack = .finite s m e hm := by
  have hbias : (Format.binary64.exponentBias : ℤ) = 1023 := rfl
  have hlt := h.lt
  have hle := h.le
  simp only [Float.Model.pack, Float.Model.unpack, UnpackedFloat.pack]
  have hdigits : m.log2 = 52 ↔ 2 ^ 52 ≤ m := by
    rw [Nat.log2_eq_iff hm.ne']
    exact and_iff_left hlt
  split
  · omega
  · split
    · rename_i hlog
      have hfull := hdigits.mp (Nat.succ_injective hlog)
      exact (unpack_full s hm hfull hlt (by omega) (by omega)).trans
        (finite_congr s rfl (by omega))
    · rename_i hlog
      have hless : ¬ 2 ^ 52 ≤ m := fun hfull => hlog (congrArg Nat.succ (hdigits.mpr hfull))
      exact (unpack_least s hm (not_le.mp hless)).trans
        (finite_congr s rfl (h.full.resolve_right hless).symm)

theorem unpack_pack_of_le (s : Sign) {m : ℕ} {e : ℤ} (hm : 0 < m) (he : 972 ≤ e) :
    (Float.Model.pack (.finite s m e hm)).unpack = .infinity s := by
  have hbias : (Format.binary64.exponentBias : ℤ) = 1023 := rfl
  simp only [Float.Model.pack, Float.Model.unpack, UnpackedFloat.pack]
  split
  · cases s <;> rfl
  · omega

/-- What a word holds is a number of the format. -/
theorem isCanonical_of_unpack {a : Float.Model} {s : Sign} {m : ℕ} {e : ℤ} {hm : 0 < m}
    (h : a.unpack = .finite s m e hm) : IsCanonical m e := by
  have hbias : (Format.binary64.exponentBias : ℤ) = 1023 := rfl
  simp only [Float.Model.unpack, UnpackedFloat.unpack, toNat_one_append] at h
  generalize @unpackExponent .binary64 a.toBits.toBitVec = field at h
  have hfraction : (@unpackMantissa .binary64 a.toBits.toBitVec).toNat < 2 ^ 52 :=
    (@unpackMantissa .binary64 a.toBits.toBitVec).isLt
  split at h
  · split at h <;> cases h
  · split at h
    · rename_i hzero
      have hnone : field.toNat = 0 := congrArg BitVec.toNat hzero
      split at h <;> cases h
      exact ⟨hfraction.trans (by decide), by omega, Or.inl (by omega)⟩
    · rename_i hsome
      have hne : field.toNat ≠ 0 := fun heq => hsome (BitVec.eq_of_toNat_eq heq)
      cases h
      exact ⟨by omega, by omega, Or.inr (Nat.le_add_right _ _)⟩

/-! ## The operations -/

/-- A product has at least the digits that one of its factors has, unless both are of the
least unit. -/
theorem IsCanonical.le_lastPlace_mul {m m' : ℕ} {e e' : ℤ} (h : IsCanonical m e)
    (h' : IsCanonical m' e') (hm : 0 < m) (hm' : 0 < m') :
    e + e' ≤ lastPlace ((m * m' : ℕ) * 2 ^ (e + e')) := by
  have hproduct : 0 < m * m' := Nat.mul_pos hm hm'
  by_cases hboth : e = -1074 ∧ e' = -1074
  · exact le_trans (by omega) (le_lastPlace _)
  · have hfull : 2 ^ 52 ≤ m * m' := by
      rcases not_and_or.mp hboth with he | he
      · exact (h.full.resolve_left he).trans (Nat.le_mul_of_pos_right m hm')
      · exact (h'.full.resolve_left he).trans (Nat.le_mul_of_pos_left m' hm)
    refine le_lastPlace_of_le (mul_pos (Nat.cast_pos.mpr hproduct) (zpow_two_pos _)) ?_
    refine (zpow_add_digits (e + e') 52).trans_le ?_
    exact mul_le_mul_of_nonneg_right (Nat.cast_le.mpr hfull) (zpow_two_pos _).le

/-- A product is computed exactly before it is rounded. -/
theorem holds_mul {u v : UnpackedFloat} {x y : ℚ} (hu : Holds x u) (hv : Holds y v) :
    ∃ z, Rounds (x * y) z ∧ Holds z (u.mul .binary64 v) := by
  cases u with
  | notANumber | infinity s => cases hu
  | zero s =>
      obtain rfl : x = 0 := hu
      rw [zero_mul]
      cases v with
      | notANumber | infinity s' => cases hv
      | zero s' | finite s' m' e' => exact ⟨0, rounds_zero_iff.mpr rfl, rfl⟩
  | finite s m e hm =>
      obtain ⟨hcanonical, rfl⟩ := hu
      cases v with
      | notANumber | infinity s' => cases hv
      | zero s' =>
          obtain rfl : y = 0 := hv
          rw [mul_zero]
          exact ⟨0, rounds_zero_iff.mpr rfl, rfl⟩
      | finite s' m' e' hm' =>
          obtain ⟨hcanonical', rfl⟩ := hv
          have hexact : (m : ℚ) * 2 ^ e * (m' * 2 ^ e') = (m * m' : ℕ) * 2 ^ (e + e') := by
            rw [Nat.cast_mul, zpow_add₀ two_ne_zero, mul_mul_mul_comm]
          rw [hexact]
          exact holds_roundWithAccuracy (s * s') (describes_exact (m * m'))
            (Nat.cast_pos.mpr (Nat.mul_pos hm hm'))
            (hcanonical.le_lastPlace_mul hcanonical' hm hm')

/-- The exponent that a quotient is computed with is not above its last place. -/
theorem le_lastPlace_div {m m' : ℕ} {e e' t : ℤ} (hm : 0 < m) (hm' : 0 < m')
    (ht : t ≤ Format.binary64.targetExponent (totalExponent m e - totalExponent m' e')) :
    t ≤ lastPlace (m * 2 ^ e / (m' * 2 ^ e')) := by
  have htarget : Format.binary64.targetExponent (totalExponent m e - totalExponent m' e')
      = max ((m.log2 + 1 + e) - (m'.log2 + 1 + e') - 53 : ℤ) (-1074) := rfl
  have hdivisor : 0 < (m' : ℚ) * 2 ^ e' := mul_pos (Nat.cast_pos.mpr hm') (zpow_two_pos e')
  have hx : 0 < (m : ℚ) * 2 ^ e / (m' * 2 ^ e') :=
    div_pos (mul_pos (Nat.cast_pos.mpr hm) (zpow_two_pos e)) hdivisor
  have hlower : ((2 ^ m.log2 : ℕ) : ℚ) ≤ m := Nat.cast_le.mpr (Nat.log2_self_le hm.ne')
  have hupper : (m' : ℚ) ≤ (2 ^ (m'.log2 + 1) : ℕ) := Nat.cast_le.mpr Nat.lt_log2_self.le
  have hdigits : (m.log2 + e - (m'.log2 + 1 + e') - 52 : ℤ)
      ≤ lastPlace ((m : ℚ) * 2 ^ e / (m' * 2 ^ e')) := by
    refine le_lastPlace_of_le hx ?_
    rw [sub_add_cancel, le_div_iff₀ hdivisor]
    calc (2 : ℚ) ^ (m.log2 + e - (m'.log2 + 1 + e') : ℤ) * (m' * 2 ^ e')
        ≤ 2 ^ (m.log2 + e - (m'.log2 + 1 + e') : ℤ) * ((2 ^ (m'.log2 + 1) : ℕ) * 2 ^ e') := by
          gcongr
      _ = (2 ^ m.log2 : ℕ) * 2 ^ e := by
          rw [← zpow_add_digits, ← zpow_add_digits, ← zpow_add₀ two_ne_zero]
          congr 1
          push_cast
          omega
      _ ≤ m * 2 ^ e := mul_le_mul_of_nonneg_right hlower (zpow_two_pos e).le
  have hleast := le_lastPlace ((m : ℚ) * 2 ^ e / (m' * 2 ^ e'))
  omega

/-- A quotient is computed to one digit more than there is room for, and what is left of the
division is compared with the divisor. -/
theorem holds_div {u v : UnpackedFloat} {x y : ℚ} (hu : Holds x u) (hv : Holds y v) (hy : y ≠ 0) :
    ∃ z, Rounds (x / y) z ∧ Holds z (u.div .binary64 v) := by
  cases v with
  | notANumber | infinity s' => cases hv
  | zero s' => exact absurd hv hy
  | finite s' m' e' hm' =>
      obtain ⟨-, rfl⟩ := hv
      cases u with
      | notANumber | infinity s => cases hu
      | zero s =>
          obtain rfl : x = 0 := hu
          rw [zero_div]
          exact ⟨0, rounds_zero_iff.mpr rfl, rfl⟩
      | finite s m e hm =>
          obtain ⟨-, rfl⟩ := hu
          let t := min (e - e')
            (Format.binary64.targetExponent (totalExponent m e - totalExponent m' e'))
          let k := (e - e' - t).toNat
          have hexact : (m : ℚ) * 2 ^ e / (m' * 2 ^ e') = (m <<< k : ℕ) / m' * 2 ^ t := by
            have hpower : (2 : ℚ) ^ e = (2 ^ k : ℕ) * 2 ^ t * 2 ^ e' := by
              rw [← zpow_add_digits, ← zpow_add₀ two_ne_zero]
              congr 1
              omega
            rw [hpower, Nat.shiftLeft_eq, Nat.cast_mul, ← mul_assoc, ← mul_assoc,
              mul_div_mul_right _ _ (zpow_two_pos e').ne', mul_div_right_comm]
          have hplace : t ≤ lastPlace (m * 2 ^ e / (m' * 2 ^ e')) :=
            le_lastPlace_div hm hm' (min_le_right ..)
          have hpos : (0 : ℚ) < (m <<< k : ℕ) / m' := by
            rw [Nat.shiftLeft_eq]
            exact div_pos (Nat.cast_pos.mpr (Nat.mul_pos hm (Nat.two_pow_pos k)))
              (Nat.cast_pos.mpr hm')
          rw [hexact] at hplace ⊢
          exact holds_roundWithAccuracy (s / s') (describes_fraction (m <<< k) hm') hpos hplace

/-- How large a finite number is. -/
def magnitudeOf : UnpackedFloat → ℚ
  | .finite _ m e _ => m * 2 ^ e
  | _ => 0

theorem holds_unpack {a : Float.Model} (h : a.unpack.isFinite = true) :
    Holds (magnitudeOf a.unpack) a.unpack := by
  cases hu : a.unpack with
  | notANumber | infinity s =>
      rw [hu] at h
      cases h
  | zero s => rfl
  | finite s m e hm => exact ⟨isCanonical_of_unpack hu, rfl⟩

theorem Holds.nonneg {u : UnpackedFloat} {x : ℚ} (h : Holds x u) : 0 ≤ x := by
  cases u with
  | notANumber | infinity s => cases h
  | zero s => exact h.ge
  | finite s m e hm =>
      obtain ⟨-, rfl⟩ := h
      exact mul_nonneg m.cast_nonneg (zpow_two_pos e).le

theorem Holds.rounds_self {u : UnpackedFloat} {x : ℚ} (h : Holds x u) : Rounds x x := by
  cases u with
  | notANumber | infinity s => cases h
  | zero s =>
      obtain rfl : x = 0 := h
      exact rounds_zero_iff.mpr rfl
  | finite s m e hm =>
      obtain ⟨hcanonical, rfl⟩ := h
      exact hcanonical.rounds_self hm

/-- A word holds what was put into it, or an infinity if there is no field for that. -/
theorem isFinite_pack_iff {u : UnpackedFloat} {y : ℚ} (h : Holds y u) :
    ((Float.Model.pack u).unpack.isFinite = true ↔ y < 2 ^ (1024 : ℤ)) ∧
      ((Float.Model.pack u).unpack.isFinite = true →
        magnitudeOf (Float.Model.pack u).unpack = y) := by
  cases u with
  | notANumber | infinity s => cases h
  | zero s =>
      obtain rfl : y = 0 := h
      have hunpack : (Float.Model.pack (.zero s)).unpack = .zero s := by cases s <;> rfl
      rw [hunpack]
      exact ⟨iff_of_true rfl (zpow_two_pos _), fun _ => rfl⟩
  | finite s m e hm =>
      obtain ⟨hcanonical, rfl⟩ := h
      rw [hcanonical.lt_zpow_iff]
      by_cases he : e < 972
      · rw [unpack_pack_of_lt s hm hcanonical he]
        exact ⟨iff_of_true rfl he, fun _ => rfl⟩
      · rw [unpack_pack_of_le s hm (not_lt.mp he)]
        exact ⟨iff_of_false Bool.false_ne_true he, nofun⟩

/-! Nothing finite comes from what is not. -/

theorem isFinite_of_pack {u : UnpackedFloat} (h : (Float.Model.pack u).unpack.isFinite = true) :
    u.isFinite = true := by
  cases u with
  | notANumber => cases h
  | infinity s => cases s <;> cases h
  | zero s | finite s m e hm => rfl

theorem isFinite_of_unpacked_mul {u v : UnpackedFloat}
    (h : (u.mul .binary64 v).isFinite = true) : u.isFinite = true ∧ v.isFinite = true := by
  cases u with
  | notANumber => cases h
  | infinity s => cases v <;> cases h
  | zero s | finite s m e hm =>
      cases v with
      | notANumber | infinity s' => cases h
      | zero s' | finite s' m' e' hm' => exact ⟨rfl, rfl⟩

theorem isFinite_of_unpacked_div {u v : UnpackedFloat}
    (h : (u.div .binary64 v).isFinite = true) : u.isFinite = true := by
  cases u with
  | notANumber => cases h
  | infinity s => cases v <;> cases h
  | zero s | finite s m e hm => rfl

end Rounded

/-! ## Binary64 numbers -/

section Float

open Rounded

/-- How large a binary64 number is. Infinities count as nothing, so this is of use for finite
numbers only. -/
def size (a : Float) : ℚ := magnitudeOf a.toModel.unpack

/-- The magnitude of `c` is the rounding of `x`, unless that is beyond all numbers. Then `c`
is not finite. -/
def IsRounding (c : Float) (x : ℚ) : Prop :=
  ∃ y, Rounds x y ∧ (c.isFinite = true ↔ y < 2 ^ (1024 : ℤ)) ∧
    (c.isFinite = true → size c = y)

variable {a b c d : Float} {x x' : ℚ}

theorem size_nonneg (ha : a.isFinite = true) : 0 ≤ size a := (holds_unpack ha).nonneg

/-- A larger positive number has a larger magnitude. -/
theorem size_le_size (hb : b.isFinite = true) (hpos : 0 < a) (hle : a ≤ b) :
    size a ≤ size b := by
  have hside := (sides_of_pos hpos).1
  have hsize := size_nonneg hb
  change b.toModel.unpack.isFinite = true at hb
  rw [le_iff_compare] at hle
  unfold size at hsize ⊢
  cases hu : a.toModel.unpack with
  | notANumber | infinity s | zero s => exact hsize
  | finite s m e hm =>
      rw [hu] at hside hle
      cases s with
      | negative => cases hside
      | positive =>
          cases hv : b.toModel.unpack with
          | notANumber | infinity s' =>
              rw [hv] at hb
              cases hb
          | zero s' =>
              rw [hv] at hle
              cases hle
          | finite s' m' e' hm' =>
              rw [hv] at hle
              cases s' with
              | negative => cases hle
              | positive =>
                  refine (isCanonical_of_unpack hu).le_of_digits (isCanonical_of_unpack hv) ?_
                  change ((compare e e').then (compare m m')).isLE = true at hle
                  rw [Ordering.isLE_then_iff_or, compare_lt_iff_lt, compare_eq_iff_eq,
                    Nat.isLE_compare] at hle
                  exact hle

/-- Rounding keeps the order, so no smaller magnitude becomes a larger number or overflows. -/
theorem IsRounding.isFinite_of_le (h : IsRounding c x) (h' : IsRounding d x') (hx : 0 ≤ x)
    (hle : x ≤ x') (hd : d.isFinite = true) : c.isFinite = true ∧ size c ≤ size d := by
  obtain ⟨y, hrounds, hfinite, hsize⟩ := h
  obtain ⟨y', hrounds', hfinite', hsize'⟩ := h'
  have hmono := hrounds.mono hrounds' hx hle
  have hc := hfinite.mpr (hmono.trans_lt (hfinite'.mp hd))
  refine ⟨hc, ?_⟩
  rw [hsize hc, hsize' hd]
  exact hmono

theorem isRounding_size (ha : a.isFinite = true) : IsRounding a (size a) := by
  refine ⟨size a, (holds_unpack ha).rounds_self, iff_of_true ha ?_, fun _ => rfl⟩
  rw [size]
  cases hu : a.toModel.unpack with
  | notANumber | infinity s | zero s => exact zpow_two_pos _
  | finite s m e hm => exact (isCanonical_of_unpack hu).lt_zpow_iff.mpr (exponent_lt hu)

theorem isRounding_mul (ha : a.isFinite = true) (hb : b.isFinite = true) :
    IsRounding (a * b) (size a * size b) := by
  obtain ⟨y, hrounds, hholds⟩ := holds_mul (holds_unpack ha) (holds_unpack hb)
  exact ⟨y, hrounds, isFinite_pack_iff hholds⟩

theorem isRounding_div (ha : a.isFinite = true) (hb : b.isFinite = true) (hsome : size b ≠ 0) :
    IsRounding (a / b) (size a / size b) := by
  obtain ⟨y, hrounds, hholds⟩ := holds_div (holds_unpack ha) (holds_unpack hb) hsome
  exact ⟨y, hrounds, isFinite_pack_iff hholds⟩

theorem isFinite_of_mul (h : (a * b).isFinite = true) : a.isFinite = true ∧ b.isFinite = true :=
  isFinite_of_unpacked_mul (isFinite_of_pack h)

theorem isFinite_of_div (h : (a / b).isFinite = true) : a.isFinite = true :=
  isFinite_of_unpacked_div (isFinite_of_pack h)

/-- A product that is no larger than a number does not overflow. -/
theorem isFinite_mul_of_le (ha : a.isFinite = true) (hb : b.isFinite = true)
    (hc : c.isFinite = true) (hle : size a * size b ≤ size c) :
    (a * b).isFinite = true ∧ size (a * b) ≤ size c :=
  (isRounding_mul ha hb).isFinite_of_le (isRounding_size hc)
    (mul_nonneg (size_nonneg ha) (size_nonneg hb)) hle hc

/-- Rounding does not bring a product below a number that is no larger. -/
theorem le_size_mul (ha : a.isFinite = true) (hb : b.isFinite = true) (hc : c.isFinite = true)
    (hle : size c ≤ size a * size b) (hfinite : (a * b).isFinite = true) :
    size c ≤ size (a * b) :=
  ((isRounding_size hc).isFinite_of_le (isRounding_mul ha hb) (size_nonneg hc) hle hfinite).2

theorem isFinite_mul_mono (ha : a.isFinite = true) (hb : b.isFinite = true)
    (hle : size b ≤ size c) (hfinite : (a * c).isFinite = true) : (a * b).isFinite = true := by
  have hc := (isFinite_of_mul hfinite).2
  exact ((isRounding_mul ha hb).isFinite_of_le (isRounding_mul ha hc)
    (mul_nonneg (size_nonneg ha) (size_nonneg hb))
    (mul_le_mul_of_nonneg_left hle (size_nonneg ha)) hfinite).1

/-- Division by what is not below one does not overflow. -/
theorem isFinite_div (ha : a.isFinite = true) (hb : b.isFinite = true) (hone : 1 ≤ size b) :
    (a / b).isFinite = true :=
  ((isRounding_div ha hb (zero_lt_one.trans_le hone).ne').isFinite_of_le (isRounding_size ha)
    (div_nonneg (size_nonneg ha) (size_nonneg hb)) (div_le_self (size_nonneg ha) hone) ha).1

end Float

end PlanarKalman
