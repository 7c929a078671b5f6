import Reckon.Proofs.Number.Value
/-!
Rounding to a float. A mantissa that is shifted to the right keeps the bit that was shifted out last
and whether one was set below it, which is what it takes to round to the nearest number of 53 bits.
Main statement: what is rounded comes to a float that is as near as any, or it is out of the range
of floats.
-/
namespace Reckon.Number

open Float.Model Float.Model.UnpackedFloat

-- A number with at most 53 bits, the last of which has at least the least exponent of all.
def Representable (q : ℚ) : Prop := ∃ n e : ℤ, |n| < 2 ^ 53 ∧ -1074 ≤ e ∧ q = n * 2 ^ e

-- What is not below this is too large for a float: it lies half a unit above the largest one.
def ceiling : ℚ := (2 ^ 54 - 1) * 2 ^ (970 : ℤ)

-- What `v` is rounded to: nothing with 53 bits is nearer, or `v` is too large for a float.
inductive Rounds (v : ℚ) (x : Float) : Prop
  | nearest {r : ℚ} : value? x = some r → (∀ q, Representable q → |v - r| ≤ |v - q|) → Rounds v x
  | overflow : exact x = .infinite (decide (v < 0)) → ceiling ≤ |v| → Rounds v x

-- A multiple of a power of two is one of each smaller power.
theorem mul_two_zpow_add (n e : ℤ) (k : Nat) :
    (n : ℚ) * 2 ^ (e + k) = (n * 2 ^ k : ℤ) * 2 ^ e := by
  rw [zpow_add₀ (by norm_num), zpow_natCast, Int.cast_mul, Int.cast_pow, Int.cast_ofNat]
  ac_rfl

theorem representable_zero : Representable 0 := ⟨0, 0, by norm_num, by norm_num, by norm_num⟩

theorem Representable.neg {q : ℚ} (h : Representable q) : Representable (-q) := by
  obtain ⟨n, e, hn, he, rfl⟩ := h
  exact ⟨-n, e, by rwa [abs_neg], he, by push_cast; ring⟩

theorem Canonical.representable {m : Nat} {e : Int} (h : Canonical m e) :
    Representable (m * 2 ^ e) :=
  ⟨m, e, by rw [Nat.abs_cast]; exact_mod_cast h.lt, h.least, by norm_cast⟩

theorem Representable.apply {q : ℚ} (h : Representable q) (s : Sign) :
    Representable (s.apply 1 * q) := by
  cases s with
  | positive => simpa [Sign.apply] using h
  | negative => simpa [Sign.apply] using h.neg

theorem apply_mul (s : Sign) (m : Nat) (e : Int) :
    (s.apply m : ℚ) * 2 ^ e = s.apply 1 * (m * 2 ^ e) := by
  cases s <;> simp [Sign.apply]

theorem representable_of_value {x : Float} {q : ℚ} (h : value? x = some q) : Representable q := by
  cases form_of_value h with
  | zero => exact representable_zero
  | finite _ hc =>
    rw [apply_mul]
    exact hc.representable.apply _

theorem rounds_of_value {x : Float} {q : ℚ} (h : value? x = some q) : Rounds q x :=
  .nearest h fun p _ => by rw [sub_self, abs_zero]; exact abs_nonneg _

-- The mantissa, the round bit and the sticky bit

-- The numbers that a mantissa with its two further bits stands for.
def Holds (em : ExtendedMantissa) (u : ℚ) : Prop :=
  match em.roundBit, em.stickyBit with
  | false, false => u = em.mantissa
  | false, true => em.mantissa < u ∧ u < em.mantissa + 1 / 2
  | true, false => u = em.mantissa + 1 / 2
  | true, true => em.mantissa + 1 / 2 < u ∧ u < em.mantissa + 1

section Holds

variable {em : ExtendedMantissa} {u : ℚ}

theorem Holds.bounds (h : Holds em u) : em.mantissa ≤ u ∧ u < em.mantissa + 1 := by
  obtain ⟨m, r, s⟩ := em
  cases r <;> cases s <;> simp only [Holds] at h
  · exact ⟨h.ge, by linarith⟩
  · exact ⟨h.1.le, by linarith [h.2]⟩
  · exact ⟨by linarith, by linarith⟩
  · exact ⟨by linarith [h.1], h.2⟩

theorem Holds.shiftRightOne (h : Holds em u) : Holds em.shiftRightOne (u / 2) := by
  obtain ⟨m, r, s⟩ := em
  have hm : (m : ℚ) = 2 * (m / 2 : Nat) + (m % 2 : Nat) := by
    exact_mod_cast (Nat.div_add_mod m 2).symm
  -- the bit that is shifted out decides between the halves of a unit
  rcases Nat.mod_two_eq_zero_or_one m with hbit | hbit <;> rw [hbit] at hm <;>
    cases r <;> cases s <;>
    simp only [Holds, ExtendedMantissa.shiftRightOne, hbit, bne_self_eq_false, Bool.or_false,
      Bool.or_true, Bool.or_self, Nat.reduceBNe] at h ⊢ <;>
    push_cast at hm <;> (try constructor) <;> linarith

theorem Holds.shiftRight (h : Holds em u) (k : Nat) : Holds (em >>> k) (u / 2 ^ k) := by
  induction k with
  | zero => simpa [HShiftRight.hShiftRight, Nat.repeat] using h
  | succ k ih =>
    have hstep : em >>> (k + 1) = (em >>> k).shiftRightOne := rfl
    rw [hstep, pow_succ, ← div_div]
    exact ih.shiftRightOne

theorem Holds.near (h : Holds em u) : |u - em.roundedMantissa| ≤ 1 / 2 := by
  obtain ⟨m, r, s⟩ := em
  cases r <;> cases s <;>
    simp only [Holds, ExtendedMantissa.roundedMantissa, ExtendedMantissa.accuracy,
      Accuracy.roundToNearestEven] at h ⊢
  · rw [h, sub_self, abs_zero]
    norm_num
  · rw [abs_le]
    constructor <;> linarith [h.1, h.2]
  · rcases Nat.mod_two_eq_zero_or_one m with hbit | hbit <;> rw [hbit, h, abs_le] <;> push_cast <;>
      constructor <;> linarith
  · push_cast
    rw [abs_le]
    constructor <;> linarith [h.1, h.2]

end Holds

-- Rounding to a multiple of a power of two

-- `n * 2 ^ e` is next to `v`, and between multiples of `2 ^ e` there is nothing nearer: there is no
-- smaller exponent, or `v` has 53 bits before this one.
structure Settled (v : ℚ) (n : Nat) (e : Int) : Prop where
  nonneg : 0 ≤ v
  le : n ≤ 2 ^ 53
  least : -1074 ≤ e
  near : |v - n * 2 ^ e| ≤ 2 ^ e / 2
  full : e = -1074 ∨ 2 ^ 52 * 2 ^ e ≤ v

section Settled

variable {v : ℚ} {n : Nat} {e : Int}

-- Two different multiples of a number are at least this number apart.
theorem Settled.near_multiple (h : Settled v n e) (k : ℤ) :
    |v - n * 2 ^ e| ≤ |v - k * 2 ^ e| := by
  have hpos : (0 : ℚ) < 2 ^ e := by positivity
  by_cases hk : k = n
  · rw [hk, Int.cast_natCast]
  · have hone : (1 : ℚ) ≤ |(n : ℚ) - k| := by
      exact_mod_cast Int.one_le_abs (sub_ne_zero.mpr (Ne.symm hk))
    have happart : 2 ^ e ≤ |(n : ℚ) * 2 ^ e - k * 2 ^ e| := by
      rw [← sub_mul, abs_mul, abs_of_pos hpos]
      exact le_mul_of_one_le_left hpos.le hone
    have htriangle := abs_sub_le (n * 2 ^ e : ℚ) v (k * 2 ^ e)
    rw [abs_sub_comm (n * 2 ^ e : ℚ) v] at htriangle
    linarith [h.near]

theorem Settled.nearest (h : Settled v n e) {q : ℚ} (hq : Representable q) :
    |v - n * 2 ^ e| ≤ |v - q| := by
  obtain ⟨m, f, hm, hf, rfl⟩ := hq
  rcases le_or_gt e f with hef | hef
  · -- a larger exponent gives multiples of the smaller power
    obtain ⟨k, rfl⟩ : ∃ k : Nat, f = e + k := ⟨(f - e).toNat, by omega⟩
    rw [mul_two_zpow_add]
    exact h.near_multiple _
  · -- all numbers with a smaller exponent lie below a multiple that is not above `v`
    have hfull : 2 ^ 52 * 2 ^ e ≤ v := h.full.resolve_left (by omega)
    have hbelow : (m : ℚ) * 2 ^ f ≤ 2 ^ 52 * 2 ^ e := by
      have hm' : (m : ℚ) ≤ 2 ^ 53 := by exact_mod_cast (lt_of_abs_lt hm).le
      calc (m : ℚ) * 2 ^ f ≤ 2 ^ 53 * 2 ^ f := by gcongr
        _ = 2 ^ 52 * 2 ^ (f + 1) := by rw [zpow_add_one₀ (by norm_num)]; ring
        _ ≤ 2 ^ 52 * 2 ^ e := by gcongr <;> norm_num; omega
    have hmultiple := h.near_multiple (2 ^ 52)
    rw [Int.cast_pow, Int.cast_ofNat] at hmultiple
    rw [abs_of_nonneg (sub_nonneg.mpr hfull)] at hmultiple
    rw [abs_of_nonneg (by linarith : 0 ≤ v - m * 2 ^ f)]
    linarith

theorem Settled.overflow (h : Settled v n e)
    (hlarge : 2 ^ 54 * 2 ^ (970 : ℤ) ≤ (n : ℚ) * 2 ^ e) : ceiling ≤ v := by
  rw [ceiling]
  rcases le_or_gt e 971 with he | he
  · have hpow : (2 : ℚ) ^ e ≤ 2 ^ (970 + 1 : ℤ) := zpow_le_zpow_right₀ (by norm_num) (by omega)
    have hnear := (abs_le.mp h.near).1
    rw [zpow_add_one₀ (by norm_num)] at hpow
    generalize (2 : ℚ) ^ (970 : ℤ) = unit at hpow hlarge ⊢
    linarith
  · have hfull : 2 ^ 52 * 2 ^ e ≤ v := h.full.resolve_left (by omega)
    have hpow : (2 : ℚ) ^ (970 + 2 : ℤ) ≤ 2 ^ e := zpow_le_zpow_right₀ (by norm_num) (by omega)
    have hpos : (0 : ℚ) < 2 ^ (970 : ℤ) := by positivity
    rw [zpow_add₀ (by norm_num)] at hpow
    generalize (2 : ℚ) ^ (970 : ℤ) = unit at hpow hlarge hpos ⊢
    norm_num at hpow hfull ⊢
    linarith

end Settled

-- A mantissa that came to 2 ^ 53 by rounding is given one bit less.
def settle (s : Sign) (n : Nat) (e : Int) : UnpackedFloat :=
  if h : n = 0 then .zero s
  else if n < 2 ^ 53 then .finite s n e (Nat.pos_of_ne_zero h)
  else .finite s (2 ^ 52) (e + 1) (by decide)

section Round

variable {m : Nat} {e : Int} {accuracy : Accuracy} {u : ℚ}

theorem shiftToTargetExponent_eq_shift {k : Nat}
    (hk : max ((m.log2 : Int) + e - 52) (-1074) - e ≤ k ∧
      (k = 0 ∨ k ≤ max ((m.log2 : Int) + e - 52) (-1074) - e)) :
    shiftToTargetExponent Format.binary64 m e accuracy =
      (ExtendedMantissa.ofMantissaAndAccuracy m accuracy >>> k, e + k) := by
  have hshift : (max ((m.log2 : Int) + e - 52) (-1074) - e).toNat = k := by omega
  rw [shiftToTargetExponent, targetExponent_eq, shiftToExponent, hshift]

theorem roundWithAccuracy_eq_settle (s : Sign)
    {k n : Nat} (hk : max ((m.log2 : Int) + e - 52) (-1074) = e + k) (hn : n ≤ 2 ^ 53)
    (hrounded :
      (ExtendedMantissa.ofMantissaAndAccuracy m accuracy >>> k).roundedMantissa = n) :
    roundWithAccuracy Format.binary64 s m e accuracy = settle s n (e + k) := by
  rw [roundWithAccuracy, shiftToTargetExponent_eq_shift (k := k) (by omega)]
  dsimp only
  rw [hrounded, settle]
  by_cases hlt : n < 2 ^ 53
  · have hlog : n.log2 ≤ 52 := by
      by_cases hzero : n = 0
      · simp [hzero]
      · have := (Nat.log2_lt hzero).mpr hlt
        omega
    rw [shiftToTargetExponent_eq_shift (k := 0) (by omega)]
    simp only [hlt, if_true, Int.natCast_zero, add_zero]
    rfl
  · obtain rfl : n = 2 ^ 53 := by omega
    rw [shiftToTargetExponent_eq_shift (k := 1) (by rw [Nat.log2_two_pow]; omega)]
    rfl

-- Enough bits are shifted out to leave 53, or to come to the least exponent.
theorem Holds.settled (h : Holds (ExtendedMantissa.ofMantissaAndAccuracy m accuracy) u) {k : Nat}
    (hk : max ((m.log2 : Int) + e - 52) (-1074) = e + k) :
    Settled (u * 2 ^ e)
      (ExtendedMantissa.ofMantissaAndAccuracy m accuracy >>> k).roundedMantissa (e + k) := by
  have hmantissa : (ExtendedMantissa.ofMantissaAndAccuracy m accuracy).mantissa = m := by
    cases accuracy with
    | exact => rfl
    | inexact order => cases order <;> rfl
  obtain ⟨hlow, hhigh⟩ := h.bounds
  rw [hmantissa] at hlow hhigh
  have hnear := (h.shiftRight k).near
  generalize (ExtendedMantissa.ofMantissaAndAccuracy m accuracy >>> k).roundedMantissa = n at hnear
  have hu : 0 ≤ u := le_trans (Nat.cast_nonneg m) hlow
  have hpos : (0 : ℚ) < 2 ^ (e + k) := by positivity
  have hscale : u * 2 ^ e = u / 2 ^ k * 2 ^ (e + (k : ℤ)) := by
    rw [zpow_add₀ (by norm_num), zpow_natCast]
    field_simp
  refine ⟨by positivity, ?_, by omega, ?_, ?_⟩
  · have hbits : u / 2 ^ k < 2 ^ 53 := by
      have hm : m + 1 ≤ 2 ^ (m.log2 + 1) := Nat.lt_log2_self
      have hm' : 2 ^ (m.log2 + 1) ≤ 2 ^ (53 + k) := Nat.pow_le_pow_right (by decide) (by omega)
      have hcast : (m : ℚ) + 1 ≤ 2 ^ (53 + k) := by exact_mod_cast hm.trans hm'
      rw [div_lt_iff₀ (by positivity), ← pow_add]
      exact hhigh.trans_le hcast
    have hlt : (n : ℚ) < 2 ^ 53 + 1 := by linarith [(abs_le.mp hnear).1]
    exact Nat.lt_succ_iff.mp (by exact_mod_cast hlt)
  · rw [hscale, ← sub_mul, abs_mul, abs_of_pos hpos]
    nlinarith
  · by_cases hleast : e + (k : Int) = -1074
    · exact .inl hleast
    · have hlog : m.log2 = 52 + k := by omega
      have hm : 2 ^ (52 + k) ≤ m := hlog ▸ Nat.log2_self_le (by rintro rfl; simp at hlog; omega)
      have hcast : (2 : ℚ) ^ (52 + k) ≤ u := le_trans (by exact_mod_cast hm) hlow
      right
      rw [hscale]
      gcongr
      rwa [le_div_iff₀ (by positivity), ← pow_add]

end Round

-- Packing

theorem unpack_packComponents (s : Sign) (field : BitVec 11) (fraction : BitVec 52) :
    UnpackedFloat.unpack Format.binary64 (packComponents Format.binary64 s field fraction) =
      if field = -1#11 then if fraction = 0#52 then .infinity s else .notANumber
      else if field = 0#11 then
        if h : fraction = 0#52 then .zero s
        else .finite s fraction.toNat (field.toNat - 1075 + 1)
          (Nat.pos_of_ne_zero fun h0 => h (BitVec.eq_of_toNat_eq h0))
      else .finite s (1#1 ++ fraction).toNat (field.toNat - 1075)
        (by rw [toNat_one_append]; positivity) := by
  rw [UnpackedFloat.unpack]
  simp only [unpackMantissa_packComponents, unpackExponent_packComponents,
    unpackSign_packComponents, Sign.ofBitVec_toBitVec]
  rfl

theorem ofNat_ne {w n : Nat} {v : BitVec w} (hn : n < 2 ^ w) (hv : n ≠ v.toNat) :
    BitVec.ofNat w n ≠ v := by
  rintro rfl
  exact hv (by rw [BitVec.toNat_ofNat, Nat.mod_eq_of_lt hn])

-- The exponent is stored with 1075 added to it. The field is zero for the least exponent with
-- fewer than 53 bits, and all ones is left for what is not finite.
theorem unpack_pack_finite (s : Sign) {m : Nat} {e : Int} (hm : 0 < m) (hc : Canonical m e)
    (he : e ≤ 971) :
    (Float.Model.pack (.finite s m e hm)).unpack = .finite s m e hm := by
  have hunpack : (Float.Model.pack (.finite s m e hm)).unpack =
    UnpackedFloat.unpack Format.binary64
      (UnpackedFloat.pack Format.binary64 (.finite s m e hm)) := rfl
  obtain ⟨hlt, hleast, hfull⟩ := hc
  obtain ⟨field, hfield⟩ : ∃ field : ℕ, (e + (Format.binary64.exponentBias : ℕ) +
      (Format.binary64.mantissaBitsWithoutImplicit : ℕ)).toNat = field := ⟨_, rfl⟩
  have hfield' : (e + (1023 : ℕ) + (52 : ℕ)).toNat = field := hfield
  have hinfinity : ¬2 ^ Format.binary64.exponentBits ≤ field + 1 := by
    change ¬2 ^ 11 ≤ field + 1
    omega
  rw [hunpack, UnpackedFloat.pack]
  dsimp only
  rw [hfield, if_neg hinfinity]
  by_cases hlog : m.log2 = 52
  · have hlow := ((Nat.log2_eq_iff hm.ne').mp hlog).1
    have hstored : (BitVec.ofNat 11 field).toNat = field := by
      rw [BitVec.toNat_ofNat, Nat.mod_eq_of_lt (by omega)]
    have hones : BitVec.ofNat 11 field ≠ -1#11 :=
      ofNat_ne (by omega) (show field ≠ 2047 by omega)
    have hzeros : BitVec.ofNat 11 field ≠ 0#11 := ofNat_ne (by omega) (show field ≠ 0 by omega)
    have hmantissa : (1#1 ++ BitVec.ofNat 52 m).toNat = m := by
      rw [toNat_one_append, BitVec.toNat_ofNat]
      omega
    rw [if_pos (show m.log2 + 1 = Format.binary64.mantissaBits by rw [hlog]; rfl)]
    refine (unpack_packComponents s (BitVec.ofNat 11 field) (BitVec.ofNat 52 m)).trans ?_
    rw [if_neg hones, if_neg hzeros]
    congr 1
    rw [hstored]
    omega
  · have hsmall : m < 2 ^ 52 := by
      by_contra h
      exact hlog ((Nat.log2_eq_iff hm.ne').mpr ⟨by omega, hlt⟩)
    have hmantissa : (BitVec.ofNat 52 m).toNat = m := by
      rw [BitVec.toNat_ofNat, Nat.mod_eq_of_lt hsmall]
    have hnone : BitVec.ofNat 52 m ≠ 0#52 := ofNat_ne hsmall hm.ne'
    have hbits : m.log2 + 1 ≠ Format.binary64.mantissaBits := fun h => hlog (Nat.succ.inj h)
    rw [if_neg hbits]
    refine (unpack_packComponents s 0#11 (BitVec.ofNat 52 m)).trans ?_
    rw [if_neg (by decide), if_pos rfl, dif_neg hnone]
    congr 1
    rw [hfull.resolve_left (by omega)]
    rfl

theorem unpack_pack_large (s : Sign) {m : Nat} {e : Int} (hm : 0 < m) (he : 972 ≤ e) :
    (Float.Model.pack (.finite s m e hm)).unpack = .infinity s := by
  have hunpack : (Float.Model.pack (.finite s m e hm)).unpack =
    UnpackedFloat.unpack Format.binary64
      (UnpackedFloat.pack Format.binary64 (.finite s m e hm)) := rfl
  have hinfinity : 2 ^ Format.binary64.exponentBits ≤ (e + (Format.binary64.exponentBias : ℕ) +
      (Format.binary64.mantissaBitsWithoutImplicit : ℕ)).toNat + 1 := by
    change 2 ^ 11 ≤ (e + (1023 : ℕ) + (52 : ℕ)).toNat + 1
    omega
  rw [hunpack, UnpackedFloat.pack]
  dsimp only
  rw [if_pos hinfinity]
  exact unpack_packComponents s (-1#11) 0#52

theorem Settled.nearest_apply {v : ℚ} {n : Nat} {e : Int} (h : Settled v n e) (s : Sign) {q : ℚ}
    (hq : Representable q) :
    |s.apply 1 * v - s.apply n * 2 ^ e| ≤ |s.apply 1 * v - q| := by
  cases s with
  | positive =>
    simp only [Sign.apply, Int.cast_one, one_mul, Int.cast_natCast]
    exact h.nearest hq
  | negative =>
    have hleft : ((-1 : ℤ) : ℚ) * v - ((-n : ℤ) : ℚ) * 2 ^ e = -(v - n * 2 ^ e) := by
      push_cast
      ring
    have hright : ((-1 : ℤ) : ℚ) * v - q = -(v - -q) := by
      push_cast
      ring
    simp only [Sign.apply]
    rw [hleft, hright, abs_neg, abs_neg]
    exact h.nearest hq.neg

theorem abs_apply_mul (s : Sign) {v : ℚ} (hv : 0 ≤ v) : |(s.apply 1 : ℚ) * v| = v := by
  cases s <;> simp [Sign.apply, abs_of_nonneg hv]

theorem exact_of_infinity {x : Float} {s : Sign} (h : x.toModel.unpack = .infinity s) {v : ℚ}
    (hv : 0 < v) : exact x = .infinite (decide ((s.apply 1 : ℚ) * v < 0)) := by
  rw [exact_eq, h]
  cases s with
  | positive =>
    have hsign : ¬(Sign.positive.apply 1 : ℚ) * v < 0 := by simpa [Sign.apply] using hv.le
    rw [decide_eq_false hsign]
    rfl
  | negative =>
    have hsign : (Sign.negative.apply 1 : ℚ) * v < 0 := by simpa [Sign.apply] using hv
    rw [decide_eq_true hsign]
    rfl

-- Exponents that are too large for a float stand for numbers that are.
theorem Canonical.large {m : Nat} {e : Int} (h : Canonical m e) (he : 972 ≤ e) :
    2 ^ 54 * 2 ^ (970 : ℤ) ≤ (m : ℚ) * 2 ^ e := by
  have hfull : 2 ^ 52 ≤ m := h.full.resolve_right (by omega)
  calc (2 : ℚ) ^ 54 * 2 ^ (970 : ℤ) = (2 : ℚ) ^ 52 * 2 ^ (970 + 2 : ℤ) := by
        rw [zpow_add₀ (by norm_num)]
        generalize (2 : ℚ) ^ (970 : ℤ) = unit
        norm_num
        ring
    _ ≤ (m : ℚ) * 2 ^ e := by
        gcongr
        · exact_mod_cast hfull
        · norm_num
        · omega

-- What has 53 bits before rounding has as many after it.
theorem Settled.full_mantissa {v : ℚ} {n : Nat} {e : Int} (h : Settled v n e) :
    2 ^ 52 ≤ n ∨ e = -1074 := by
  refine h.full.symm.imp_left fun hfull => ?_
  have hpos : (0 : ℚ) < 2 ^ e := by positivity
  have hnear := (abs_le.mp h.near).2
  have hlow : (2 ^ 52 : ℚ) < n + 1 := by nlinarith
  exact Nat.lt_succ_iff.mp (by exact_mod_cast hlow)

-- A number that is settled is rounded, whatever its sign.
theorem Settled.rounds {v : ℚ} {n : Nat} {e : Int} (h : Settled v n e) (s : Sign) :
    Rounds (s.apply 1 * v) ⟨Float.Model.pack (settle s n e)⟩ := by
  -- what is packed is the number that was settled, or an infinity
  have hpack : ∀ {m : Nat} {f : Int} (hm : 0 < m), Canonical m f → (m : ℚ) * 2 ^ f = n * 2 ^ e →
      Rounds (s.apply 1 * v) ⟨Float.Model.pack (.finite s m f hm)⟩ := by
    intro m f hm hc hvalue
    rcases le_or_gt f 971 with hf | hf
    · refine .nearest (r := s.apply n * 2 ^ e) ?_ fun q hq => h.nearest_apply s hq
      rw [value?_eq, unpack_pack_finite s hm hc hf, unpackedValue?, apply_mul, apply_mul, hvalue]
    · have hover := h.overflow (hvalue ▸ hc.large (by omega))
      have hpos : 0 < v := hover.trans_lt' (by rw [ceiling]; positivity)
      refine .overflow (exact_of_infinity (unpack_pack_large s hm (by omega)) hpos) ?_
      rwa [abs_apply_mul s h.nonneg]
  rw [settle]
  split_ifs with hzero hlt
  · refine .nearest (r := s.apply n * 2 ^ e) ?_ fun q hq => h.nearest_apply s hq
    rw [value?_eq, unpack_pack_zero, hzero, apply_mul]
    simp [unpackedValue?]
  · exact hpack (Nat.pos_of_ne_zero hzero) ⟨hlt, h.least, h.full_mantissa⟩ rfl
  · have hn : n = 2 ^ 53 := le_antisymm h.le (not_lt.mp hlt)
    refine hpack (by decide) ⟨by decide, by have := h.least; omega, .inl (le_refl _)⟩ ?_
    rw [hn, zpow_add_one₀ (by norm_num)]
    push_cast
    ring

-- Main statement: whatever is known of the bits behind the mantissa, the result is rounded from
-- the exact number.
theorem rounds_roundWithAccuracy (s : Sign) {m : Nat} {e : Int} {accuracy : Accuracy} {u : ℚ}
    (h : Holds (ExtendedMantissa.ofMantissaAndAccuracy m accuracy) u)
    (he : e ≤ max ((m.log2 : Int) + e - 52) (-1074)) :
    Rounds (s.apply 1 * (u * 2 ^ e))
      ⟨Float.Model.pack (roundWithAccuracy Format.binary64 s m e accuracy)⟩ := by
  obtain ⟨k, hk⟩ : ∃ k : Nat, max ((m.log2 : Int) + e - 52) (-1074) = e + k :=
    ⟨(max ((m.log2 : Int) + e - 52) (-1074) - e).toNat, by omega⟩
  have hsettled := h.settled hk
  rw [roundWithAccuracy_eq_settle s hk hsettled.le rfl]
  exact hsettled.rounds s

theorem rounds_exact (s : Sign) {m : Nat} {e : Int}
    (he : e ≤ max ((m.log2 : Int) + e - 52) (-1074)) :
    Rounds (s.apply m * 2 ^ e)
      ⟨Float.Model.pack (roundWithAccuracy Format.binary64 s m e .exact)⟩ := by
  rw [apply_mul]
  exact rounds_roundWithAccuracy s (show Holds ⟨m, false, false⟩ m from rfl) he

end Reckon.Number
