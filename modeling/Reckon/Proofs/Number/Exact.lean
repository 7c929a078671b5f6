import Reckon.Number.Exact
import Reckon.Proofs.Number.Unpacked

namespace Reckon.Number

open Float.Model Float.Model.UnpackedFloat

section Fields

variable (b : BitVec 64)

private theorem toNat_unpackMantissa :
    (@unpackMantissa Format.binary64 b).toNat = b.toNat % 2 ^ 52 := by
  simp [unpackMantissa]

theorem toNat_unpackExponent :
    (@unpackExponent Format.binary64 b).toNat = b.toNat / 2 ^ 52 % 2 ^ 11 := by
  simp [unpackExponent, Nat.shiftRight_eq_div_pow]

private theorem toNat_unpackSign : (@unpackSign Format.binary64 b).toNat = b.toNat / 2 ^ 63 := by
  have hb := b.isLt
  simp [unpackSign, Nat.shiftRight_eq_div_pow]
  omega

private theorem sign_eq_negative :
    (Sign.ofBitVec (@unpackSign Format.binary64 b) == .negative) = decide (2 ^ 63 ≤ b.toNat) := by
  have hb := b.isLt
  have hsign := toNat_unpackSign b
  by_cases h : 2 ^ 63 ≤ b.toNat
  · have hone : @unpackSign Format.binary64 b = 1#1 :=
      BitVec.eq_of_toNat_eq (by rw [hsign, BitVec.toNat_ofNat]; omega)
    rw [hone, decide_eq_true h]
    rfl
  · have hzero : @unpackSign Format.binary64 b = 0#1 :=
      BitVec.eq_of_toNat_eq (by rw [hsign, BitVec.toNat_ofNat]; omega)
    rw [hzero, decide_eq_false h]
    rfl

private theorem toNat_append_unpackMantissa :
    (1#1 ++ @unpackMantissa Format.binary64 b).toNat = 2 ^ 52 + b.toNat % 2 ^ 52 := by
  rw [← toNat_unpackMantissa]
  exact toNat_one_append _

end Fields

theorem exact_eq (x : Float) : exact x =
    match x.toModel.unpack with
    | .zero s => .finite (s == .negative) 0 (-1074)
    | .finite s m e _ => .finite (s == .negative) m e
    | .infinity s => .infinite (s == .negative)
    | .notANumber => .undefined := by
  obtain ⟨⟨⟨b⟩, hvalid⟩⟩ := x
  have hsign := sign_eq_negative b
  have hones : @unpackExponent Format.binary64 b = -1#11 ↔ b.toNat / 2 ^ 52 % 2 ^ 11 = 2047 := by
    rw [← toNat_unpackExponent, ← BitVec.toNat_inj]
    rfl
  have hzeros : @unpackExponent Format.binary64 b = 0#11 ↔ b.toNat / 2 ^ 52 % 2 ^ 11 = 0 := by
    rw [← toNat_unpackExponent, ← BitVec.toNat_inj]
    rfl
  have hnone : @unpackMantissa Format.binary64 b = 0#52 ↔ b.toNat % 2 ^ 52 = 0 := by
    rw [← toNat_unpackMantissa, ← BitVec.toNat_inj]
    rfl
  -- both sides look at the exponent first: all ones, all zeros, or a number of 53 bits
  change (if b.toNat / 2 ^ 52 % 2 ^ 11 = 2047 then _ else _) = _
  simp only [Float.Model.unpack, UnpackedFloat.unpack]
  by_cases hspecial : b.toNat / 2 ^ 52 % 2 ^ 11 = 2047
  · rw [if_pos hspecial, if_pos (hones.mpr hspecial)]
    by_cases hfraction : b.toNat % 2 ^ 52 = 0
    · rw [if_pos (hnone.mpr hfraction)]
      exact (if_pos hfraction).trans (congrArg _ hsign.symm)
    · rw [if_neg (mt hnone.mp hfraction)]
      exact if_neg hfraction
  · rw [if_neg hspecial, if_neg (mt hones.mp hspecial)]
    by_cases hleast : b.toNat / 2 ^ 52 % 2 ^ 11 = 0
    · rw [if_pos (hzeros.mpr hleast)]
      refine (if_pos hleast).trans ?_
      by_cases hfraction : b.toNat % 2 ^ 52 = 0
      · rw [dif_pos (hnone.mpr hfraction)]
        exact congrArg₂ (Exact.finite · · (-1074)) hsign.symm hfraction
      · rw [dif_neg (mt hnone.mp hfraction)]
        have hexponent :
            ((@unpackExponent Format.binary64 b).toNat : Int) - (1023 + 52) + 1 = -1074 := by
          rw [toNat_unpackExponent, hleast]
          rfl
        exact congr (congrArg₂ Exact.finite hsign.symm (toNat_unpackMantissa b).symm)
          hexponent.symm
    · rw [if_neg (mt hzeros.mp hleast)]
      refine (if_neg hleast).trans ?_
      have hexponent : ((b.toNat / 2 ^ 52 % 2 ^ 11 : Nat) : Int) - 1075 =
          (@unpackExponent Format.binary64 b).toNat - (1023 + 52) := by
        rw [toNat_unpackExponent]
        rfl
      exact congr (congrArg₂ Exact.finite hsign.symm (toNat_append_unpackMantissa b).symm) hexponent

-- The distance from zero, where there is one.
def Exact.magnitude? : Exact → Option ℚ
  | .finite _ m q => some (m * 2 ^ q)
  | .infinite _ => none
  | .undefined => none

theorem magnitude?_exact (x : Float) : (exact x).magnitude? =
    match x.toModel.unpack with
    | .zero _ => some 0
    | .finite _ m e _ => some (m * 2 ^ e)
    | .infinity _ => none
    | .notANumber => none := by
  rw [exact_eq]
  cases x.toModel.unpack <;> simp [Exact.magnitude?]

-- What stands in the bits

theorem exact_bounds {x : Float} {negative : Bool} {m : Nat} {q : Int}
    (h : exact x = .finite negative m q) : m < 2 ^ 53 ∧ -1074 ≤ q ∧ q ≤ 971 := by
  simp only [exact, Nat.pow_eq] at h
  split_ifs at h <;> cases h <;> omega

-- Bits that do not stand for what is no number remain as they are.
theorem toBits_ofBits {bits : UInt64} (h : bits.toNat < 2047 * 2 ^ 52) :
    (Float.ofBits bits).toBits = bits := by
  have hfinite : @unpackExponent Format.binary64 bits.toBitVec ≠ -1#11 := fun hones => by
    have hfield := toNat_unpackExponent bits.toBitVec
    rw [hones, UInt64.toNat_toBitVec] at hfield
    have : (2047 : Nat) = bits.toNat / 2 ^ 52 % 2 ^ 11 := hfield
    omega
  exact congrArg Float.toBits (pack_unpack_float ⟨⟨bits, ⟨fun hones _ => absurd hones hfinite⟩⟩⟩)

theorem exact_ofBits {n : Nat} (h : n < 2047 * 2 ^ 52) :
    exact (Float.ofBits (UInt64.ofNat n)) =
      if n / 2 ^ 52 = 0 then .finite false n (-1074)
      else .finite false (2 ^ 52 + n % 2 ^ 52) ((n / 2 ^ 52 : Nat) - 1075) := by
  have hbits : (UInt64.ofNat n).toNat = n := by
    rw [UInt64.toNat_ofNat', Nat.mod_eq_of_lt (by omega)]
  have hsign : ¬2 ^ 63 ≤ n := by omega
  have hfield : n / 2 ^ 52 % 2 ^ 11 = n / 2 ^ 52 := Nat.mod_eq_of_lt (by omega)
  have hones : n / 2 ^ 52 ≠ 2047 := by omega
  simp only [exact, Nat.pow_eq, toBits_ofBits (hbits.trans_lt h), hbits, hfield, hones, hsign,
    decide_false, if_false]
  split_ifs with hzero
  · rw [Nat.mod_eq_of_lt (by omega)]
  · rfl

end Reckon.Number
