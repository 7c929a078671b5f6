import Mathlib

namespace Reckon.Number

open Float.Model Float.Model.UnpackedFloat

theorem pack_unpack_float (x : Float) : (⟨Float.Model.pack x.toModel.unpack⟩ : Float) = x :=
  Float.ofBits_toBits x

theorem unpack_pack_zero (s : Sign) : (Float.Model.pack (.zero s)).unpack = .zero s :=
  unpack_packedZero

-- An operation on floats is told by the operands taken apart.

theorem add_eq_pack (x y : Float) : x + y =
    ⟨Float.Model.pack (.add .binary64 x.toModel.unpack y.toModel.unpack)⟩ := rfl

theorem sub_eq_pack (x y : Float) : x - y =
    ⟨Float.Model.pack (.sub .binary64 x.toModel.unpack y.toModel.unpack)⟩ := rfl

theorem mul_eq_pack (x y : Float) : x * y =
    ⟨Float.Model.pack (.mul .binary64 x.toModel.unpack y.toModel.unpack)⟩ := rfl

theorem div_eq_pack (x y : Float) : x / y =
    ⟨Float.Model.pack (.div .binary64 x.toModel.unpack y.toModel.unpack)⟩ := rfl

-- Both zeros, and no other floats, are equal to zero.
theorem beq_zero_iff (x : Float) : (x == 0.0) = true ↔ ∃ s, x.toModel.unpack = .zero s := by
  have hbeq : (x == 0.0) = x.toModel.unpack.beq (.zero .positive) := rfl
  rw [hbeq, beq_iff_ne_notANumber_and_eq]
  constructor
  · rintro ⟨-, -, h | ⟨h, -⟩ | ⟨h, -⟩⟩ <;> exact ⟨_, h⟩
  · rintro ⟨s, h⟩
    cases s <;> simp [h]

theorem pack_zero_beq_zero (s : Sign) : ((⟨Float.Model.pack (.zero s)⟩ : Float) == 0.0) = true :=
  (beq_zero_iff _).mpr ⟨s, unpack_pack_zero s⟩

theorem pack_zero_beq_zero_ite (c : Bool) (s t : Sign) :
    ((⟨Float.Model.pack (if c then .zero s else .zero t)⟩ : Float) == 0.0) = true := by
  cases c
  · exact pack_zero_beq_zero t
  · exact pack_zero_beq_zero s

theorem isFinite_iff (x : Float) : x.isFinite = true ↔
    (∃ s, x.toModel.unpack = .zero s) ∨ ∃ s m e h, x.toModel.unpack = .finite s m e h := by
  have hfinite : x.isFinite = x.toModel.unpack.isFinite := rfl
  rw [hfinite]
  cases x.toModel.unpack with
  | infinity s => simp [UnpackedFloat.isFinite]
  | notANumber => simp [UnpackedFloat.isFinite]
  | zero s => simp [UnpackedFloat.isFinite]
  | finite s m e h => simpa [UnpackedFloat.isFinite] using h

theorem not_isFinite_pack_infinity (s : Sign) :
    ¬(⟨Float.Model.pack (.infinity s)⟩ : Float).isFinite = true := by
  cases s <;> decide

theorem not_isFinite_pack_notANumber :
    ¬(⟨Float.Model.pack .notANumber⟩ : Float).isFinite = true := by
  decide

-- A mantissa of 53 bits is stored without its first one.
theorem toNat_one_append (v : BitVec 52) : (1#1 ++ v).toNat = 2 ^ 52 + v.toNat := by
  rw [BitVec.toNat_append, ← Nat.shiftLeft_add_eq_or_of_lt v.isLt]
  rfl

private theorem log2_append_one (v : BitVec 52) : (1#1 ++ v).toNat.log2 = 52 := by
  have hv := v.isLt
  rw [toNat_one_append, Nat.log2_eq_iff (by omega)]
  omega

-- The exponent is the least one that leaves the mantissa 53 bits, or the least one of all.
theorem exponent_of_unpack {x : Float} {s : Sign} {m : Nat} {e : Int} {h : 0 < m}
    (hx : x.toModel.unpack = .finite s m e h) :
    m.log2 ≤ 52 ∧ e = max (m.log2 + e - 52) (-1074) := by
  unfold Float.Model.unpack UnpackedFloat.unpack at hx
  dsimp only at hx
  split at hx
  · split at hx <;> cases hx
  · rename_i hlast
    split at hx
    · rename_i hzero
      split at hx
      · cases hx
      · injection hx with _ hm he
        have hlt : m < 2 ^ 52 := hm ▸ BitVec.isLt _
        have hlog : m.log2 < 52 := (Nat.log2_lt (by omega)).mpr hlt
        rw [hzero] at he
        simp only [BitVec.toNat_ofNat, Nat.zero_mod, Format.exponentBias] at he
        omega
    · rename_i hzero
      injection hx with _ hm he
      have hlog : m.log2 = 52 := hm ▸ log2_append_one _
      have hfield : (@unpackExponent Format.binary64 x.toModel.toBits.toBitVec).toNat ≠ 0 :=
        fun h0 => hzero (BitVec.eq_of_toNat_eq h0)
      simp only [Format.exponentBias] at he
      omega

-- Rounding a mantissa that ends in zeros only drops them.
section Exact

private theorem shiftRight_exact (m k : Nat) :
    ExtendedMantissa.mk (m * 2 ^ k) false false >>> k = ⟨m, false, false⟩ := by
  induction k generalizing m with
  | zero => simp [HShiftRight.hShiftRight, Nat.repeat]
  | succ k ih =>
    have hstep : ExtendedMantissa.mk (m * 2 ^ (k + 1)) false false >>> (k + 1) =
        (ExtendedMantissa.mk (m * 2 ^ (k + 1)) false false >>> k).shiftRightOne := rfl
    rw [hstep, pow_succ, mul_comm (2 ^ k), ← mul_assoc, ih (m * 2)]
    simp [ExtendedMantissa.shiftRightOne]

theorem targetExponent_eq (m : Nat) (e : Int) :
    Format.binary64.targetExponent (totalExponent m e) = max (m.log2 + e - 52) (-1074) := by
  simp only [Format.targetExponent, totalExponent, Format.mantissaBits, Format.minExponent]
  norm_num
  omega

theorem log2_mul_two_pow {m : Nat} (hm : 0 < m) (k : Nat) :
    (m * 2 ^ k).log2 = m.log2 + k := by
  induction k with
  | zero => simp
  | succ k ih =>
    rw [pow_succ, ← mul_assoc, mul_comm, Nat.log2_two_mul (by positivity), ih, add_assoc]

variable {m : Nat} {e : Int} (hm : 0 < m) (he : e = max (m.log2 + e - 52) (-1074))
include he

private theorem shiftToTargetExponent_exact (hm : 0 < m) (k : Nat) :
    shiftToTargetExponent Format.binary64 (m * 2 ^ k) (e - k) .exact =
      (⟨m, false, false⟩, e) := by
  have htarget : Format.binary64.targetExponent (totalExponent (m * 2 ^ k) (e - k)) = e := by
    rw [targetExponent_eq, log2_mul_two_pow hm]
    omega
  have hshift : (e - (e - k)).toNat = k := by omega
  rw [shiftToTargetExponent, htarget, shiftToExponent, hshift]
  simp only [ExtendedMantissa.ofMantissaAndAccuracy, shiftRight_exact, sub_add_cancel]

theorem roundWithAccuracy_exact (s : Sign) (k : Nat) :
    roundWithAccuracy Format.binary64 s (m * 2 ^ k) (e - k) .exact = .finite s m e hm := by
  have hsecond : shiftToTargetExponent Format.binary64 m e .exact = (⟨m, false, false⟩, e) := by
    simpa using shiftToTargetExponent_exact he hm 0
  simp [roundWithAccuracy, shiftToTargetExponent_exact he hm k, ExtendedMantissa.roundedMantissa,
    ExtendedMantissa.accuracy, Accuracy.roundToNearestEven, hsecond, hm.ne']

-- One is 2 ^ 52 · 2 ^ (-52). The dividend is scaled up by more than that before it is divided, so
-- that nothing is left over.
theorem divCore_one (hlog : m.log2 ≤ 52) : ∃ k : Nat,
    divCore Format.binary64 m e (2 ^ 52) (-52) = (m * 2 ^ k, e - k, .exact) := by
  have htotal : totalExponent m e - totalExponent (2 ^ 52) (-52) = totalExponent m (e - 1) := by
    rw [totalExponent, totalExponent, totalExponent, Nat.log2_two_pow]
    omega
  obtain ⟨k, hk⟩ : ∃ k : Nat, min (e - -52) (max (m.log2 + (e - 1) - 52) (-1074)) = e - k :=
    ⟨(e - max (m.log2 + (e - 1) - 52) (-1074)).toNat, by omega⟩
  have hshift : (e - -52 - (e - k)).toNat = k + 52 := by omega
  have hproduct : m * 2 ^ (k + 52) = m * 2 ^ k * 2 ^ 52 := by rw [pow_add, mul_assoc]
  refine ⟨k, ?_⟩
  rw [divCore]
  simp only [htotal, targetExponent_eq]
  rw [hk, hshift, Nat.shiftLeft_eq, hproduct, Nat.mul_div_cancel _ (by positivity),
    Nat.mul_mod_left]
  rfl

end Exact

theorem unpack_zero : (0.0 : Float).toModel.unpack = .zero .positive := rfl

theorem unpack_one : (1.0 : Float).toModel.unpack = .finite .positive (2 ^ 52) (-52) (by decide) :=
  rfl

theorem sub_zero_float (x : Float) : x - 0.0 = x := by
  have hx := pack_unpack_float x
  rw [sub_eq_pack, unpack_zero]
  cases hunpack : x.toModel.unpack with
  | zero s =>
    rw [hunpack] at hx
    cases s <;> exact hx
  | _ =>
    rw [hunpack] at hx
    exact hx

theorem div_one_float (x : Float) : x / 1.0 = x := by
  have hx := pack_unpack_float x
  rw [div_eq_pack, unpack_one]
  cases hunpack : x.toModel.unpack with
  | infinity s =>
    rw [hunpack] at hx
    cases s <;> exact hx
  | notANumber =>
    rw [hunpack] at hx
    exact hx
  | zero s =>
    rw [hunpack] at hx
    cases s <;> exact hx
  | finite s m e hm =>
    obtain ⟨hlog, he⟩ := exponent_of_unpack hunpack
    obtain ⟨k, hk⟩ := divCore_one he hlog
    rw [hunpack] at hx
    simp only [UnpackedFloat.div, hk, roundWithAccuracy_exact hm he]
    cases s <;> exact hx

end Reckon.Number
