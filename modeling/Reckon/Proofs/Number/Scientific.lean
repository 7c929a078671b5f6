import Reckon.Number.Reading
import Reckon.Proofs.Number.Operations

namespace Reckon.Number

open Float.Model Float.Model.UnpackedFloat

-- The range of floats

theorem ceiling_le_two_zpow : ceiling ≤ 2 ^ (1024 : ℤ) := by
  rw [ceiling, show (1024 : ℤ) = 54 + 970 by rfl, zpow_add₀ (by norm_num)]
  gcongr
  norm_num

theorem unpack_pack_infinity (s : Sign) :
    (Float.Model.pack (.infinity s)).unpack = .infinity s := by
  cases s <;> rfl

-- What is not further from zero than half the least float is rounded to it.
theorem rounds_zero_of_le {v : ℚ} (h : |v| ≤ 2 ^ (-1075 : ℤ)) (s : Sign) :
    Rounds v ⟨Float.Model.pack (.zero s)⟩ := by
  refine .nearest (r := 0) (by rw [value?_eq, unpack_pack_zero, unpackedValue?]) fun q hq => ?_
  rw [sub_zero]
  obtain ⟨n, rfl⟩ := hq.exists_multiple
  by_cases hn : n = 0
  · simp [hn]
  · have hone : (1 : ℚ) ≤ |(n : ℚ)| := by exact_mod_cast Int.one_le_abs hn
    have hfar : 2 * (2 : ℚ) ^ (-1075 : ℤ) ≤ |(n : ℚ) * 2 ^ (-1074 : ℤ)| := by
      rw [abs_mul, abs_of_pos (by positivity : (0 : ℚ) < 2 ^ (-1074 : ℤ)),
        show (-1074 : ℤ) = -1075 + 1 by rfl, zpow_add_one₀ (by norm_num), mul_comm 2]
      exact le_mul_of_one_le_left (by positivity) hone
    have htriangle := abs_sub_abs_le_abs_sub ((n : ℚ) * 2 ^ (-1074 : ℤ)) v
    rw [abs_sub_comm] at htriangle
    linarith

-- Powers of ten

section Power

variable {m : Nat} (hm : 0 < m) (k : Nat)

private theorem rounds_mul_power (h : 0 < m <<< 53) (h' : 0 < 10 ^ k) :
    Rounds (m * 10 ^ k) ⟨Float.Model.pack (.mul .binary64 (.finite .positive (m <<< 53) (-53) h)
      (.finite .positive (10 ^ k) 0 h'))⟩ := by
  have hvalue : (m : ℚ) * (10 : ℚ) ^ k =
      (Sign.positive.apply (m <<< 53 * 10 ^ k : Nat) : ℚ) * 2 ^ (-53 + 0 : ℤ) := by
    rw [Sign.apply, Nat.shiftLeft_eq, add_zero, zpow_neg]
    push_cast
    field_simp
  rw [hvalue]
  refine rounds_exact .positive ?_
  have hbits : 2 ^ 52 ≤ m <<< 53 * 10 ^ k := by
    rw [Nat.shiftLeft_eq] at h ⊢
    exact le_trans (by omega) (Nat.le_mul_of_pos_right _ h')
  have := (Nat.le_log2 (by omega : m <<< 53 * 10 ^ k ≠ 0)).mpr hbits
  omega

private theorem rounds_div_power (h' : 0 < 10 ^ k) :
    Rounds (m / 10 ^ k) ⟨Float.Model.pack (.div .binary64 (.finite .positive m 0 hm)
      (.finite .positive (10 ^ k) 0 h'))⟩ := by
  obtain ⟨q, g, accuracy, hcore, hrounds⟩ := rounds_divCore .positive (e := 0) (f := 0) hm h'
  have hvalue : (m : ℚ) / 10 ^ k =
      (Sign.positive.apply 1 : ℚ) * (m * 2 ^ (0 : ℤ) / ((10 ^ k : Nat) * 2 ^ (0 : ℤ))) := by
    simp [Sign.apply]
  rw [hvalue, UnpackedFloat.div]
  simp only [hcore]
  exact hrounds

-- Numbers that are far too large or too small for a float are told by their exponents.

include hm in
private theorem rounds_large {e : Int} (he : 1024 ≤ e) :
    Rounds (m * 10 ^ e) ⟨Float.Model.pack (.infinity .positive)⟩ := by
  have hpos : (0 : ℚ) < m * 10 ^ e := by positivity
  refine .overflow ?_ ?_
  · have hinfinite := exact_of_infinity (unpack_pack_infinity .positive) hpos
    rwa [Sign.apply, Int.cast_one, one_mul] at hinfinite
  · rw [abs_of_pos hpos]
    calc ceiling ≤ 2 ^ (1024 : ℤ) := ceiling_le_two_zpow
      _ ≤ 10 ^ (1024 : ℤ) := zpow_le_zpow_left₀ (by norm_num) (by norm_num) (by norm_num)
      _ ≤ 10 ^ e := zpow_le_zpow_right₀ (by norm_num) he
      _ ≤ m * 10 ^ e := le_mul_of_one_le_left (by positivity) (by exact_mod_cast hm)

private theorem rounds_small (m : Nat) {e : Int} (he : (m.log2 + 1 : Nat) + e ≤ -1075) :
    Rounds (m * 10 ^ e) ⟨Float.Model.pack (.zero .positive)⟩ := by
  refine rounds_zero_of_le ?_ _
  have hlog : (m : ℚ) ≤ 2 ^ (m.log2 + 1) := by exact_mod_cast Nat.lt_log2_self.le
  obtain ⟨k, rfl⟩ : ∃ k : Nat, e = -k := ⟨e.natAbs, by omega⟩
  rw [abs_of_nonneg (by positivity)]
  calc (m : ℚ) * 10 ^ (-k : ℤ) ≤ 2 ^ (m.log2 + 1) * 2 ^ (-k : ℤ) := by
        rw [zpow_neg, zpow_neg, zpow_natCast, zpow_natCast]
        gcongr
        norm_num
    _ = 2 ^ ((m.log2 + 1 : Nat) + (-k : ℤ)) := by rw [zpow_add₀ (by norm_num), zpow_natCast]
    _ ≤ 2 ^ (-1075 : ℤ) := zpow_le_zpow_right₀ (by norm_num) he

end Power

private theorem rounds_model (m : Nat) (e : Int) :
    Rounds (m * 10 ^ e) ⟨Float.Model.ofScientific m e⟩ := by
  rw [Float.Model.ofScientific, UnpackedFloat.ofScientific]
  split_ifs with hm hlarge hsmall he
  · rw [hm, Nat.cast_zero, zero_mul]
    exact rounds_zero _
  · exact rounds_large (Nat.pos_of_ne_zero hm) (le_of_lt (lt_trans (by norm_num) hlarge))
  · have hsmall' : e < -(2 ^ 11 + (m.log2 : ℤ)) := hsmall
    norm_num at hsmall'
    exact rounds_small m (by omega)
  · obtain ⟨k, rfl⟩ := Int.eq_ofNat_of_zero_le he
    rw [zpow_natCast]
    exact rounds_mul_power k _ _
  · obtain ⟨k, rfl⟩ : ∃ k : Nat, e = -k := ⟨e.natAbs, by omega⟩
    have hquotient := rounds_div_power (Nat.pos_of_ne_zero hm) k (by positivity)
    rw [zpow_neg, zpow_natCast, ← div_eq_mul_inv]
    simp only [neg_neg, Int.toNat_natCast]
    exact hquotient

-- Whole numbers of up to 53 bits

theorem representable_next {e : ℤ} (he : -1074 ≤ e) : Representable (2 ^ 53 * 2 ^ e) := by
  refine ⟨1, 53 + e, by norm_num, by omega, ?_⟩
  rw [zpow_add₀ (by norm_num), Int.cast_one, one_mul]
  norm_num

theorem representable_of_le {n e : ℤ} (hn : |n| ≤ 2 ^ 53) (he : -1074 ≤ e) :
    Representable (n * 2 ^ e) := by
  rcases hn.lt_or_eq with hlt | heq
  · exact ⟨n, e, hlt, he, rfl⟩
  · rcases (abs_eq (by positivity)).mp heq with rfl | rfl
    · exact_mod_cast representable_next he
    · have hneg := (representable_next he).neg
      rw [← neg_mul] at hneg
      exact_mod_cast hneg

theorem representable_intCast {n : ℤ} (h : |n| ≤ 2 ^ 53) : Representable n := by
  simpa using representable_of_le h (by norm_num : (-1074 : ℤ) ≤ 0)

theorem lt_ceiling_of_le {v : ℚ} (h : |v| ≤ 2 ^ (1023 : ℤ)) : |v| < ceiling := by
  refine h.trans_lt ?_
  rw [ceiling, show (1023 : ℤ) = 53 + 970 by rfl, zpow_add₀ (by norm_num)]
  gcongr
  norm_num

theorem Rounds.value_eq_intCast {x : Float} {n : ℤ} (h : Rounds n x) (hn : |n| ≤ 2 ^ 53) :
    value? x = some (n : ℚ) := by
  refine h.value_eq (representable_intCast hn) (lt_ceiling_of_le ?_)
  have hn' : |(n : ℚ)| ≤ 2 ^ (53 : ℤ) := by exact_mod_cast hn
  exact hn'.trans (zpow_le_zpow_right₀ (by norm_num) (by norm_num))

theorem rounds_toFloat (n : UInt64) : Rounds n.toNat n.toFloat := by
  have h := rounds_normalize n.toNat 0 .positive
  rw [zpow_zero, mul_one, Int.cast_natCast] at h
  exact h

private theorem value?_toFloat {m : Nat} (h : m < 2 ^ 53) :
    value? m.toUInt64.toFloat = some (m : ℚ) := by
  have hround := rounds_toFloat m.toUInt64
  rw [Nat.toUInt64_eq, UInt64.toNat_ofNat', Nat.mod_eq_of_lt (by omega),
    ← Int.cast_natCast] at hround
  exact hround.value_eq_intCast (by rw [Nat.abs_cast]; exact_mod_cast h.le)

-- The powers of ten with at most 53 bits.
private theorem value?_power : ∀ e : Fin Float.exactlyRepresentablePowersOfTen.size,
    value? Float.exactlyRepresentablePowersOfTen[e] = some (10 ^ (e : Nat)) := by
  decide +kernel

-- With few digits and a small exponent there is one operation on exact floats.
theorem rounds_ofScientific (m : Nat) (negative : Bool) (k : Nat) :
    Rounds (m * 10 ^ signed negative k) (Float.ofScientific m negative k) := by
  have hsize : Float.exactlyRepresentablePowersOfTen.size = 23 := rfl
  rw [Float.ofScientific]
  split_ifs with hsmall hnegative hnegative
  · have hpower := value?_power ⟨k, by omega⟩
    rw [hnegative, signed, if_pos rfl, zpow_neg, zpow_natCast, ← div_eq_mul_inv]
    exact rounds_div (value?_toFloat hsmall.1) hpower (by positivity)
  · have hpower := value?_power ⟨k, by omega⟩
    rw [signed, if_neg hnegative, zpow_natCast]
    exact rounds_mul (value?_toFloat hsmall.1) hpower
  · rw [hnegative]
    exact rounds_model m (Int.negOfNat k)
  · rw [signed, if_neg hnegative]
    exact rounds_model m k

theorem rounds_nearest (m : Nat) (e : Int) : Rounds (m * 10 ^ e) (nearest m e) := by
  have hexponent : signed (decide (e < 0)) e.natAbs = e := by
    rcases lt_or_ge e 0 with he | he
    · rw [signed, if_pos (decide_eq_true he)]
      omega
    · rw [signed, decide_eq_false (not_lt.mpr he)]
      exact Int.natAbs_of_nonneg he
  have h := rounds_ofScientific m (decide (e < 0)) e.natAbs
  rwa [hexponent] at h

-- The other sign

theorem unpack_neg_infinity {x : Float} {s : Sign} (h : x.toModel.unpack = .infinity s) :
    (-x).toModel.unpack = .infinity (-s) := by
  have hneg : (-x).toModel = Float.Model.pack x.toModel.unpack.neg := rfl
  rw [hneg, h]
  exact unpack_pack_infinity _

theorem Rounds.neg {v : ℚ} {x : Float} (h : Rounds v x) : Rounds (-v) (-x) := by
  cases h with
  | @nearest r hx hnear =>
    refine .nearest (value?_neg hx) fun q hq => ?_
    rw [show -v - -r = -(v - r) by ring, show -v - q = -(v - -q) by ring, abs_neg, abs_neg]
    exact hnear (-q) hq.neg
  | overflow hinfinite hlarge =>
    obtain ⟨s, hu, hs⟩ := unpack_of_infinite hinfinite
    have hu' := unpack_neg_infinity hu
    have hpos : 0 < |v| := hlarge.trans_lt' (by rw [ceiling]; positivity)
    refine .overflow ?_ (by rwa [abs_neg])
    rcases (abs_pos.mp hpos).lt_or_gt with hv | hv
    · obtain rfl : s = .negative := by simpa [hv] using hs
      have hinfinite' := exact_of_infinity hu' (neg_pos.mpr hv)
      rwa [show (-Sign.negative).apply 1 = 1 from rfl, Int.cast_one, one_mul] at hinfinite'
    · obtain rfl : s = .positive := by
        cases s with
        | positive => rfl
        | negative => simp [hv.not_gt] at hs
      have hinfinite' := exact_of_infinity hu' hv
      rwa [show (-Sign.positive).apply 1 = -1 from rfl, Int.cast_neg, Int.cast_one,
        neg_one_mul] at hinfinite'

theorem rounds_ofInt (n : Int) : Rounds n (Float.ofInt n) := by
  have hnat : ∀ k : Nat, Rounds k (Float.ofNat k) := fun k => by
    have h : Rounds (k * 10 ^ signed false 0) (Float.ofNat k) := rounds_ofScientific k false 0
    simpa [signed] using h
  cases n with
  | ofNat k => exact_mod_cast hnat k
  | negSucc k =>
    have h := (hnat (k + 1)).neg
    rw [Int.cast_negSucc]
    exact h

-- Whole numbers of up to 53 bits are exact.
theorem value?_ofInt {n : Int} (h : |n| ≤ 2 ^ 53) : value? (Float.ofInt n) = some (n : ℚ) :=
  (rounds_ofInt n).value_eq_intCast h

end Reckon.Number
