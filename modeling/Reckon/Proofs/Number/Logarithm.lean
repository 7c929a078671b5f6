import Reckon.Number.Logarithm
import Reckon.Proofs.Number.Error
import Mathlib.Analysis.Complex.ExponentialBounds
import Mathlib.Analysis.SpecialFunctions.Log.Base

namespace Reckon.Number

-- Powers of ten next to a quotient

section DecimalExponent

variable {num den : Nat}

theorem scaled_eq (num den : Nat) (power : Int) :
    ((scaled num den power).1 : ℚ) / (scaled num den power).2 = num / den * 10 ^ power := by
  simp only [scaled]
  rcases le_total 0 power with h | h
  · obtain ⟨k, rfl⟩ := Int.eq_ofNat_of_zero_le h
    simp [mul_div_right_comm]
  · obtain ⟨k, hk⟩ := Int.eq_ofNat_of_zero_le (neg_nonneg.mpr h)
    obtain rfl : power = -k := by omega
    rw [zpow_neg, zpow_natCast]
    simp
    ring

theorem toDigits_bounds {n : Nat} (hn : 0 < n) : ∃ k : Nat, (Nat.toDigits 10 n).length = k + 1 ∧
    10 ^ k ≤ n ∧ n < 10 ^ (k + 1) := by
  obtain ⟨k, hk⟩ := Nat.exists_eq_add_of_le' (Nat.length_toDigits_pos (b := 10) (n := n))
  have hlength := fun j (hj : 0 < j) =>
    Nat.length_toDigits_le_iff (b := 10) (n := n) (by decide) hj
  refine ⟨k, hk, ?_, (hlength (k + 1) (by omega)).mp hk.le⟩
  cases k with
  | zero => exact hn
  | succ k =>
    by_contra hlt
    have := (hlength (k + 1) (by omega)).mpr (not_le.mp hlt)
    omega

-- The counts of the digits settle the exponent but for one.
theorem quotient_bounds {a b : Nat} (hnum : 10 ^ a ≤ num ∧ num < 10 ^ (a + 1))
    (hden : 10 ^ b ≤ den ∧ den < 10 ^ (b + 1)) :
    (10 : ℚ) ^ (a - b - 1 : ℤ) ≤ num / den ∧ (num : ℚ) / den < 10 ^ (a - b + 1 : ℤ) := by
  have hpos : (0 : ℚ) < den := by exact_mod_cast (Nat.pow_pos (by decide)).trans_le hden.1
  rw [le_div_iff₀ hpos, div_lt_iff₀ hpos]
  constructor
  · calc (10 : ℚ) ^ (a - b - 1 : ℤ) * den ≤ 10 ^ (a - b - 1 : ℤ) * 10 ^ (b + 1) := by
          gcongr
          exact_mod_cast hden.2.le
      _ = 10 ^ a := by
          rw [← zpow_natCast, ← zpow_natCast, ← zpow_add₀ (by norm_num)]
          congr 1
          push_cast
          ring
      _ ≤ num := by exact_mod_cast hnum.1
  · calc (num : ℚ) < 10 ^ (a + 1) := by exact_mod_cast hnum.2
      _ = 10 ^ (a - b + 1 : ℤ) * 10 ^ b := by
          rw [← zpow_natCast, ← zpow_natCast, ← zpow_add₀ (by norm_num)]
          congr 1
          push_cast
          ring
      _ ≤ 10 ^ (a - b + 1 : ℤ) * den := by
          gcongr
          exact_mod_cast hden.1

-- Whether the scaled quotient reaches one settles the rest.
theorem decimalExponent_bounds (hnum : 0 < num) (hden : 0 < den) :
    (10 : ℚ) ^ decimalExponent num den ≤ num / den ∧
      (num : ℚ) / den < 10 ^ (decimalExponent num den + 1) := by
  obtain ⟨a, hlengthNum, ha⟩ := toDigits_bounds hnum
  obtain ⟨b, hlengthDen, hb⟩ := toDigits_bounds hden
  obtain ⟨hbelow, habove⟩ := quotient_bounds ha hb
  have hguess : ((Nat.toDigits 10 num).length : Int) - (Nat.toDigits 10 den).length = a - b := by
    omega
  have hscaled := scaled_eq num den (-(a - b : ℤ))
  have hden'' : 0 < (scaled num den (-(a - b : ℤ))).2 := by
    exact Nat.mul_pos hden (Nat.pow_pos (by decide))
  rw [decimalExponent, hguess]
  dsimp only
  generalize scaled num den (-(a - b : ℤ)) = quotient at hscaled hden''
  have hcompare : quotient.2 ≤ quotient.1 ↔ (10 : ℚ) ^ (a - b : ℤ) ≤ num / den := by
    rw [← Nat.cast_le (α := ℚ), ← one_le_div (by exact_mod_cast hden''), hscaled, zpow_neg,
      ← div_eq_mul_inv, one_le_div (by positivity)]
  split_ifs with h
  · exact ⟨hcompare.mp h, habove⟩
  · rw [sub_add_cancel]
    exact ⟨hbelow, not_le.mp (mt hcompare.mpr h)⟩

end DecimalExponent

-- Logarithms of fixed-point numbers

section Digits

open Real

theorem logb_sub_le {a b : ℝ} (hb : 0 < b) (hab : b ≤ a) : logb 10 a - logb 10 b ≤ (a - b) / b := by
  have hten : 1 ≤ log 10 := by
    rw [le_log_iff_exp_le (by norm_num)]
    linarith [exp_one_lt_three]
  have hlog : log (a / b) ≤ (a - b) / b :=
    (log_le_sub_one_of_pos (div_pos (hb.trans_le hab) hb)).trans_eq
      (by rw [sub_div, div_self hb.ne'])
  rw [← logb_div (hb.trans_le hab).ne' hb.ne', logb]
  exact (div_le_self (log_nonneg ((one_le_div hb).mpr hab)) hten).trans hlog

noncomputable def fixedLog (y : Nat) : ℝ := logb 10 (y / unity)

-- A quotient that is cut to a whole number loses less than one unit.
theorem fixedLog_quotient {n d : Nat} (hd : 0 < d) (h : unity ≤ n / d) :
    fixedLog (n / d) ≤ logb 10 (n / d / unity) ∧
      logb 10 (n / d / unity) ≤ fixedLog (n / d) + 1 / unity := by
  have hunity : (0 : ℝ) < unity := by exact_mod_cast (by decide : 0 < unity)
  have hreal : (unity : ℝ) ≤ (n / d : ℕ) := by exact_mod_cast h
  have hpos : (0 : ℝ) < (n / d : ℕ) := hunity.trans_le hreal
  have hbelow : ((n / d : ℕ) : ℝ) ≤ n / d := Nat.cast_div_le
  have habove : (n : ℝ) / d ≤ (n / d : ℕ) + 1 := by
    rw [div_le_iff₀ (by exact_mod_cast hd)]
    exact_mod_cast (Nat.lt_div_mul_add hd).le.trans_eq (by ring)
  have hscaled : ((n / d : ℕ) : ℝ) / unity ≤ n / d / unity := by gcongr
  refine ⟨logb_le_logb_of_le (by norm_num) (by positivity) hscaled, ?_⟩
  have hsub := logb_sub_le (by positivity) hscaled
  rw [div_sub_div_same, div_div_div_cancel_right₀ hunity.ne'] at hsub
  have hloss : ((n : ℝ) / d - (n / d : ℕ)) / (n / d : ℕ) ≤ 1 / unity := by
    rw [div_le_div_iff₀ hpos hunity]
    gcongr
    linarith
  rw [fixedLog]
  linarith

theorem fixedLog_square {y : Nat} (hy : unity ≤ y) :
    2 * fixedLog y - 1 / unity ≤ fixedLog (y * y / unity) ∧
      fixedLog (y * y / unity) ≤ 2 * fixedLog y := by
  have hunity : (0 : ℝ) < unity := by exact_mod_cast (by decide : 0 < unity)
  have hpos : (0 : ℝ) < y := hunity.trans_le (by exact_mod_cast hy)
  have hsquare : logb 10 (((y * y : ℕ) : ℝ) / unity / unity) = 2 * fixedLog y := by
    have hpow : ((y * y : ℕ) : ℝ) / unity / unity = (y / unity) ^ 2 := by
      push_cast
      field_simp
    rw [hpow, logb_pow, Nat.cast_ofNat, fixedLog]
  have hle : unity ≤ y * y / unity :=
    (Nat.le_div_iff_mul_le (by decide)).mpr (Nat.mul_le_mul hy hy)
  have hquotient := fixedLog_quotient (by decide) hle
  rw [hsquare] at hquotient
  constructor <;> linarith [hquotient.1, hquotient.2]

theorem fixedLog_tenth {y : Nat} (hy : 10 * unity ≤ y) :
    fixedLog y - 1 - 1 / unity ≤ fixedLog (y / 10) ∧ fixedLog (y / 10) ≤ fixedLog y - 1 := by
  have hunity : (0 : ℝ) < unity := by exact_mod_cast (by decide : 0 < unity)
  have hpos : (0 : ℝ) < y := by exact_mod_cast hy.trans_lt' (by decide)
  have htenth : logb 10 ((y : ℝ) / (10 : ℕ) / unity) = fixedLog y - 1 := by
    rw [div_right_comm, logb_div (by positivity) (by norm_num), Nat.cast_ofNat,
      logb_self_eq_one (by norm_num), fixedLog]
  have hquotient := fixedLog_quotient (d := 10) (by decide) (show unity ≤ y / 10 by omega)
  rw [htenth] at hquotient
  constructor <;> linarith [hquotient.1, hquotient.2]

theorem fixedLog_bounds {y : Nat} (hlow : unity ≤ y) (hhigh : y < 10 * unity) :
    0 ≤ fixedLog y ∧ fixedLog y ≤ 1 := by
  have hunity : (0 : ℝ) < unity := by exact_mod_cast (by decide : 0 < unity)
  have hone : (1 : ℝ) ≤ y / unity := (one_le_div hunity).mpr (by exact_mod_cast hlow)
  have hten : (y : ℝ) / unity ≤ 10 := (div_le_iff₀ hunity).mpr (by exact_mod_cast hhigh.le)
  exact ⟨logb_nonneg (by norm_num) hone,
    (logb_le_iff_le_rpow (by norm_num) (by linarith)).mpr (by simpa using hten)⟩

-- Each digit is taken from a number that has lost two units at most; the digits that follow double
-- the loss.
theorem logarithmDigits_near (count : Nat) {y : Nat} (read : Nat) (hlow : unity ≤ y)
    (hhigh : y < 10 * unity) :
    |(logarithmDigits count y read : ℝ) - 2 ^ count * (read + fixedLog y)| ≤
      1 + 2 ^ count * (2 / unity) := by
  have hunity : (0 : ℝ) < unity := by exact_mod_cast (by decide : 0 < unity)
  induction count generalizing y read with
  | zero =>
    obtain ⟨hzero, hone⟩ := fixedLog_bounds hlow hhigh
    have hloss : 0 ≤ 2 / (unity : ℝ) := by positivity
    rw [logarithmDigits, abs_le]
    constructor <;> linarith
  | succ count ih =>
    obtain ⟨hsquareLow, hsquareHigh⟩ := fixedLog_square hlow
    have hle : unity ≤ y * y / unity :=
      (Nat.le_div_iff_mul_le (by decide)).mpr (Nat.mul_le_mul hlow hlow)
    have hlt : y * y / unity < 100 * unity := by
      rw [Nat.div_lt_iff_lt_mul (by decide)]
      nlinarith
    -- what is left of the logarithm, with the digit in front of it, is twice the one before
    have hnext : ∀ (next digit : Nat), unity ≤ next → next < 10 * unity →
        2 * fixedLog y - 2 / unity ≤ digit + fixedLog next →
        digit + fixedLog next ≤ 2 * fixedLog y →
        |(logarithmDigits count next (2 * read + digit) : ℝ) -
          2 ^ (count + 1) * (read + fixedLog y)| ≤ 1 + 2 ^ (count + 1) * (2 / unity) := by
      intro next digit hnextLow hnextHigh hdigitLow hdigitHigh
      have hnear := ih (2 * read + digit) hnextLow hnextHigh
      have hscale : (0 : ℝ) < 2 ^ count := by positivity
      rw [abs_le] at hnear ⊢
      push_cast at hnear
      rw [pow_succ]
      constructor <;> nlinarith
    have hhalf : (2 : ℝ) / unity = 1 / unity + 1 / unity := by ring
    have hpos : (0 : ℝ) < 1 / unity := by positivity
    rw [logarithmDigits]
    split_ifs with hten
    · obtain ⟨htenthLow, htenthHigh⟩ := fixedLog_tenth hten
      exact hnext _ 1 (by omega) (by omega) (by push_cast; linarith) (by push_cast; linarith)
    · exact hnext _ 0 hle (by omega) (by push_cast; linarith) (by push_cast; linarith)

-- The digits of a number with a whole part of its logarithm of up to eleven bits leave more than
-- forty places of a float behind the point.
private theorem exists_digits_value {whole : Int} {digits : Nat} (hwhole : |whole| < 2 ^ 11)
    (hdigits : digits ≤ 2 ^ 81) :
    ∃ v, value? (Float.ofInt (2 * (whole * (Nat.pow 2 logarithmPlaces : Nat) + digits) + 1) *
        powerOfTwo (-(logarithmPlaces : Int) - 1)) = some v ∧
      |(whole + digits / 2 ^ 80 : ℚ) - v| ≤ 1 / 2 ^ 40 := by
  have hlast : value? (powerOfTwo (-(logarithmPlaces : Int) - 1)) = some (2 ^ (-81 : ℤ)) :=
    value?_powerOfTwo (by decide) (by decide)
  obtain ⟨n, hn⟩ : ∃ n : ℤ, 2 * (whole * (Nat.pow 2 logarithmPlaces : Nat) + digits) + 1 = n :=
    ⟨_, rfl⟩
  have hn' : (n : ℚ) = whole * 2 ^ 81 + 2 * digits + 1 := by
    rw [← hn, logarithmPlaces]
    push_cast
    ring
  have hdigits' : (digits : ℚ) ≤ 2 ^ 81 := by exact_mod_cast hdigits
  have hwhole' : |(whole : ℚ)| ≤ 2 ^ 11 := by exact_mod_cast hwhole.le
  rw [abs_le] at hwhole'
  have hsize : |(n : ℚ)| ≤ 2 ^ 53 * 2 ^ (40 : ℤ) := by
    rw [abs_le, hn']
    norm_num
    constructor <;> linarith [Nat.cast_nonneg (α := ℚ) digits]
  obtain ⟨k, hk, hnear⟩ := (rounds_ofInt n).exists_near_unit (by norm_num) (by norm_num) hsize
  have hsize' : |k * (2 : ℚ) ^ (-81 : ℤ)| ≤ 2 ^ 53 * 2 ^ (-40 : ℤ) := by
    rw [abs_le] at hsize hnear ⊢
    norm_num at hsize hnear ⊢
    constructor <;> linarith
  obtain ⟨v, hv, hnear'⟩ :=
    (rounds_mul hk hlast).exists_near_unit (by norm_num) (by norm_num) hsize'
  rw [hn]
  refine ⟨v, hv, ?_⟩
  rw [hn', abs_le] at hnear
  rw [abs_le] at hnear' ⊢
  norm_num at hnear hnear' ⊢
  constructor <;> linarith

-- The quotient that is left when the power of ten is taken out

theorem scaled_unit {num den : Nat} (hnum : 0 < num) (hden : 0 < den) :
    (scaled num den (-decimalExponent num den)).2 ≤ (scaled num den (-decimalExponent num den)).1 ∧
      (scaled num den (-decimalExponent num den)).1 <
        10 * (scaled num den (-decimalExponent num den)).2 := by
  obtain ⟨hlow, hhigh⟩ := decimalExponent_bounds hnum hden
  generalize decimalExponent num den = power at *
  have hscaled := scaled_eq num den (-power)
  have hpos : 0 < (scaled num den (-power)).2 := Nat.mul_pos hden (Nat.pow_pos (by decide))
  have hpos' : (0 : ℚ) < (scaled num den (-power)).2 := by exact_mod_cast hpos
  rw [zpow_neg, ← div_eq_mul_inv] at hscaled
  rw [zpow_add_one₀ (by norm_num), mul_comm] at hhigh
  rw [← one_le_div (by positivity), ← hscaled, one_le_div hpos'] at hlow
  rw [← div_lt_iff₀ (by positivity), ← hscaled, div_lt_iff₀ hpos'] at hhigh
  exact_mod_cast And.intro hlow hhigh

theorem logb_scaled {num den : Nat} (hnum : 0 < num) (hden : 0 < den) (power : Int) :
    logb 10 ((scaled num den power).1 / (scaled num den power).2) =
      logb 10 (num / den) + power := by
  have hreal : ((scaled num den power).1 / (scaled num den power).2 : ℝ) =
      num / den * 10 ^ power := by
    have := congrArg (fun r : ℚ => (r : ℝ)) (scaled_eq num den power)
    push_cast at this
    exact this
  rw [hreal, logb_mul (by positivity) (by positivity), ← rpow_intCast, logb_rpow (by norm_num)
    (by norm_num)]

-- The same quotient as the fixed-point number that the digits are taken from.
theorem fixedLog_mantissa {num den : Nat} (hden : 0 < den) (hlow : den ≤ num)
    (hhigh : num < 10 * den) :
    unity ≤ num * unity / den ∧ num * unity / den < 10 * unity ∧
      fixedLog (num * unity / den) ≤ logb 10 (num / den) ∧
      logb 10 (num / den) ≤ fixedLog (num * unity / den) + 1 / 2 ^ 80 := by
  have hunity : (0 : ℝ) < unity := by exact_mod_cast (by decide : 0 < unity)
  have hunit : 1 / (unity : ℝ) ≤ 1 / 2 ^ 80 := by
    gcongr
    exact_mod_cast (by decide : 2 ^ 80 ≤ unity)
  have hylow : unity ≤ num * unity / den := by
    rw [Nat.le_div_iff_mul_le hden, mul_comm]
    exact Nat.mul_le_mul_right unity hlow
  obtain ⟨hcutLow, hcutHigh⟩ := fixedLog_quotient hden hylow
  rw [Nat.cast_mul, mul_div_right_comm, mul_div_cancel_right₀ _ hunity.ne'] at hcutLow hcutHigh
  refine ⟨hylow, ?_, hcutLow, by linarith⟩
  rw [Nat.div_lt_iff_lt_mul hden, mul_right_comm]
  exact Nat.mul_lt_mul_of_pos_right hhigh (by decide)

-- The float that is made of a whole part and of the digits of a fixed-point number.
theorem exists_digits_near {whole : Int} (hwhole : |whole| < 2 ^ 11) {y : Nat} (hlow : unity ≤ y)
    (hhigh : y < 10 * unity) :
    ∃ v, value? (Float.ofInt (2 * (whole * (Nat.pow 2 logarithmPlaces : Nat) +
        logarithmDigits logarithmPlaces y 0) + 1) * powerOfTwo (-(logarithmPlaces : Int) - 1)) =
          some v ∧ |(v : ℝ) - (whole + fixedLog y)| ≤ 1 / 2 ^ 30 := by
  obtain ⟨-, hfraction⟩ := fixedLog_bounds hlow hhigh
  have hdigits := logarithmDigits_near logarithmPlaces 0 hlow hhigh
  have hplaces : 2 ^ logarithmPlaces * (2 / (unity : ℝ)) ≤ 2 := by
    rw [logarithmPlaces, mul_div_assoc', div_le_iff₀ (by exact_mod_cast (by decide : 0 < unity))]
    exact_mod_cast (by decide : 2 ^ 80 * 2 ≤ 2 * unity)
  rw [abs_le, Nat.cast_zero, zero_add, logarithmPlaces] at hdigits
  rw [logarithmPlaces] at hplaces
  have hcount : logarithmDigits 80 y 0 ≤ 2 ^ 81 := by
    have hcast : (logarithmDigits 80 y 0 : ℝ) ≤ 2 ^ 81 := by linarith
    exact_mod_cast hcast
  obtain ⟨v, hv, hnear⟩ := exists_digits_value hwhole hcount
  have hnear' := (Rat.cast_le (K := ℝ)).mpr hnear
  push_cast at hnear'
  refine ⟨v, hv, ?_⟩
  rw [abs_le] at hnear' ⊢
  norm_num at hplaces hdigits hnear' ⊢
  constructor <;> linarith

-- The logarithm as it is computed is close to that of the number.
theorem logarithm_near {m : Nat} {q : Int} (hm : 0 < m)
    (hwhole : |decimalExponent (ratio m q).1 (ratio m q).2| < 2 ^ 11) :
    ∃ v, value? (logarithm m q) = some v ∧
      |(v : ℝ) - logb 10 ((ratio m q).1 / (ratio m q).2)| ≤ 1 / 100 := by
  have hnum : 0 < (ratio m q).1 := Nat.mul_pos hm (Nat.pow_pos (by decide))
  have hden : 0 < (ratio m q).2 := Nat.pow_pos (by decide)
  obtain ⟨hlow, hhigh⟩ := scaled_unit hnum hden
  have hlog := logb_scaled hnum hden (-decimalExponent (ratio m q).1 (ratio m q).2)
  rw [logarithm]
  dsimp only
  generalize decimalExponent (ratio m q).1 (ratio m q).2 = whole at *
  have hpos : 0 < (scaled (ratio m q).1 (ratio m q).2 (-whole)).2 :=
    Nat.mul_pos hden (Nat.pow_pos (by decide))
  obtain ⟨hylow, hyhigh, hcutLow, hcutHigh⟩ := fixedLog_mantissa hpos hlow hhigh
  rw [hlog] at hcutLow hcutHigh
  push_cast at hcutLow hcutHigh
  split_ifs with h
  · refine ⟨whole, value?_ofInt (by omega), ?_⟩
    have hone : fixedLog unity = 0 := by
      rw [fixedLog, div_self (by exact_mod_cast (by decide : unity ≠ 0)), logb_one]
    rw [h.1, hone] at hcutLow hcutHigh
    rw [abs_le]
    push_cast
    norm_num at hcutHigh ⊢
    constructor <;> linarith
  · obtain ⟨v, hv, hnear⟩ := exists_digits_near hwhole hylow hyhigh
    refine ⟨v, hv, ?_⟩
    rw [abs_le] at hnear ⊢
    norm_num at hcutHigh hnear ⊢
    constructor <;> linarith

-- Powers of ten below and above a number

section Compare

variable {d : ℚ} (hd : 0 < d) (n : ℤ)
include hd

theorem zpow_le_iff_logb : (10 : ℚ) ^ n ≤ d ↔ (n : ℝ) ≤ logb 10 d := by
  rw [le_logb_iff_rpow_le (by norm_num) (by exact_mod_cast hd), rpow_intCast,
    ← Rat.cast_le (K := ℝ)]
  push_cast
  rfl

theorem le_zpow_iff_logb : d ≤ (10 : ℚ) ^ n ↔ logb 10 d ≤ n := by
  rw [logb_le_iff_le_rpow (by norm_num) (by exact_mod_cast hd), rpow_intCast,
    ← Rat.cast_le (K := ℝ)]
  push_cast
  rfl

end Compare

end Digits

end Reckon.Number
