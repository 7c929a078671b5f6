import Reckon.Plot.Tic
import Reckon.Proofs.Number.Logarithm
import Reckon.Proofs.Outcome

namespace Reckon

open Number

-- What is asked of the logarithm and of the powers of ten: of the former two places behind the
-- point, of the latter a quarter of their size. The least power that is not zero is twice the least
-- float.
structure Decades.Close (decades : Decades) : Prop where
  logarithm : ∀ {x : Float} {d : ℚ}, value? x = some d → 0 < d →
    ∃ v, value? (decades.logarithm x) = some v ∧ |(v : ℝ) - Real.logb 10 d| ≤ 1 / 100
  power : ∀ {n : ℤ}, -323 ≤ n → n ≤ 308 →
    ∃ ω, value? (decades.power n) = some ω ∧ |ω - 10 ^ n| ≤ 10 ^ n / 4
  underflow : decades.power (-324) = 0.0

namespace Tic

-- There is a width for positive finite lengths only.
theorem exists_value_of_width {decades : Decades} {length w : Float}
    (h : width decades length = .ok w) : ∃ d, value? length = some d ∧ 0 < d := by
  obtain ⟨n, hn, -⟩ := bind_eq_ok.mp h
  cases hexact : exact length with
  | undefined => simp [decade, hexact] at hn
  | infinite negative => cases negative <;> simp [decade, hexact] at hn
  | finite negative m q =>
    by_cases hextent : negative ∨ m = 0
    · simp [decade, hexact, hextent] at hn
    · obtain ⟨hnegative, hm⟩ := not_or.mp hextent
      refine ⟨signed negative m * 2 ^ q, by rw [value?, hexact, Exact.value?], ?_⟩
      rw [signed, if_neg hnegative, Int.cast_natCast]
      have := Nat.pos_of_ne_zero hm
      positivity

-- The numbers that floats stand for have exponents of four digits.
theorem abs_exponent_lt {length : Float} {d : ℚ} (hd : value? length = some d) (hpos : 0 < d)
    {k : ℤ} (hlow : 10 ^ k ≤ d) (hhigh : d < 10 ^ (k + 1)) : |k| < 2 ^ 11 := by
  have hleast : (10 : ℚ) ^ (-1074 : ℤ) < 10 ^ (k + 1) :=
    calc (10 : ℚ) ^ (-1074 : ℤ) ≤ 2 ^ (-1074 : ℤ) := by
          rw [zpow_neg, zpow_neg]
          exact inv_anti₀ (by positivity)
            (zpow_le_zpow_left₀ (by norm_num) (by norm_num) (by norm_num))
      _ ≤ d := (representable_of_value hd).least_le hpos
      _ < 10 ^ (k + 1) := hhigh
  have hlargest : (10 : ℚ) ^ k < 10 ^ (1024 : ℤ) :=
    calc (10 : ℚ) ^ k ≤ d := hlow
      _ < ceiling := (le_abs_self d).trans_lt (abs_lt_ceiling hd)
      _ ≤ 2 ^ (1024 : ℤ) := ceiling_le_two_zpow
      _ ≤ 10 ^ (1024 : ℤ) := zpow_le_zpow_left₀ (by norm_num) (by norm_num) (by norm_num)
  rw [zpow_lt_zpow_iff_right₀ (by norm_num)] at hleast hlargest
  rw [abs_lt]
  omega

section Decade

variable {decades : Decades} (hclose : decades.Close) {length : Float} {d : ℚ}
  (hd : value? length = some d) (hpos : 0 < d)
include hclose hd hpos

-- Bounds of the logarithm less one, counted in 64 parts so that they are floats, are bounds of the
-- whole number next to it.
theorem exists_decade {a b : ℤ} (ha : |a| ≤ 2 ^ 53) (hb : |b| ≤ 2 ^ 53)
    (hlow : (a : ℝ) / 64 + 101 / 100 ≤ Real.logb 10 d)
    (hhigh : Real.logb 10 d ≤ (b : ℝ) / 64 + 99 / 100) :
    ∃ n, decade decades length = .ok n ∧ a ≤ 64 * n + 32 ∧ 64 * n ≤ b + 32 := by
  obtain ⟨v, hv, hnear⟩ := hclose.logarithm hd hpos
  rw [abs_le] at hnear
  have hparts : ∀ c : ℤ, |c| ≤ 2 ^ 53 → InRange (c / 64) := fun c hc => by
    have h := inRange_of_le (n := c) (e := -6) hc (by norm_num) (by norm_num)
    rwa [zpow_neg, ← div_eq_mul_inv, show (2 : ℚ) ^ (6 : ℤ) = 64 by norm_num] at h
  have hvlow : (a : ℚ) / 64 ≤ v - 1 := by
    have : (a : ℝ) / 64 ≤ v - 1 := by linarith
    exact_mod_cast this
  have hvhigh : v - 1 ≤ (b : ℚ) / 64 := by
    have : (v : ℝ) - 1 ≤ b / 64 := by linarith
    exact_mod_cast this
  obtain ⟨r, hr, hrlow, hrhigh⟩ :=
    (rounds_sub hv value?_one).exists_between (hparts a ha) (hparts b hb) hvlow hvhigh
  obtain ⟨n, hn, hhalf⟩ := exists_round hr
  obtain ⟨m, q, hexact, hm, -⟩ := exists_ratio_of_pos hd hpos
  rw [abs_le] at hhalf
  have hnlow : (a : ℚ) ≤ 64 * n + 32 := by linarith
  have hnhigh : 64 * (n : ℚ) ≤ b + 32 := by linarith
  refine ⟨n, ?_, by exact_mod_cast hnlow, by exact_mod_cast hnhigh⟩
  rw [decade, hexact]
  dsimp only
  rw [if_neg (by simpa using hm.ne'), hn]
  rfl

-- It is one of the two next to the logarithm less one.
theorem decade_bounds :
    ∃ n : ℤ, decade decades length = .ok n ∧ (10 : ℚ) ^ n ≤ d ∧ d < 10 ^ (n + 2) := by
  have hlow := Int.zpow_log_le_self (b := 10) (by norm_num) hpos
  have hhigh := Int.lt_zpow_succ_log_self (b := 10) (by norm_num) d
  push_cast at hlow hhigh
  generalize Int.log 10 d = k at hlow hhigh
  have hk := abs_lt.mp (abs_exponent_lt hd hpos hlow hhigh)
  have hklow := (zpow_le_iff_logb hpos k).mp hlow
  have hkhigh := (le_zpow_iff_logb hpos (k + 1)).mp hhigh.le
  obtain ⟨n, hn, hnlow, hnhigh⟩ := exists_decade hclose hd hpos (a := 64 * (k - 1) - 1)
    (b := 64 * k + 1) (abs_le.mpr (by omega)) (abs_le.mpr (by omega)) (by push_cast; linarith)
    (by push_cast at *; linarith)
  exact ⟨n, hn, (zpow_le_zpow_right₀ (by norm_num) (by omega)).trans hlow,
    hhigh.trans_le (zpow_le_zpow_right₀ (by norm_num) (by omega))⟩

-- Off the middle between two whole numbers the logarithm is close enough to tell which is nearer.
theorem decade_eq {n : ℤ} (hn : |n| ≤ 2 ^ 11) (hlow : (10 : ℚ) ^ (19 * n + 10) ≤ d ^ 19)
    (hhigh : d ^ 19 ≤ (10 : ℚ) ^ (19 * n + 28)) : decade decades length = .ok n := by
  rw [zpow_le_iff_logb (by positivity), Rat.cast_pow, Real.logb_pow] at hlow
  rw [le_zpow_iff_logb (by positivity), Rat.cast_pow, Real.logb_pow] at hhigh
  push_cast at hlow hhigh
  rw [abs_le] at hn
  obtain ⟨n', hn', hnlow, hnhigh⟩ := exists_decade hclose hd hpos (a := 64 * n - 31)
    (b := 64 * n + 31) (abs_le.mpr (by omega)) (abs_le.mpr (by omega)) (by push_cast; linarith)
    (by push_cast; linarith)
  obtain rfl : n' = n := by omega
  exact hn'

-- Lengths of up to twenty times the least float.
theorem decade_least (hsmall : d < 21 * 2 ^ (-1074 : ℤ)) :
    decade decades length = .ok (if d < 7 * 2 ^ (-1074 : ℤ) then -324 else -323) := by
  have hleast : (0 : ℚ) < 2 ^ (-1074 : ℤ) := by positivity
  split_ifs with hshort
  · obtain ⟨k, rfl⟩ := (representable_of_value hd).exists_multiple
    have hk : k ≤ 6 := by
      have : k < 7 := by exact_mod_cast lt_of_mul_lt_mul_right hshort hleast.le
      omega
    have hk0 : 1 ≤ k := by
      have : 0 < k := by exact_mod_cast pos_of_mul_pos_left hpos hleast.le
      omega
    have hk' : (k : ℚ) ≤ 6 := by exact_mod_cast hk
    have hk0' : (1 : ℚ) ≤ k := by exact_mod_cast hk0
    refine decade_eq hclose hd hpos (by norm_num) ?_ ?_
    · calc (10 : ℚ) ^ (19 * -324 + 10 : ℤ) ≤ (1 * 2 ^ (-1074 : ℤ)) ^ 19 := by decide +kernel
        _ ≤ (k * 2 ^ (-1074 : ℤ)) ^ 19 := by gcongr
    · calc (k * 2 ^ (-1074 : ℤ) : ℚ) ^ 19 ≤ (6 * 2 ^ (-1074 : ℤ)) ^ 19 := by gcongr
        _ ≤ 10 ^ (19 * -324 + 28 : ℤ) := by decide +kernel
  · refine decade_eq hclose hd hpos (by norm_num) ?_ ?_
    · calc (10 : ℚ) ^ (19 * -323 + 10 : ℤ) ≤ (7 * 2 ^ (-1074 : ℤ)) ^ 19 := by decide +kernel
        _ ≤ d ^ 19 := by
            gcongr
            exact not_lt.mp hshort
    · calc d ^ 19 ≤ (21 * 2 ^ (-1074 : ℤ)) ^ 19 := by gcongr
        _ ≤ 10 ^ (19 * -323 + 28 : ℤ) := by decide +kernel

-- The power of ten is nearer to zero than to the least float.
theorem width_eq_zero (hshort : d < 7 * 2 ^ (-1074 : ℤ)) : width decades length = .ok 0.0 := by
  rw [width, decade_least hclose hd hpos (hshort.trans (by gcongr; norm_num)), if_pos hshort,
    ok_bind, hclose.underflow]
  rfl

-- The width goes into the length at most 134 times, whatever the powers are rounded to.
theorem exists_width (hlong : 7 * 2 ^ (-1074 : ℤ) ≤ d) :
    ∃ w ω, width decades length = .ok w ∧ value? w = some ω ∧ 0 < ω ∧ d ≤ 134 * ω := by
  obtain ⟨n, hn, hlow, hhigh⟩ := decade_bounds hclose hd hpos
  have hpower : (0 : ℚ) < 10 ^ n := by positivity
  have hnlow : -323 ≤ n := by
    by_contra hlt
    have hsmall : d < 21 * 2 ^ (-1074 : ℤ) :=
      calc d < 10 ^ (n + 2) := hhigh
        _ ≤ 10 ^ (-322 : ℤ) := zpow_le_zpow_right₀ (by norm_num) (by omega)
        _ < 21 * 2 ^ (-1074 : ℤ) := by decide +kernel
    rw [decade_least hclose hd hpos hsmall, if_neg (not_lt.mpr hlong)] at hn
    exact hlt (Except.ok.inj hn).le
  have hnhigh : n ≤ 308 := by
    by_contra hlt
    have hlarge : d < 10 ^ (309 : ℤ) :=
      calc d < ceiling := (le_abs_self d).trans_lt (abs_lt_ceiling hd)
        _ ≤ 10 ^ (309 : ℤ) := by decide +kernel
    have hle : (10 : ℚ) ^ (309 : ℤ) ≤ 10 ^ n := zpow_le_zpow_right₀ (by norm_num) (by omega)
    linarith
  obtain ⟨ω, hω, hnear⟩ := hclose.power hnlow hnhigh
  rw [abs_le] at hnear
  rw [zpow_add₀ (by norm_num)] at hhigh
  norm_num at hhigh
  exact ⟨decades.power n, ω, by rw [width, hn]; rfl, hω, by linarith, by linarith⟩

end Decade

end Tic

-- The nearest floats are close.
theorem Decades.standard_close : standard.Close where
  logarithm := by
    intro x d hd hpos
    obtain ⟨m, q, hexact, hm, hratio⟩ := exists_ratio_of_pos hd hpos
    have hnum : 0 < (ratio m q).1 := Nat.mul_pos hm (Nat.pow_pos (by decide))
    have hden : 0 < (ratio m q).2 := Nat.pow_pos (by decide)
    obtain ⟨hlow, hhigh⟩ := decimalExponent_bounds hnum hden
    rw [← hratio] at hlow hhigh
    obtain ⟨v, hv, hnear⟩ := logarithm_near hm (Tic.abs_exponent_lt hd hpos hlow hhigh)
    refine ⟨v, by simpa only [standard, hexact] using hv, ?_⟩
    rw [hratio]
    push_cast
    exact hnear
  power := by
    intro n hlow hhigh
    have hpower : (0 : ℚ) < 10 ^ n := by positivity
    have hrounds : Rounds (10 ^ n) (nearest 1 n) := by simpa using rounds_nearest 1 n
    obtain ⟨ω, hω⟩ := hrounds.exists_value (by
      rw [abs_of_pos hpower]
      calc (10 : ℚ) ^ n ≤ 10 ^ (308 : ℤ) := zpow_le_zpow_right₀ (by norm_num) hhigh
        _ < ceiling := by decide +kernel)
    refine ⟨ω, hω, ?_⟩
    -- half the least float is less than a quarter of the power
    have hunit : (2 : ℚ) ^ (-1075 : ℤ) ≤ 10 ^ n * (1 / 4 - 1 / 2 ^ 53) :=
      calc (2 : ℚ) ^ (-1075 : ℤ) ≤ 10 ^ (-323 : ℤ) * (1 / 4 - 1 / 2 ^ 53) := by decide +kernel
        _ ≤ 10 ^ n * (1 / 4 - 1 / 2 ^ 53) := by
          gcongr
          norm_num
    have herror := hrounds.error hω
    rw [abs_of_pos hpower] at herror
    rw [abs_sub_comm]
    linarith
  underflow := by decide +kernel

end Reckon
