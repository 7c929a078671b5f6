import Reckon.Number.Remainder
import Reckon.Proofs.Number.Error

namespace Reckon.Number

-- A mantissa with an exponent is exact, as long as it is in the range of floats.
theorem value?_compose {m : Nat} {q : Int} (hm : m < 2 ^ 53) (hlow : -1074 ≤ q) (hhigh : q ≤ 1023)
    (hlt : (m : ℚ) * 2 ^ q < ceiling) (negative : Bool) :
    value? (compose negative m q) = some ((signed negative m : ℚ) * 2 ^ q) := by
  have hm' : |(m : ℤ)| ≤ 2 ^ 53 := by
    rw [Nat.abs_cast]
    exact_mod_cast hm.le
  have hproduct : value? (Float.ofNat m * powerOfTwo q) = some ((m : ℚ) * 2 ^ q) := by
    refine (rounds_mul (value?_ofInt (n := m) hm') (value?_powerOfTwo hlow hhigh)).value_eq
      (representable_of_le hm' hlow) ?_
    rwa [Int.cast_natCast, abs_of_nonneg (by positivity)]
  unfold compose
  cases negative with
  | false => exact hproduct
  | true => simpa [signed] using value?_neg hproduct

section Remainder

-- What is left of one number when whole multiples of another one are taken off toward zero.
structure Left (a b r : ℚ) : Prop where
  multiple : ∃ k : ℤ, a = r + b * k
  lt : |r| < |b|
  sign : 0 ≤ a * r

namespace Left

variable {a b r : ℚ}

theorem neg (h : Left a b r) : Left (-a) b (-r) := by
  obtain ⟨k, rfl⟩ := h.multiple
  refine ⟨⟨-k, ?_⟩, by rw [abs_neg]; exact h.lt, by rw [neg_mul_neg]; exact h.sign⟩
  push_cast
  ring

theorem neg_divisor (h : Left a b r) : Left a (-b) r := by
  obtain ⟨k, rfl⟩ := h.multiple
  refine ⟨⟨-k, ?_⟩, by rw [abs_neg]; exact h.lt, h.sign⟩
  push_cast
  ring

-- Of numbers in one unit as much is left as of the mantissas.
theorem mod (left : Nat) {right : Nat} (hright : right ≠ 0) {unit : ℚ} (hunit : 0 < unit) :
    Left (left * unit) (right * unit) ((left % right : Nat) * unit) where
  multiple := by
    refine ⟨(left / right : Nat), ?_⟩
    have hdivision : (left : ℚ) = (left % right : Nat) + right * (left / right : Nat) := by
      exact_mod_cast (Nat.mod_add_div left right).symm
    rw [Int.cast_natCast, mul_right_comm, ← add_mul, ← hdivision]
  lt := by
    rw [abs_of_nonneg (by positivity), abs_of_nonneg (by positivity)]
    have hlt := Nat.mod_lt left (Nat.pos_of_ne_zero hright)
    gcongr
  sign := by positivity

theorem signed_mod (negative negative' : Bool) (left : Nat) {right : Nat} (hright : right ≠ 0)
    {unit : ℚ} (hunit : 0 < unit) :
    Left (signed negative left * unit) (signed negative' right * unit)
      (signed negative (left % right) * unit) := by
  have h := mod left hright hunit
  generalize left % right = rest at h ⊢
  cases negative <;> cases negative'
  · simpa [signed] using h
  · simpa [signed] using h.neg_divisor
  · simpa [signed] using h.neg
  · simpa [signed] using h.neg.neg_divisor

end Left

variable {x y : Float} {a b : ℚ}

-- A number in a smaller unit.
theorem signed_mul_zpow (negative : Bool) (m : Nat) {q unit : Int} (h : unit ≤ q) :
    (signed negative m : ℚ) * 2 ^ q =
      signed negative (m * Nat.pow 2 (q - unit).toNat) * 2 ^ unit := by
  obtain ⟨k, hk⟩ := Int.eq_ofNat_of_zero_le (by omega : 0 ≤ q - unit)
  obtain rfl : q = unit + k := by omega
  rw [hk, mul_two_zpow_add]
  cases negative <;> simp [signed]

theorem abs_signed_mul (negative : Bool) (m : Nat) {unit : ℚ} (hunit : 0 < unit) :
    |(signed negative m : ℚ) * unit| = m * unit := by
  rw [abs_mul, abs_of_pos hunit]
  cases negative <;> simp [signed]

-- One of the mantissas need not be shifted, and nothing that is left exceeds it.
theorem mod_lt_of_shifted {m n j k : Nat} (hm : m < 2 ^ 53) (hn : n < 2 ^ 53) (hn0 : n ≠ 0)
    (hjk : j = 0 ∨ k = 0) : m * Nat.pow 2 j % (n * Nat.pow 2 k) < 2 ^ 53 := by
  rcases hjk with rfl | rfl
  · exact (Nat.mod_le _ _).trans_lt (by simpa using hm)
  · have hdivisor : n * Nat.pow 2 0 = n := Nat.mul_one n
    rw [hdivisor]
    exact (Nat.mod_lt _ (Nat.pos_of_ne_zero hn0)).trans hn

-- Main statement.
theorem exists_remainder (hx : value? x = some a) (hy : value? y = some b) (hb : b ≠ 0) :
    ∃ r, value? (remainder x y) = some r ∧ Left a b r := by
  have hlt := abs_lt_ceiling hx
  obtain ⟨negative, m, q, hex, rfl⟩ := exists_exact hx
  obtain ⟨negative', n, p, hey, rfl⟩ := exists_exact hy
  obtain ⟨hm, hq, hq'⟩ := exact_bounds hex
  obtain ⟨hn, hp, -⟩ := exact_bounds hey
  have hn0 : n ≠ 0 := by
    rintro rfl
    cases negative' <;> simp [signed] at hb
  obtain ⟨unit, hunit⟩ : ∃ unit, unit = min q p := ⟨_, rfl⟩
  have hrest := mod_lt_of_shifted hm hn hn0
    (by omega : (q - unit).toNat = 0 ∨ (p - unit).toNat = 0)
  have hright : n * Nat.pow 2 (p - unit).toNat ≠ 0 :=
    Nat.mul_ne_zero hn0 (Nat.pow_pos (by decide)).ne'
  have hpos : (0 : ℚ) < 2 ^ unit := by positivity
  rw [remainder, hex, hey]
  dsimp only
  rw [signed_mul_zpow negative m (by omega : unit ≤ q), abs_signed_mul _ _ hpos] at hlt
  rw [if_neg hn0, ← hunit, signed_mul_zpow negative m (by omega : unit ≤ q),
    signed_mul_zpow negative' n (by omega : unit ≤ p)]
  generalize m * Nat.pow 2 (q - unit).toNat = left at hlt hrest ⊢
  generalize n * Nat.pow 2 (p - unit).toNat = right at hrest hright ⊢
  refine ⟨_, value?_compose hrest (by omega) (by omega) (lt_of_le_of_lt ?_ hlt) negative,
    Left.signed_mod negative negative' left hright hpos⟩
  gcongr
  exact Nat.mod_le left right

-- Of whole numbers this is the remainder with the sign of the dividend.

theorem tmod_bounds (m : ℤ) {n : ℤ} (hn : n ≠ 0) : |m.tmod n| < |n| ∧ 0 ≤ m * m.tmod n := by
  constructor
  · rw [Int.abs_eq_natAbs, Int.abs_eq_natAbs, Int.natAbs_tmod]
    exact_mod_cast Nat.mod_lt _ (Int.natAbs_pos.mpr hn)
  · rcases le_total 0 m with hm | hm
    · exact mul_nonneg hm (Int.tmod_nonneg n hm)
    · have hneg := Int.tmod_nonneg n (neg_nonneg.mpr hm)
      rw [Int.neg_tmod, neg_nonneg] at hneg
      exact mul_nonneg_of_nonpos_of_nonpos hm hneg

theorem Left.eq_tmod {m n : ℤ} {r : ℚ} (h : Left m n r) : r = m.tmod n := by
  obtain ⟨k, hk⟩ := h.multiple
  obtain ⟨i, rfl⟩ : ∃ i : ℤ, r = i := ⟨m - n * k, by push_cast; linarith⟩
  have hmul : m = i + n * k := by exact_mod_cast hk
  have hlt : |i| < |n| := by exact_mod_cast h.lt
  have hsign : 0 ≤ m * i := by exact_mod_cast h.sign
  have hn : n ≠ 0 := abs_pos.mp ((abs_nonneg i).trans_lt hlt)
  obtain ⟨hlt', hsign'⟩ := tmod_bounds m hn
  have hmul' := Int.tmod_add_mul_tdiv m n
  generalize m.tmod n = j at hlt' hsign' hmul' ⊢
  -- both have the sign of `m`, so they are nearer to each other than `n` is to zero
  have hnear : |i - j| < |n| := by
    rcases lt_trichotomy m 0 with hm | hm | hm
    · have := nonpos_of_mul_nonneg_right hsign hm
      have := nonpos_of_mul_nonneg_right hsign' hm
      rw [abs_of_nonpos (by omega)] at hlt hlt'
      exact abs_lt.mpr ⟨by omega, by omega⟩
    · -- without a sign each of them is a multiple of `n`, and then zero
      have hi : i = 0 := Int.eq_zero_of_abs_lt_dvd
        ((abs_dvd n i).mpr ⟨-k, by rw [mul_neg]; omega⟩) hlt
      have hj : j = 0 := Int.eq_zero_of_abs_lt_dvd
        ((abs_dvd n j).mpr ⟨-m.tdiv n, by rw [mul_neg]; omega⟩) hlt'
      rw [hi, hj, sub_zero, abs_zero]
      exact abs_pos.mpr hn
    · have := nonneg_of_mul_nonneg_right hsign hm
      have := nonneg_of_mul_nonneg_right hsign' hm
      rw [abs_of_nonneg (by omega)] at hlt hlt'
      exact abs_lt.mpr ⟨by omega, by omega⟩
  have hdvd : |n| ∣ i - j := (abs_dvd n _).mpr ⟨m.tdiv n - k, by linarith⟩
  exact_mod_cast sub_eq_zero.mp (Int.eq_zero_of_abs_lt_dvd hdvd hnear)

theorem value?_remainder {m n : ℤ} (hx : value? x = some (m : ℚ)) (hy : value? y = some (n : ℚ))
    (hn : n ≠ 0) : value? (remainder x y) = some (m.tmod n : ℚ) := by
  obtain ⟨r, hr, hleft⟩ := exists_remainder hx hy (by exact_mod_cast hn)
  rw [hr, hleft.eq_tmod]

end Remainder

end Reckon.Number
