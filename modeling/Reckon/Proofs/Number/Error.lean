import Reckon.Proofs.Number.Scientific

namespace Reckon.Number

section Error

variable {v r : ℚ} {x : Float}

-- The numbers that floats stand for.
structure InRange (q : ℚ) : Prop where
  representable : Representable q
  lt_ceiling : |q| < ceiling

theorem inRange_of_value (h : value? x = some r) : InRange r :=
  ⟨representable_of_value h, abs_lt_ceiling h⟩

theorem lt_ceiling_of_unit {e : ℤ} (he : e ≤ 970) (hv : |v| ≤ 2 ^ 53 * 2 ^ e) : |v| < ceiling := by
  refine lt_ceiling_of_le (hv.trans ?_)
  calc (2 : ℚ) ^ 53 * 2 ^ e ≤ 2 ^ 53 * 2 ^ (970 : ℤ) := by
        gcongr
        norm_num
    _ = 2 ^ (1023 : ℤ) := by
        rw [show (1023 : ℤ) = 53 + 970 by rfl, zpow_add₀ (by norm_num)]
        norm_num

theorem inRange_of_le {n e : ℤ} (hn : |n| ≤ 2 ^ 53) (he : -1074 ≤ e) (he' : e ≤ 970) :
    InRange (n * 2 ^ e) := by
  refine ⟨representable_of_le hn he, lt_ceiling_of_unit he' ?_⟩
  rw [abs_mul, abs_of_pos (by positivity : (0 : ℚ) < 2 ^ e)]
  gcongr
  exact_mod_cast hn

-- The least number above zero.
theorem Representable.least_le {q : ℚ} (h : Representable q) (hq : 0 < q) :
    2 ^ (-1074 : ℤ) ≤ q := by
  have hpos : (0 : ℚ) < 2 ^ (-1074 : ℤ) := by positivity
  obtain ⟨n, rfl⟩ := h.exists_multiple
  have hn : (0 : ℤ) < n := by exact_mod_cast pos_of_mul_pos_left hq hpos.le
  exact le_mul_of_one_le_left hpos.le (by exact_mod_cast hn)

-- What lies between floats is rounded to a float between them.
theorem Rounds.exists_between (h : Rounds v x) {a b : ℚ} (ha : InRange a) (hb : InRange b)
    (hav : a ≤ v) (hvb : v ≤ b) : ∃ r, value? x = some r ∧ a ≤ r ∧ r ≤ b := by
  obtain ⟨r, hx⟩ := h.exists_value
    ((abs_le_max_abs_abs hav hvb).trans_lt (max_lt ha.lt_ceiling hb.lt_ceiling))
  exact ⟨r, hx, h.ge hx ha.representable hav, h.le hx hb.representable hvb⟩

theorem Rounds.abs_lt_of_abs_lt (h : Rounds v x) (hx : value? x = some r) {q : ℚ}
    (hq : Representable q) (hr : |r| < q) : |v| < q := by
  obtain ⟨hlow, hhigh⟩ := abs_lt.mp hr
  refine abs_lt.mpr ⟨?_, ?_⟩
  · by_contra hle
    exact hlow.not_ge (h.le hx hq.neg (not_lt.mp hle))
  · by_contra hle
    exact hhigh.not_ge (h.ge hx hq (not_lt.mp hle))

theorem Rounds.le_abs_of_le_abs (h : Rounds v x) (hx : value? x = some r) {q : ℚ}
    (hq : Representable q) (hv : q ≤ |v|) : q ≤ |r| :=
  not_lt.mp (mt (h.abs_lt_of_abs_lt hx hq) (not_lt.mpr hv))

theorem eq_zero_of_ofInt {n : Int} (hn : value? (Float.ofInt n) = some r) (hr : |r| < 1) :
    n = 0 := by
  have hlt := (rounds_ofInt n).abs_lt_of_abs_lt hn (representable_of_value value?_one) hr
  exact Int.abs_lt_one_iff.mp (by exact_mod_cast hlt)

-- Far from zero, the last place of 53 bits is a large unit.
theorem Representable.exists_multiple_of_le {q : ℚ} (h : Representable q) {e : ℤ}
    (hq : 2 ^ 53 * 2 ^ e ≤ |q|) : ∃ n : ℤ, q = n * 2 ^ (e + 1) := by
  obtain ⟨n, f, hn, -, rfl⟩ := h
  have hef : e < f := by
    by_contra hle
    have hn' : |(n : ℚ)| < 2 ^ 53 := by exact_mod_cast hn
    rw [abs_mul, abs_of_pos (by positivity : (0 : ℚ) < 2 ^ f)] at hq
    refine hq.not_gt ?_
    calc |(n : ℚ)| * 2 ^ f < 2 ^ 53 * 2 ^ f := by gcongr
      _ ≤ 2 ^ 53 * 2 ^ e := by
          gcongr
          · norm_num
          · omega
  obtain ⟨k, rfl⟩ : ∃ k : Nat, f = e + 1 + k := ⟨(f - (e + 1)).toNat, by omega⟩
  exact ⟨n * 2 ^ k, mul_two_zpow_add n (e + 1) k⟩

-- A number of up to 53 bits before the last place of an exponent is within half a unit of it.
theorem Rounds.near_unit (h : Rounds v x) (hx : value? x = some r) {e : ℤ} (he : -1074 ≤ e)
    (hv : |v| ≤ 2 ^ 53 * 2 ^ e) : |v - r| ≤ 2 ^ e / 2 := by
  have hpos : (0 : ℚ) < 2 ^ e := by positivity
  have hround := abs_sub_round (v / 2 ^ e)
  have hn : |round (v / 2 ^ e)| ≤ 2 ^ 53 := by
    have hquotient : |v / 2 ^ e| ≤ 2 ^ 53 := by rwa [abs_div, abs_of_pos hpos, div_le_iff₀ hpos]
    have hlt : |(round (v / 2 ^ e) : ℚ)| < 2 ^ 53 + 1 := by
      have htriangle := abs_sub_abs_le_abs_sub (round (v / 2 ^ e) : ℚ) (v / 2 ^ e)
      rw [abs_sub_comm] at htriangle
      linarith
    exact Int.lt_add_one_iff.mp (by exact_mod_cast hlt)
  refine (h.near hx (representable_of_le hn he)).trans ?_
  rw [show v - round (v / 2 ^ e) * 2 ^ e = (v / 2 ^ e - round (v / 2 ^ e)) * 2 ^ e by field_simp,
    abs_mul, abs_of_pos hpos]
  nlinarith

theorem Rounds.exists_near_unit (h : Rounds v x) {e : ℤ} (he : -1074 ≤ e) (he' : e ≤ 970)
    (hv : |v| ≤ 2 ^ 53 * 2 ^ e) : ∃ r, value? x = some r ∧ |v - r| ≤ 2 ^ e / 2 := by
  obtain ⟨r, hx⟩ := h.exists_value (lt_ceiling_of_unit he' hv)
  exact ⟨r, hx, h.near_unit hx he hv⟩

-- The error is half a unit of the last of 53 bits at most, or half the least float.
theorem Rounds.error (h : Rounds v x) (hx : value? x = some r) :
    |v - r| ≤ |v| / 2 ^ 53 + 2 ^ (-1075 : ℤ) := by
  have hleast : (0 : ℚ) < 2 ^ (-1075 : ℤ) := by positivity
  rcases eq_or_ne v 0 with rfl | hv
  · have hnear := h.near hx representable_zero
    rw [sub_self, abs_zero] at hnear
    rw [abs_zero, zero_div, zero_add]
    exact hnear.trans hleast.le
  · have habs : 0 < |v| := abs_pos.mpr hv
    have hlow := Int.zpow_log_le_self (b := 2) (by norm_num) habs
    have hhigh := Int.lt_zpow_succ_log_self (b := 2) (by norm_num) |v|
    push_cast at hlow hhigh
    generalize Int.log 2 |v| = k at hlow hhigh
    rcases le_total (-1074) (k - 52) with hk | hk
    · have hunit := h.near_unit hx hk (by
        refine hhigh.le.trans_eq ?_
        rw [show (k + 1 : ℤ) = 53 + (k - 52) by ring, zpow_add₀ (by norm_num)]
        norm_num)
      have hscale : (2 : ℚ) ^ (k - 52) / 2 = 2 ^ k / 2 ^ 53 := by
        rw [zpow_sub₀ (by norm_num)]
        norm_num
        ring
      rw [hscale] at hunit
      have hle : (2 : ℚ) ^ k / 2 ^ 53 ≤ |v| / 2 ^ 53 := by gcongr
      linarith
    · have hunit := h.near_unit hx (le_refl _) (by
        refine hhigh.le.trans ?_
        rw [show (2 : ℚ) ^ 53 * 2 ^ (-1074 : ℤ) = 2 ^ (-1021 : ℤ) by
          rw [show (-1021 : ℤ) = 53 + -1074 by rfl, zpow_add₀ (by norm_num)]; norm_num]
        exact zpow_le_zpow_right₀ (by norm_num) (by omega))
      rw [show (2 : ℚ) ^ (-1074 : ℤ) / 2 = 2 ^ (-1075 : ℤ) by
        rw [show (-1074 : ℤ) = -1075 + 1 by rfl, zpow_add_one₀ (by norm_num)]; ring] at hunit
      have : 0 ≤ |v| / 2 ^ 53 := by positivity
      linarith

end Error

open Float.Model Float.Model.UnpackedFloat

section Compare

variable {x y : Float} {a b v : ℚ}

theorem le_of_lt_float (h : x < y) : x ≤ y := by
  rw [lt_iff_unpack, UnpackedFloat.lt] at h
  rw [le_iff_unpack, UnpackedFloat.le, eq_of_beq h]
  rfl

theorem lt_of_negative_infinite (hx : exact x = .infinite true) (hy : value? y = some b) :
    x < y := by
  obtain ⟨t, hu, ht⟩ := unpack_of_infinite hx
  obtain rfl : t = .negative := (eq_of_beq ht.symm)
  rw [lt_iff_unpack, hu]
  cases form_of_value hy with
    | zero huy => rw [huy]; rfl
    | finite huy _ => rw [huy]; rfl

-- What is rounded stays on its side of a float.

theorem Rounds.le_of_le (h : Rounds v x) (hy : value? y = some b) (hle : v ≤ b) : x ≤ y := by
  cases h with
  | @nearest r hx hnear =>
    exact (le_iff_value hx hy).mpr
      ((Rounds.nearest hx hnear).le hx (representable_of_value hy) hle)
  | overflow hinfinite hlarge =>
    have hv : v < 0 := by
      by_contra hv
      rw [abs_of_nonneg (not_lt.mp hv)] at hlarge
      exact absurd (hlarge.trans (hle.trans (le_abs_self b))) (not_le.mpr (abs_lt_ceiling hy))
    rw [decide_eq_true hv] at hinfinite
    exact le_of_lt_float (lt_of_negative_infinite hinfinite hy)

theorem Rounds.ge_of_ge (h : Rounds v x) (hy : value? y = some b) (hle : b ≤ v) : y ≤ x := by
  cases h with
  | @nearest r hx hnear =>
    exact (le_iff_value hy hx).mpr
      ((Rounds.nearest hx hnear).ge hx (representable_of_value hy) hle)
  | overflow hinfinite hlarge =>
    have hv : ¬v < 0 := by
      intro hv
      rw [abs_of_neg hv] at hlarge
      exact absurd (hlarge.trans ((neg_le_neg hle).trans (neg_le_abs b)))
        (not_le.mpr (abs_lt_ceiling hy))
    rw [decide_eq_false hv] at hinfinite
    exact le_of_lt_float (lt_of_infinite hy hinfinite)

-- A number apart from zero has one float.
theorem eq_of_value (hx : value? x = some a) (hy : value? y = some a) (ha : a ≠ 0) : x = y := by
  have hunpack : x.toModel.unpack = y.toModel.unpack := by
    have hbeq : x.toModel.unpack.beq y.toModel.unpack = true := by
      rw [UnpackedFloat.beq, compare_unpack hx hy, compare_eq_iff_eq.mpr rfl]
      rfl
    have hnonzero : ∀ s, x.toModel.unpack ≠ .zero s := by
      intro s hs
      rw [value?_eq, hs, unpackedValue?, Option.some_inj] at hx
      exact ha hx.symm
    obtain ⟨-, -, h | ⟨h, -⟩ | ⟨h, -⟩⟩ := (beq_iff_ne_notANumber_and_eq ..).mp hbeq
    · exact h
    · exact absurd h (hnonzero _)
    · exact absurd h (hnonzero _)
  rw [← pack_unpack_float x, hunpack, pack_unpack_float]

end Compare
end Reckon.Number
