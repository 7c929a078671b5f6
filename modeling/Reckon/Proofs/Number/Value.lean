import Reckon.Proofs.Number.Exact

namespace Reckon.Number

open Float.Model Float.Model.UnpackedFloat

def Exact.value? : Exact → Option ℚ
  | .finite negative m q => some (signed negative m * 2 ^ q)
  | .infinite _ => none
  | .undefined => none

-- The number that a finite float stands for.
def value? (x : Float) : Option ℚ := (exact x).value?

def unpackedValue? : UnpackedFloat → Option ℚ
  | .zero _ => some 0
  | .finite s m e _ => some (s.apply m * 2 ^ e)
  | .infinity _ => none
  | .notANumber => none

theorem value?_eq (x : Float) : value? x = unpackedValue? x.toModel.unpack := by
  rw [value?, exact_eq]
  cases x.toModel.unpack with
  | zero s => cases s <;> simp [Exact.value?, unpackedValue?, signed]
  | finite s m e hm => cases s <;> rfl
  | infinity s => rfl
  | notANumber => rfl

theorem isSome_value? (x : Float) : (value? x).isSome = true ↔ x.isFinite = true := by
  rw [value?_eq, isFinite_iff]
  cases x.toModel.unpack <;> simp_all [unpackedValue?]

theorem value?_zero : value? 0.0 = some 0 := by
  rw [value?_eq, unpack_zero, unpackedValue?]

theorem value?_one : value? 1.0 = some 1 := by
  rw [value?_eq, unpack_one, unpackedValue?]
  norm_num [Sign.apply]

-- The mantissa has 53 bits, or fewer with the least exponent of all.
structure Canonical (m : Nat) (e : Int) : Prop where
  lt : m < 2 ^ 53
  least : -1074 ≤ e
  full : 2 ^ 52 ≤ m ∨ e = -1074

theorem canonical_of_unpack {x : Float} {s : Sign} {m : Nat} {e : Int} {h : 0 < m}
    (hx : x.toModel.unpack = .finite s m e h) : Canonical m e := by
  obtain ⟨hlog, he⟩ := exponent_of_unpack hx
  refine ⟨(Nat.log2_lt h.ne').mp (by omega), by omega, ?_⟩
  by_cases hleast : e = -1074
  · exact .inr hleast
  · exact .inl ((Nat.le_log2 h.ne').mp (by omega))

-- A finite float is a zero, or a mantissa and an exponent with a sign.
inductive Form (x : Float) : ℚ → Prop
  | zero {s : Sign} : x.toModel.unpack = .zero s → Form x 0
  | finite {s : Sign} {m : Nat} {e : Int} {hm : 0 < m} : x.toModel.unpack = .finite s m e hm →
      Canonical m e → Form x (s.apply m * 2 ^ e)

theorem form_of_value {x : Float} {a : ℚ} (h : value? x = some a) : Form x a := by
  rw [value?_eq] at h
  cases hu : x.toModel.unpack with
  | zero s =>
    obtain rfl : 0 = a := by simpa [hu, unpackedValue?] using h
    exact .zero hu
  | finite s m e hm =>
    obtain rfl : (s.apply m : ℚ) * 2 ^ e = a := by simpa [hu, unpackedValue?] using h
    exact .finite hu (canonical_of_unpack hu)
  | infinity s => simp [hu, unpackedValue?] at h
  | notANumber => simp [hu, unpackedValue?] at h

theorem value_of_beq_zero {x : Float} (h : (x == 0.0) = true) : value? x = some 0 := by
  obtain ⟨s, hu⟩ := (beq_zero_iff x).mp h
  rw [value?_eq, hu, unpackedValue?]

theorem beq_zero_iff_value {x : Float} {a : ℚ} (h : value? x = some a) :
    (x == 0.0) = true ↔ a = 0 := by
  rw [beq_zero_iff]
  cases form_of_value h with
  | zero hu => simp [hu]
  | @finite s m e hm hu _ =>
    have hne : (m : ℚ) * 2 ^ e ≠ 0 := by positivity
    cases s <;> simpa [hu, Sign.apply] using hne

section Order

variable {m n : Nat} {e f : Int}

theorem Canonical.lt_of_exponent_lt (hm : Canonical m e) (hn : Canonical n f) (h : e < f) :
    (m : ℚ) * 2 ^ e < n * 2 ^ f := by
  have hfull : 2 ^ 52 ≤ n := hn.full.resolve_right (by have := hm.least; omega)
  calc (m : ℚ) * 2 ^ e < 2 ^ 53 * 2 ^ e := by
        have := hm.lt
        gcongr
        exact_mod_cast this
    _ = 2 ^ 52 * 2 ^ (e + 1) := by rw [zpow_add_one₀ (by norm_num)]; ring
    _ ≤ 2 ^ 52 * 2 ^ f := by gcongr <;> norm_num; omega
    _ ≤ n * 2 ^ f := by
        gcongr
        exact_mod_cast hfull

-- Mantissas decide where the exponents are the same.
theorem Canonical.compare_eq (hm : Canonical m e) (hn : Canonical n f) :
    compare ((m : ℚ) * 2 ^ e) (n * 2 ^ f) = (compare e f).then (compare m n) := by
  rcases lt_trichotomy e f with h | rfl | h
  · rw [compare_lt_iff_lt.mpr h, compare_lt_iff_lt.mpr (hm.lt_of_exponent_lt hn h)]
    rfl
  · have hpos : (0 : ℚ) < 2 ^ e := by positivity
    rw [compare_eq_iff_eq.mpr rfl, Ordering.then]
    rcases lt_trichotomy m n with hmn | rfl | hmn
    · rw [compare_lt_iff_lt.mpr hmn, compare_lt_iff_lt]
      gcongr
    · rw [compare_eq_iff_eq.mpr rfl, compare_eq_iff_eq.mpr rfl]
    · rw [compare_gt_iff_gt.mpr hmn, compare_gt_iff_gt]
      gcongr
  · rw [compare_gt_iff_gt.mpr h, compare_gt_iff_gt.mpr (hn.lt_of_exponent_lt hm h)]
    rfl

end Order

theorem compare_neg_neg (a b : ℚ) : compare (-a) (-b) = (compare a b).swap := by
  rcases lt_trichotomy a b with h | rfl | h
  · rw [compare_lt_iff_lt.mpr h, compare_gt_iff_gt.mpr (neg_lt_neg h)]
    rfl
  · rw [compare_eq_iff_eq.mpr rfl, compare_eq_iff_eq.mpr rfl]
    rfl
  · rw [compare_gt_iff_gt.mpr h, compare_lt_iff_lt.mpr (neg_lt_neg h)]
    rfl

theorem lt_iff_unpack (x y : Float) :
    x < y ↔ x.toModel.unpack.lt y.toModel.unpack = true :=
  decide_eq_true_iff (p := x.toModel < y.toModel)

theorem le_iff_unpack (x y : Float) :
    x ≤ y ↔ x.toModel.unpack.le y.toModel.unpack = true :=
  decide_eq_true_iff (p := x.toModel ≤ y.toModel)

section Compare

variable {x y : Float} {a b : ℚ} (hx : value? x = some a) (hy : value? y = some b)
include hx hy

theorem compare_unpack : x.toModel.unpack.compare y.toModel.unpack = some (compare a b) := by
  have hpos : ∀ (m : Nat) (e : Int), 0 < m → (0 : ℚ) < m * 2 ^ e := fun m e hm => by positivity
  cases form_of_value hx with
  | @zero s hux =>
    cases form_of_value hy with
    | @zero t huy =>
      rw [hux, huy, compare_eq_iff_eq.mpr rfl]
      rfl
    | @finite t n f hn huy hcy =>
      have hb := hpos n f hn
      rw [hux, huy]
      cases t with
      | positive =>
        rw [Sign.apply, Int.cast_natCast, compare_lt_iff_lt.mpr hb]
        rfl
      | negative =>
        have hneg : (0 : ℚ) > -(n * 2 ^ f) := neg_lt_zero.mpr hb
        rw [Sign.apply, Int.cast_neg, Int.cast_natCast, neg_mul, compare_gt_iff_gt.mpr hneg]
        rfl
  | @finite s m e hm hux hcx =>
    have ha := hpos m e hm
    cases form_of_value hy with
    | @zero t huy =>
      rw [hux, huy]
      cases s with
      | positive =>
        rw [Sign.apply, Int.cast_natCast, compare_gt_iff_gt.mpr ha]
        rfl
      | negative =>
        rw [Sign.apply, Int.cast_neg, Int.cast_natCast, neg_mul,
          compare_lt_iff_lt.mpr (neg_lt_zero.mpr ha)]
        rfl
    | @finite t n f hn huy hcy =>
      have hb := hpos n f hn
      have heq := hcx.compare_eq hcy
      rw [hux, huy]
      cases s <;> cases t
      all_goals simp only [Sign.apply, Int.cast_neg, Int.cast_natCast, neg_mul]
      · rw [compare_neg_neg, heq]
        rfl
      · rw [compare_lt_iff_lt.mpr ((neg_lt_zero.mpr ha).trans hb)]
        rfl
      · rw [compare_gt_iff_gt.mpr ((neg_lt_zero.mpr hb).trans ha)]
        rfl
      · rw [heq]
        rfl

theorem lt_iff_value : x < y ↔ a < b := by
  rw [lt_iff_unpack, UnpackedFloat.lt, compare_unpack hx hy, beq_iff_eq, Option.some_inj,
    compare_lt_iff_lt]

theorem le_iff_value : x ≤ y ↔ a ≤ b := by
  rw [le_iff_unpack, UnpackedFloat.le, compare_unpack hx hy, Option.any_some, ← compare_le_iff_le,
    Ordering.isLE_iff_ne_gt]

end Compare

-- What lies between finite floats is finite.
theorem exists_value_of_between {x lo hi : Float} {a b : ℚ} (hlo : value? lo = some a)
    (hhi : value? hi = some b) (hx : lo ≤ x ∧ x < hi) : ∃ v, value? x = some v := by
  obtain ⟨hle, hlt⟩ := hx
  rw [le_iff_unpack] at hle
  rw [lt_iff_unpack] at hlt
  rw [value?_eq] at hlo hhi ⊢
  cases hu : x.toModel.unpack with
  | zero s => exact ⟨0, rfl⟩
  | finite s m e hm => exact ⟨_, rfl⟩
  | notANumber => simp [hu, UnpackedFloat.lt, UnpackedFloat.compare] at hlt
  | infinity s =>
    rw [hu] at hle hlt
    cases s with
    | positive =>
      cases hhu : hi.toModel.unpack <;>
        simp_all [unpackedValue?, UnpackedFloat.lt, UnpackedFloat.compare]
    | negative =>
      cases hlu : lo.toModel.unpack <;>
        simp_all [unpackedValue?, UnpackedFloat.le, UnpackedFloat.compare]

section Roundings

theorem value_eq_ratio (negative : Bool) (m : Nat) (q : Int) :
    (signed negative m : ℚ) * 2 ^ q =
      (signed negative (ratio m q).1 : ℚ) / ((ratio m q).2 : ℕ) := by
  have hratio : (m : ℚ) * 2 ^ q = (ratio m q).1 / (ratio m q).2 := by
    simp only [ratio, Nat.cast_mul]
    rcases le_total 0 q with hq | hq
    · obtain ⟨k, rfl⟩ := Int.eq_ofNat_of_zero_le hq
      simp
    · obtain ⟨k, hk⟩ := Int.eq_ofNat_of_zero_le (neg_nonneg.mpr hq)
      obtain rfl : q = -k := by omega
      simp [div_eq_mul_inv]
  cases negative
  · simpa [signed] using hratio
  · simp only [signed, if_true, Int.cast_neg, Int.cast_natCast, neg_mul, neg_div, hratio]

variable {x : Float} {n : Int}

theorem floor_exact : (exact x).floor = .ok n ↔ (value? x).map Int.floor = some n := by
  rw [value?]
  have hinfinite : ∀ s, (Exact.infinite s).floor = .error .infinite := fun _ => rfl
  have hundefined : Exact.undefined.floor = .error .undefined := rfl
  cases exact x with
  | infinite s => simp [hinfinite, Exact.value?]
  | undefined => simp [hundefined, Exact.value?]
  | finite negative m q =>
    have hfloor : (Exact.finite negative m q).floor =
        .ok ((signed negative (ratio m q).1).fdiv (ratio m q).2) := rfl
    rw [hfloor, Exact.value?, value_eq_ratio, Option.map_some, Rat.floor_intCast_div_natCast,
      Int.fdiv_eq_ediv_of_nonneg _ (Int.natCast_nonneg _)]
    simp

-- A finite float is a quotient with a sign.
theorem exists_ratio {v : ℚ} (hx : value? x = some v) : ∃ negative m q,
    exact x = .finite negative m q ∧ v = signed negative (ratio m q).1 / ((ratio m q).2 : ℕ) := by
  rw [value?] at hx
  cases hexact : exact x with
  | infinite s => simp [hexact, Exact.value?] at hx
  | undefined => simp [hexact, Exact.value?] at hx
  | finite negative m q =>
    rw [hexact, Exact.value?, Option.some_inj] at hx
    exact ⟨negative, m, q, rfl, by rw [← hx, value_eq_ratio]⟩

theorem exists_exact {v : ℚ} (h : value? x = some v) :
    ∃ negative m q, exact x = .finite negative m q ∧ v = signed negative m * 2 ^ q := by
  obtain ⟨negative, m, q, hexact, rfl⟩ := exists_ratio h
  exact ⟨negative, m, q, hexact, (value_eq_ratio negative m q).symm⟩

theorem exists_ratio_of_pos {v : ℚ} (hx : value? x = some v) (hv : 0 < v) : ∃ m q,
    exact x = .finite false m q ∧ 0 < m ∧ v = (ratio m q).1 / ((ratio m q).2 : ℕ) := by
  obtain ⟨negative, m, q, hexact, rfl⟩ := exists_ratio hx
  rw [← value_eq_ratio] at hv
  cases negative with
  | true =>
    have hneg : (0 : ℚ) ≤ m * 2 ^ q := by positivity
    rw [signed, if_pos rfl, Int.cast_neg, Int.cast_natCast, neg_mul] at hv
    linarith
  | false =>
    have hm : (0 : ℚ) < m := pos_of_mul_pos_left hv (by positivity)
    exact ⟨m, q, hexact, by exact_mod_cast hm, rfl⟩

theorem truncate_exact {v : ℚ} (hv : 0 ≤ v) (hx : value? x = some v) :
    (exact x).truncate = .ok ⌊v⌋ := by
  obtain ⟨negative, m, q, hexact, rfl⟩ := exists_ratio hx
  have htruncate : (Exact.finite negative m q).truncate =
      .ok (signed negative ((ratio m q).1 / (ratio m q).2)) := rfl
  have hden : 0 < (ratio m q).2 := Nat.pow_pos (by decide)
  rw [hexact, htruncate, Rat.floor_intCast_div_natCast]
  generalize (ratio m q).1 = num at hv ⊢
  generalize (ratio m q).2 = den at hv hden ⊢
  cases negative with
  | false => simp [signed]
  | true =>
    -- a number that is not below zero has a sign only if it is zero
    have hzero : num = 0 := by
      rw [signed, if_pos rfl, Int.cast_neg, Int.cast_natCast, neg_div, Left.nonneg_neg_iff,
        div_le_iff₀ (by exact_mod_cast hden), zero_mul] at hv
      exact Nat.le_zero.mp (by exact_mod_cast hv)
    simp [hzero, signed]

theorem ceil_exact {v : ℚ} (hx : value? x = some v) : (exact x).ceil = .ok ⌈v⌉ := by
  obtain ⟨negative, m, q, hexact, rfl⟩ := exists_ratio hx
  have hceil : (Exact.finite negative m q).ceil =
      .ok (-(signed (!negative) (ratio m q).1).fdiv (ratio m q).2) := rfl
  have hneg : (signed (!negative) (ratio m q).1 : ℚ) = -signed negative (ratio m q).1 := by
    cases negative <;> simp [signed]
  rw [hexact, hceil, Int.fdiv_eq_ediv_of_nonneg _ (Int.natCast_nonneg _),
    ← Rat.floor_intCast_div_natCast, hneg, neg_div, Int.floor_neg, neg_neg]

-- The whole number that is taken lies at most a half away.
theorem exists_round {v : ℚ} (hx : value? x = some v) :
    ∃ n : ℤ, (exact x).round = .ok n ∧ |v - n| ≤ 1 / 2 := by
  obtain ⟨negative, m, q, hexact, rfl⟩ := exists_ratio hx
  refine ⟨signed negative (roundDiv (ratio m q).1 (ratio m q).2), by rw [hexact]; rfl, ?_⟩
  have hden : 0 < (ratio m q).2 := Nat.pow_pos (by decide)
  obtain ⟨hlow, hhigh⟩ := roundDiv_near (ratio m q).1 (ratio m q).2 hden
  generalize (ratio m q).1 = num at hlow hhigh ⊢
  generalize (ratio m q).2 = den at hden hlow hhigh ⊢
  generalize roundDiv num den = k at hlow hhigh ⊢
  have hpos : (0 : ℚ) < den := by exact_mod_cast hden
  have hlow' : (2 : ℚ) * num ≤ (2 * k + 1) * den := by exact_mod_cast hlow
  have hhigh' : (2 : ℚ) * k * den ≤ 2 * num + den := by exact_mod_cast hhigh
  have hnear : |(num : ℚ) / den - k| ≤ 1 / 2 := by
    rw [abs_le, le_sub_iff_add_le, sub_le_iff_le_add, le_div_iff₀ hpos, div_le_iff₀ hpos]
    constructor <;> linarith
  cases negative with
  | false => simpa [signed] using hnear
  | true =>
    rw [signed, signed, if_pos rfl, if_pos rfl, Int.cast_neg, Int.cast_neg, Int.cast_natCast,
      Int.cast_natCast, neg_div, ← neg_sub', abs_neg]
    exact hnear

end Roundings

-- Powers of two, which are made from their bits

theorem value?_ofBits {n : Nat} (h : n < 2 ^ 52) :
    value? (Float.ofBits (UInt64.ofNat n)) = some ((n : ℚ) * 2 ^ (-1074 : ℤ)) := by
  rw [value?, exact_ofBits (by omega), Nat.div_eq_of_lt h, if_pos rfl, Exact.value?, signed,
    if_neg (by decide), Int.cast_natCast]

theorem value?_powerOfTwo {q : Int} (hlow : -1074 ≤ q) (hhigh : q ≤ 1023) :
    value? (powerOfTwo q) = some (2 ^ q) := by
  unfold powerOfTwo
  split_ifs with hnormal
  · obtain ⟨k, hk⟩ := Int.eq_ofNat_of_zero_le (by omega : 0 ≤ q + 1023)
    obtain rfl : q = k - 1023 := by omega
    have hfield : k * Nat.pow 2 52 / 2 ^ 52 = k := Nat.mul_div_cancel _ (by norm_num)
    have hfraction : k * Nat.pow 2 52 % 2 ^ 52 = 0 := Nat.mul_mod_left _ _
    rw [hk, Int.toNat_natCast, value?, exact_ofBits (by rw [Nat.pow_eq]; omega), hfield, hfraction,
      if_neg (by omega), Exact.value?, signed, if_neg (by decide), Option.some_inj,
      show (k : ℤ) - 1023 = 52 + (k - 1075) by ring, zpow_add₀ (by norm_num)]
    norm_num
  · obtain ⟨k, hk⟩ := Int.eq_ofNat_of_zero_le (by omega : 0 ≤ q + 1074)
    obtain rfl : q = k + -1074 := by omega
    have hsmall : Nat.pow 2 k < 2 ^ 52 := Nat.pow_lt_pow_right (by decide) (by omega)
    rw [hk, Int.toNat_natCast, value?_ofBits hsmall, zpow_add₀ (by norm_num), zpow_natCast,
      Nat.pow_eq, Nat.cast_pow, Nat.cast_ofNat]

end Reckon.Number
