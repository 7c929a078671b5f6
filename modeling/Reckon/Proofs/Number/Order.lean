import Reckon.Proofs.Number.Error
import Reckon.Proofs.Number.Undefined

namespace Reckon.Number

open Float.Model Float.Model.UnpackedFloat

-- Where the infinity of a sign stands: at a power of two that no finite float reaches, so that
-- floats can be compared as rationals are.
def outermost (s : Sign) : ℚ := s.apply 1 * 2 ^ (1024 : ℤ)

theorem outermost_positive : outermost .positive = 2 ^ (1024 : ℤ) := by
  simp [outermost, Sign.apply]

theorem outermost_negative : outermost .negative = -2 ^ (1024 : ℤ) := by
  simp [outermost, Sign.apply]

theorem abs_outermost (s : Sign) : |outermost s| = 2 ^ (1024 : ℤ) :=
  abs_apply_mul s (by positivity)

-- Where a float stands among the others, unless it is no number.
def rank? (x : Float) : Option ℚ :=
  match x.toModel.unpack with
  | .infinity s => some (outermost s)
  | u => unpackedValue? u

section Rank

variable {x y : Float} {a b : ℚ} {s t : Sign}

theorem rank?_of_value (h : value? x = some a) : rank? x = some a := by
  rw [value?_eq] at h
  rw [rank?]
  cases hu : x.toModel.unpack with
  | infinity s => simp [hu, unpackedValue?] at h
  | _ => rwa [hu] at h

theorem rank?_of_infinity (h : x.toModel.unpack = .infinity s) :
    rank? x = some (outermost s) := by
  simp only [rank?, h]

theorem rank?_of_infinite {negative : Bool} (h : exact x = .infinite negative) :
    rank? x = some (if negative then -2 ^ (1024 : ℤ) else 2 ^ (1024 : ℤ)) := by
  obtain ⟨s, hu, rfl⟩ := unpack_of_infinite h
  rw [rank?_of_infinity hu]
  cases s with
  | positive => exact congrArg some outermost_positive
  | negative => exact congrArg some outermost_negative

theorem rank?_eq_none : rank? x = none ↔ x.isNaN = true := by
  rw [isNaN_iff, rank?]
  cases x.toModel.unpack <;> simp [unpackedValue?]

theorem exists_rank (h : ¬x.isNaN = true) : ∃ a, rank? x = some a :=
  Option.ne_none_iff_exists'.mp (mt rank?_eq_none.mp h)

-- A float with a rank is finite or an infinity.
theorem rank?_cases (h : rank? x = some a) : value? x = some a ∨
    ∃ s, x.toModel.unpack = .infinity s ∧ a = outermost s := by
  rw [rank?] at h
  rw [value?_eq]
  cases hu : x.toModel.unpack with
  | infinity s =>
    rw [hu] at h
    exact .inr ⟨s, rfl, (Option.some_inj.mp h).symm⟩
  | _ =>
    rw [hu] at h
    exact .inl h

theorem abs_lt_of_value (h : value? x = some a) : |a| < 2 ^ (1024 : ℤ) :=
  (abs_lt_ceiling h).trans_le ceiling_le_two_zpow

theorem abs_rank_le (h : rank? x = some a) : |a| ≤ 2 ^ (1024 : ℤ) := by
  rcases rank?_cases h with h | ⟨s, -, rfl⟩
  · exact (abs_lt_of_value h).le
  · exact (abs_outermost s).le

theorem compare_infinity (h : value? x = some a) (t : Sign) :
    x.toModel.unpack.compare (.infinity t) = some (compare a (outermost t)) ∧
    (UnpackedFloat.infinity t).compare x.toModel.unpack = some (compare (outermost t) a) := by
  obtain ⟨hlow, hhigh⟩ := abs_lt.mp (abs_lt_of_value h)
  cases t with
  | positive =>
    rw [outermost_positive, compare_lt_iff_lt.mpr hhigh, compare_gt_iff_gt.mpr hhigh]
    cases form_of_value h with
    | zero hu => rw [hu]; exact ⟨rfl, rfl⟩
    | finite hu _ => rw [hu]; exact ⟨rfl, rfl⟩
  | negative =>
    rw [outermost_negative, compare_gt_iff_gt.mpr hlow, compare_lt_iff_lt.mpr hlow]
    cases form_of_value h with
    | zero hu => rw [hu]; exact ⟨rfl, rfl⟩
    | finite hu _ => rw [hu]; exact ⟨rfl, rfl⟩

theorem compare_outermost (s t : Sign) : compare (outermost s) (outermost t) = compare s t := by
  have hpos : (0 : ℚ) < 2 ^ (1024 : ℤ) := by positivity
  have hlt : -2 ^ (1024 : ℤ) < (2 : ℚ) ^ (1024 : ℤ) := neg_lt_self hpos
  cases s <;> cases t <;> simp only [outermost_positive, outermost_negative]
  · rw [compare_eq_iff_eq.mpr rfl]
    rfl
  · rw [compare_lt_iff_lt.mpr hlt]
    rfl
  · rw [compare_gt_iff_gt.mpr hlt]
    rfl
  · rw [compare_eq_iff_eq.mpr rfl]
    rfl

theorem compare_rank (hx : rank? x = some a) (hy : rank? y = some b) :
    x.toModel.unpack.compare y.toModel.unpack = some (compare a b) := by
  rcases rank?_cases hx with hx | ⟨s, hux, rfl⟩ <;> rcases rank?_cases hy with hy | ⟨t, huy, rfl⟩
  · exact compare_unpack hx hy
  · rw [huy]
    exact (compare_infinity hx t).1
  · rw [hux]
    exact (compare_infinity hy s).2
  · rw [hux, huy, compare_outermost]
    rfl

theorem lt_iff_rank (hx : rank? x = some a) (hy : rank? y = some b) : x < y ↔ a < b := by
  rw [lt_iff_unpack, UnpackedFloat.lt, compare_rank hx hy, beq_iff_eq, Option.some_inj,
    compare_lt_iff_lt]

theorem le_iff_rank (hx : rank? x = some a) (hy : rank? y = some b) : x ≤ y ↔ a ≤ b := by
  rw [le_iff_unpack, UnpackedFloat.le, compare_rank hx hy, Option.any_some, ← compare_le_iff_le,
    Ordering.isLE_iff_ne_gt]

theorem beq_iff_rank (hx : rank? x = some a) (hy : rank? y = some b) :
    (x == y) = true ↔ a = b := by
  have hbeq : (x == y) = x.toModel.unpack.beq y.toModel.unpack := rfl
  rw [hbeq, UnpackedFloat.beq, compare_rank hx hy, beq_iff_eq, Option.some_inj,
    compare_eq_iff_eq]

theorem not_isNaN_of_lt (h : x < y) : ¬x.isNaN = true ∧ ¬y.isNaN = true := by
  rw [lt_iff_unpack, UnpackedFloat.lt] at h
  rw [isNaN_iff, isNaN_iff]
  constructor
  · intro hx
    simp [hx, UnpackedFloat.compare] at h
  · intro hy
    rw [hy] at h
    cases hx : x.toModel.unpack <;> simp [hx, UnpackedFloat.compare] at h

-- Floats are in one of both orders or the same, unless one of them is no number.
theorem lt_iff_of_not_lt (h : ¬y < x) :
    x < y ↔ ¬x.isNaN = true ∧ ¬y.isNaN = true ∧ (x == y) = false := by
  constructor
  · intro hlt
    obtain ⟨hnx, hny⟩ := not_isNaN_of_lt hlt
    obtain ⟨a, hx⟩ := exists_rank hnx
    obtain ⟨b, hy⟩ := exists_rank hny
    rw [lt_iff_rank hx hy] at hlt
    refine ⟨hnx, hny, Bool.eq_false_iff.mpr ?_⟩
    rw [Ne, beq_iff_rank hx hy]
    exact hlt.ne
  · rintro ⟨hnx, hny, hne⟩
    obtain ⟨a, hx⟩ := exists_rank hnx
    obtain ⟨b, hy⟩ := exists_rank hny
    rw [lt_iff_rank hy hx, not_lt] at h
    rw [Bool.eq_false_iff, Ne, beq_iff_rank hx hy] at hne
    exact (lt_iff_rank hx hy).mpr (h.lt_of_ne hne)

end Rank

theorem two_zpow_eq_ceiling_add : (2 : ℚ) ^ (1024 : ℤ) = ceiling + 2 ^ (970 : ℤ) := by
  rw [ceiling, show (1024 : ℤ) = 54 + 970 by rfl, zpow_add₀ (by norm_num)]
  generalize (2 : ℚ) ^ (970 : ℤ) = unit
  norm_num
  ring

-- What is rounded to a finite float is in the range of floats, or at its bound.

theorem Rounds.le_ceiling {v r : ℚ} {x : Float} (h : Rounds v x) (hx : value? x = some r) :
    v ≤ ceiling := by
  have hnext : Representable (2 ^ (1024 : ℤ)) := ⟨1, 1024, by norm_num, by norm_num, by norm_num⟩
  have hlargest := (abs_le.mp (abs_le_largest hx)).2
  have hhalf := largest_add_half_unit
  have hunit := two_zpow_eq_ceiling_add
  have hpos : (0 : ℚ) < 2 ^ (970 : ℤ) := by positivity
  generalize (2 : ℚ) ^ (970 : ℤ) = half at hhalf hunit hpos
  generalize (2 : ℚ) ^ (1024 : ℤ) = next at hnext hunit
  have hlt : v < next := by
    by_contra hle
    linarith [h.ge hx hnext (not_lt.mp hle)]
  by_contra hlarge
  -- the next power of two is nearer than any float
  have hnear := h.near hx hnext
  rw [abs_of_nonneg (by linarith), abs_of_neg (by linarith)] at hnear
  linarith

theorem Rounds.abs_le_ceiling {v r : ℚ} {x : Float} (h : Rounds v x) (hx : value? x = some r) :
    |v| ≤ ceiling :=
  abs_le.mpr ⟨neg_le.mp (h.neg.le_ceiling (value?_neg hx)), h.le_ceiling hx⟩

section Sums

variable {v w r s : ℚ} {x y d : Float} {a b : ℚ}

theorem Rounds.rank_le (h : Rounds v x) (h' : Rounds w y) (hlt : v < w) (hx : rank? x = some r)
    (hy : rank? y = some s) : r ≤ s := by
  obtain ⟨hrlow, hrhigh⟩ := abs_le.mp (abs_rank_le hx)
  obtain ⟨hslow, hshigh⟩ := abs_le.mp (abs_rank_le hy)
  cases h with
  | @nearest r' hx' hnear =>
    obtain rfl := Option.some_inj.mp ((rank?_of_value hx').symm.trans hx)
    cases h' with
    | @nearest s' hy' hnear' =>
      obtain rfl := Option.some_inj.mp ((rank?_of_value hy').symm.trans hy)
      exact Rounds.mono (.nearest hx' hnear) (.nearest hy' hnear') hx' hy' hlt
    | overflow hinfinite hlarge =>
      by_cases hw : w < 0
      · -- then `v` would be further out than `w`, and could not be rounded to a finite float
        have hceiling := (Rounds.nearest hx' hnear).abs_le_ceiling hx'
        rw [abs_of_neg hw] at hlarge
        rw [abs_of_neg (hlt.trans hw)] at hceiling
        linarith
      · rw [rank?_of_infinite hinfinite, decide_eq_false hw, Option.some_inj] at hy
        exact hrhigh.trans_eq hy
  | overflow hinfinite hlarge =>
    by_cases hv : v < 0
    · rw [rank?_of_infinite hinfinite, decide_eq_true hv, Option.some_inj] at hx
      exact hx.symm.trans_le hslow
    · cases h' with
      | @nearest s' hy' hnear' =>
        have hceiling := (Rounds.nearest hy' hnear').abs_le_ceiling hy'
        rw [abs_of_nonneg (not_lt.mp hv)] at hlarge
        linarith [le_abs_self w]
      | overflow hinfinite' hlarge' =>
        have hw : ¬w < 0 := not_lt.mpr ((not_lt.mp hv).trans hlt.le)
        rw [rank?_of_infinite hinfinite', decide_eq_false hw, Option.some_inj] at hy
        exact hrhigh.trans_eq hy

-- An infinity in a sum remains, unless the other one cancels it.
theorem unpack_add_infinity {t : Sign} (hu : x.toModel.unpack = .infinity t ∨
    d.toModel.unpack = .infinity t) (h : ¬(x + d).isNaN = true) :
    (x + d).toModel.unpack = .infinity t := by
  have hnan : (Float.Model.pack .notANumber).unpack = .notANumber :=
    (isNaN_iff _).mp isNaN_pack_notANumber
  rw [isNaN_iff, add_eq_pack] at h
  rw [add_eq_pack]
  dsimp only at h ⊢
  rcases hu with hu | hu
  · rw [hu] at h ⊢
    generalize d.toModel.unpack = v at h ⊢
    cases v with
    | notANumber => exact absurd hnan h
    | infinity s =>
      by_cases hst : t = s
      · simpa [UnpackedFloat.add, hst] using unpack_pack_infinity s
      · simp [UnpackedFloat.add, hst, hnan] at h
    | _ => exact unpack_pack_infinity t
  · rw [hu] at h ⊢
    generalize x.toModel.unpack = u at h ⊢
    cases u with
    | notANumber => exact absurd hnan h
    | infinity s =>
      by_cases hst : s = t
      · simpa [UnpackedFloat.add, hst] using unpack_pack_infinity t
      · simp [UnpackedFloat.add, hst, hnan] at h
    | _ => exact unpack_pack_infinity t

theorem rank?_add_of_infinity {t : Sign} (hu : x.toModel.unpack = .infinity t ∨
    d.toModel.unpack = .infinity t) (hsum : rank? (x + d) = some r) : r = outermost t := by
  have hnan : ¬(x + d).isNaN = true := by rw [← rank?_eq_none, hsum]; nofun
  rw [rank?_of_infinity (unpack_add_infinity hu hnan)] at hsum
  exact (Option.some_inj.mp hsum).symm

-- Equal floats have equal sums, though they may be zeros of both signs.
theorem rank?_add_congr (hx : value? x = some a) (hy : value? y = some a)
    {c : ℚ} (hd : value? d = some c) : rank? (x + d) = rank? (y + d) := by
  by_cases ha : a = 0
  · have hsum : ∀ z : Float, value? z = some 0 → value? (z + d) = some c := fun z hz => by
      have hrounds := rounds_add hz hd
      rw [zero_add] at hrounds
      exact hrounds.value_eq (representable_of_value hd) (abs_lt_ceiling hd)
    rw [rank?_of_value (hsum x (ha ▸ hx)), rank?_of_value (hsum y (ha ▸ hy))]
  · rw [eq_of_value hx hy ha]

theorem rank?_add_le_rank?_add (hx : rank? x = some a) (hy : rank? y = some b) (hle : a ≤ b)
    (hsum : rank? (x + d) = some r) (hsum' : rank? (y + d) = some s) : r ≤ s := by
  obtain ⟨hrlow, hrhigh⟩ := abs_le.mp (abs_rank_le hsum)
  obtain ⟨hslow, hshigh⟩ := abs_le.mp (abs_rank_le hsum')
  have hnan : ¬d.isNaN = true := fun h => by
    rw [rank?_eq_none.mpr (isNaN_add (.inr h))] at hsum
    cases hsum
  obtain ⟨c, hd⟩ := exists_rank hnan
  rcases rank?_cases hd with hd | ⟨t, hud, -⟩
  · rcases rank?_cases hx with hx | ⟨t, hux, rfl⟩
    · rcases rank?_cases hy with hy | ⟨t, huy, rfl⟩
      · rcases hle.lt_or_eq with hlt | rfl
        · have hlt' : a + c < b + c := by linarith
          exact (rounds_add hx hd).rank_le (rounds_add hy hd) hlt' hsum hsum'
        · rw [rank?_add_congr hx hy hd, hsum', Option.some_inj] at hsum
          exact hsum.ge
      · -- nothing finite is below the infinity with a minus
        cases t with
        | negative => linarith [(abs_lt.mp (abs_lt_of_value hx)).1, outermost_negative]
        | positive =>
          rw [rank?_add_of_infinity (.inl huy) hsum', outermost_positive]
          exact hrhigh
    · rw [rank?_add_of_infinity (.inl hux) hsum]
      cases t with
      | negative =>
        rw [outermost_negative]
        exact hslow
      | positive =>
        have hlow : -(2 : ℚ) ^ (1024 : ℤ) < 2 ^ (1024 : ℤ) := neg_lt_self (by positivity)
        rcases rank?_cases hy with hy | ⟨t, huy, rfl⟩
        · linarith [(abs_lt.mp (abs_lt_of_value hy)).2, outermost_positive]
        · cases t with
          | positive => exact (rank?_add_of_infinity (.inl huy) hsum').ge
          | negative =>
            rw [outermost_positive, outermost_negative] at hle
            exact absurd hle (not_le.mpr hlow)
  · rw [rank?_add_of_infinity (.inr hud) hsum, rank?_add_of_infinity (.inr hud) hsum']

-- Main statement.
theorem lt_of_add_lt_add_float (h : x + d < y + d) : x < y := by
  obtain ⟨hnx, hny⟩ := not_isNaN_of_lt h
  obtain ⟨r, hr⟩ := exists_rank hnx
  obtain ⟨s, hs⟩ := exists_rank hny
  obtain ⟨a, ha⟩ := exists_rank (mt (fun hx => isNaN_add (.inl hx)) hnx)
  obtain ⟨b, hb⟩ := exists_rank (mt (fun hy => isNaN_add (.inl hy)) hny)
  rw [lt_iff_rank hr hs] at h
  rw [lt_iff_rank ha hb]
  by_contra hle
  exact h.not_ge (rank?_add_le_rank?_add hb ha (not_lt.mp hle) hs hr)

end Sums

end Reckon.Number
