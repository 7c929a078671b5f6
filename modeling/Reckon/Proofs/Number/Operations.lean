import Reckon.Proofs.Number.Rounding

namespace Reckon.Number

open Float.Model Float.Model.UnpackedFloat

theorem rounds_zero (s : Sign) : Rounds 0 ⟨Float.Model.pack (.zero s)⟩ :=
  rounds_of_value (by rw [value?_eq, unpack_pack_zero, unpackedValue?])

theorem Canonical.rounds {m : Nat} {e : Int} (h : Canonical m e) (s : Sign) (hm : 0 < m) :
    Rounds (s.apply m * 2 ^ e) ⟨Float.Model.pack (.finite s m e hm)⟩ := by
  have hsettled : Settled (m * 2 ^ e) m e := by
    refine ⟨by positivity, h.lt.le, h.least, ?_, h.full.symm.imp_right fun hfull => ?_⟩
    · rw [sub_self, abs_zero]
      positivity
    · gcongr
      exact_mod_cast hfull
  have hsettle : settle s m e = .finite s m e hm := by
    rw [settle, dif_neg hm.ne', if_pos h.lt]
  rw [apply_mul, ← hsettle]
  exact hsettled.rounds s

section Align

theorem decreaseExponent_value (s : Sign) (m : Nat) {e f : Int} (h : f ≤ e) :
    (s.apply (decreaseExponent m e f).1 : ℚ) * 2 ^ f = s.apply m * 2 ^ e := by
  obtain ⟨k, rfl⟩ : ∃ k : Nat, e = f + k := ⟨(e - f).toNat, by omega⟩
  rw [apply_mul, apply_mul, decreaseExponent, add_sub_cancel_left, Int.toNat_natCast,
    Nat.shiftLeft_eq, zpow_add₀ (by norm_num), zpow_natCast]
  push_cast
  ring

theorem rounds_round (s : Sign) {m : Nat} (hm : 0 < m) (e : Int) :
    Rounds (s.apply m * 2 ^ e)
      ⟨Float.Model.pack (UnpackedFloat.round Format.binary64 s m e)⟩ := by
  obtain ⟨k, hk⟩ : ∃ k : Nat, (e - max ((m.log2 : Int) + e - 52) (-1074)).toNat = k := ⟨_, rfl⟩
  have hround : UnpackedFloat.round Format.binary64 s m e =
      roundWithAccuracy Format.binary64 s (m * 2 ^ k) (e - k) .exact := by
    simp only [UnpackedFloat.round, targetExponent_eq, decreaseExponent, hk, Nat.shiftLeft_eq]
  have hvalue : (s.apply m : ℚ) * 2 ^ e = s.apply (m * 2 ^ k : Nat) * 2 ^ (e - k) := by
    rw [apply_mul, apply_mul, zpow_sub₀ (by norm_num), zpow_natCast]
    push_cast
    field_simp
  rw [hround, hvalue]
  refine rounds_exact s ?_
  rw [log2_mul_two_pow hm]
  omega

theorem rounds_normalize (n e : Int) (s : Sign) :
    Rounds (n * 2 ^ e) ⟨Float.Model.pack (UnpackedFloat.normalize Format.binary64 n e s)⟩ := by
  rcases lt_trichotomy n 0 with h | rfl | h
  · obtain ⟨m, rfl⟩ : ∃ m : Nat, n = -m := ⟨n.natAbs, by omega⟩
    rw [UnpackedFloat.normalize, compare_lt_iff_lt.mpr h]
    simpa [Sign.apply] using rounds_round .negative (m := m) (by omega) e
  · rw [Int.cast_zero, zero_mul]
    exact rounds_zero s
  · obtain ⟨m, rfl⟩ : ∃ m : Nat, n = m := ⟨n.natAbs, by omega⟩
    rw [UnpackedFloat.normalize, compare_gt_iff_gt.mpr h]
    simpa [Sign.apply] using rounds_round .positive (m := m) (by omega) e

end Align

-- What is left over by a division tells on which side of the half the quotient lies.
theorem holds_div (m : Nat) {d : Nat} (hd : 0 < d) :
    Holds (ExtendedMantissa.ofMantissaAndAccuracy (m / d) (accuracyOfFraction (m % d) d))
      (m / d) := by
  have hpos : (0 : ℚ) < d := by exact_mod_cast hd
  have hquotient : (m : ℚ) / d = (m / d : Nat) + (m % d : Nat) / d := by
    have hm : (m : ℚ) = d * (m / d : Nat) + (m % d : Nat) := by
      exact_mod_cast (Nat.div_add_mod m d).symm
    rw [div_eq_iff hpos.ne', add_mul, div_mul_cancel₀ _ hpos.ne', mul_comm]
    exact hm
  have hone : ((m % d : Nat) : ℚ) / d < 1 :=
    (div_lt_one hpos).mpr (by exact_mod_cast Nat.mod_lt m hd)
  rw [hquotient, accuracyOfFraction]
  by_cases hzero : m % d = 0
  · simp [hzero, ExtendedMantissa.ofMantissaAndAccuracy, Holds]
  · have hrest : (0 : ℚ) < (m % d : Nat) / d := by
      have := Nat.pos_of_ne_zero hzero
      positivity
    rw [if_neg hzero]
    rcases lt_trichotomy (2 * (m % d)) d with h | h | h
    · have hhalf : ((m % d : Nat) : ℚ) / d < 1 / 2 := by
        rw [div_lt_div_iff₀ hpos (by norm_num), mul_comm, one_mul]
        exact_mod_cast h
      rw [compare_lt_iff_lt.mpr h]
      exact ⟨lt_add_of_pos_right _ hrest, (add_lt_add_iff_left _).mpr hhalf⟩
    · have hhalf : ((m % d : Nat) : ℚ) / d = 1 / 2 := by
        rw [div_eq_div_iff hpos.ne' (by norm_num), mul_comm, one_mul]
        exact_mod_cast h
      rw [compare_eq_iff_eq.mpr h]
      exact congrArg _ hhalf
    · have hhalf : 1 / 2 < ((m % d : Nat) : ℚ) / d := by
        rw [div_lt_div_iff₀ (by norm_num) hpos, one_mul, mul_comm]
        exact_mod_cast h
      rw [compare_gt_iff_gt.mpr h]
      exact ⟨(add_lt_add_iff_left _).mpr hhalf, (add_lt_add_iff_left _).mpr hone⟩

-- The dividend is scaled up until the quotient has 53 bits, unless the exponent is the least one.
theorem rounds_divCore (s : Sign) {m n : Nat} {e f : Int} (hm : 0 < m) (hn : 0 < n) :
    ∃ q g accuracy, divCore Format.binary64 m e n f = (q, g, accuracy) ∧
      Rounds (s.apply 1 * ((m * 2 ^ e) / (n * 2 ^ f)))
        ⟨Float.Model.pack (roundWithAccuracy Format.binary64 s q g accuracy)⟩ := by
  have htotal : totalExponent m e - totalExponent n f = totalExponent m (e - f - n.log2 - 1) := by
    rw [totalExponent, totalExponent, totalExponent]
    omega
  obtain ⟨g, hg⟩ : ∃ g, min (e - f) (max (m.log2 + (e - f - n.log2 - 1) - 52) (-1074)) = g :=
    ⟨_, rfl⟩
  obtain ⟨k, hk⟩ : ∃ k : Nat, e - f - g = k := ⟨(e - f - g).toNat, by omega⟩
  refine ⟨m * 2 ^ k / n, g, accuracyOfFraction (m * 2 ^ k % n) n, ?_, ?_⟩
  · rw [divCore, htotal, targetExponent_eq, hg, hk, Int.toNat_natCast, Nat.shiftLeft_eq]
  have hvalue : (m : ℚ) * 2 ^ e / (n * 2 ^ f) = ((m * 2 ^ k : Nat) : ℚ) / n * 2 ^ g := by
    obtain rfl : e = f + g + k := by omega
    rw [zpow_add₀ (by norm_num), zpow_add₀ (by norm_num), zpow_natCast]
    push_cast
    field_simp
  rw [hvalue]
  refine rounds_roundWithAccuracy s (holds_div _ hn) ?_
  by_cases hleast : g ≤ -1074
  · omega
  · have hlog : n.log2 + 53 ≤ m.log2 + k := by omega
    have hlow : 2 ^ (m.log2 + k) ≤ m * 2 ^ k := by
      rw [pow_add]
      exact Nat.mul_le_mul_right _ (Nat.log2_self_le hm.ne')
    have hbits : 2 ^ 52 ≤ m * 2 ^ k / n := by
      rw [Nat.le_div_iff_mul_le hn]
      calc 2 ^ 52 * n ≤ 2 ^ 52 * 2 ^ (n.log2 + 1) := Nat.mul_le_mul_left _ Nat.lt_log2_self.le
        _ = 2 ^ (n.log2 + 53) := by ring
        _ ≤ 2 ^ (m.log2 + k) := Nat.pow_le_pow_right (by decide) hlog
        _ ≤ m * 2 ^ k := hlow
    have := (Nat.le_log2 (by omega : m * 2 ^ k / n ≠ 0)).mpr hbits
    omega

theorem exponent_le_of_unpack {x : Float} {s : Sign} {m : Nat} {e : Int} {hm : 0 < m}
    (hx : x.toModel.unpack = .finite s m e hm) : e ≤ 971 := by
  by_contra h
  have hlarge := unpack_pack_large s hm (by omega : 972 ≤ e)
  have hpack : Float.Model.pack x.toModel.unpack = x.toModel :=
    congrArg Float.toModel (pack_unpack_float x)
  rw [← hx, hpack, hx] at hlarge
  cases hlarge

-- Taking away is adding with the other sign.
theorem unpackedSub_eq (u v : UnpackedFloat) :
    UnpackedFloat.sub Format.binary64 u v = .add Format.binary64 u v.neg := by
  cases u with
  | finite s m e hm =>
    cases v with
    | finite t n f hn =>
      have happly : ∀ k : Nat, (-t).apply k = -t.apply k := fun k => by
        cases t <;> simp [Sign.apply]
      simp only [UnpackedFloat.sub, UnpackedFloat.neg, UnpackedFloat.add, happly, sub_eq_add_neg]
    | _ => rfl
  | _ => cases v <;> rfl

section Operations

variable {x y : Float} {a b : ℚ} (hx : value? x = some a) (hy : value? y = some b)
include hx hy

theorem rounds_add : Rounds (a + b) (x + y) := by
  rw [add_eq_pack]
  cases form_of_value hx with
  | @zero s hux =>
    cases form_of_value hy with
    | @zero t huy =>
      rw [hux, huy, add_zero]
      cases s <;> cases t <;> exact rounds_zero _
    | finite huy hc =>
      rw [hux, huy, zero_add]
      exact hc.rounds _ _
  | @finite s m e hm hux hcx =>
    cases form_of_value hy with
    | zero huy =>
      rw [hux, huy, add_zero]
      exact hcx.rounds _ _
    | @finite t n f hn huy hcy =>
      have hsum := rounds_normalize (s.apply (decreaseExponent m e (min e f)).1 +
        t.apply (decreaseExponent n f (min e f)).1) (min e f) .positive
      rw [Int.cast_add, add_mul, decreaseExponent_value s m (min_le_left e f),
        decreaseExponent_value t n (min_le_right e f)] at hsum
      rw [hux, huy]
      exact hsum

omit hx in
theorem unpack_neg : (-y).toModel.unpack = y.toModel.unpack.neg := by
  have hneg : (-y).toModel = Float.Model.pack y.toModel.unpack.neg := rfl
  rw [hneg]
  cases form_of_value hy with
  | zero huy =>
    rw [huy]
    exact unpack_pack_zero _
  | finite huy hc =>
    rw [huy]
    exact unpack_pack_finite _ _ hc (exponent_le_of_unpack huy)

omit hx in
theorem value?_neg : value? (-y) = some (-b) := by
  rw [value?_eq, unpack_neg hy]
  cases form_of_value hy with
  | zero huy => rw [huy, neg_zero]; rfl
  | @finite s m e hm huy hc =>
    rw [huy]
    cases s <;> simp [UnpackedFloat.neg, unpackedValue?, Sign.apply]

theorem rounds_sub : Rounds (a - b) (x - y) := by
  have hsub : x - y = x + -y := by
    rw [sub_eq_pack, add_eq_pack, unpack_neg hy, unpackedSub_eq]
  rw [hsub, sub_eq_add_neg]
  exact rounds_add hx (value?_neg hy)

theorem rounds_mul : Rounds (a * b) (x * y) := by
  rw [mul_eq_pack]
  cases form_of_value hx with
  | @zero s hux =>
    rw [zero_mul]
    cases form_of_value hy with
    | zero huy => rw [hux, huy]; exact rounds_zero _
    | finite huy hc => rw [hux, huy]; exact rounds_zero _
  | @finite s m e hm hux hcx =>
    cases form_of_value hy with
    | zero huy => rw [hux, huy, mul_zero]; exact rounds_zero _
    | @finite t n f hn huy hcy =>
      have hvalue : (s.apply m : ℚ) * 2 ^ e * (t.apply n * 2 ^ f) =
          (s * t).apply (m * n : Nat) * 2 ^ (e + f) := by
        rw [zpow_add₀ (by norm_num)]
        cases s <;> cases t <;> simp [Sign.apply] <;> ring
      rw [hux, huy, hvalue]
      refine rounds_exact (s * t) ?_
      by_cases hleast : e + f ≤ -1074
      · omega
      · have hbits : 2 ^ 52 ≤ m * n := by
          rcases hcx.full with hfull | he
          · exact hfull.trans (Nat.le_mul_of_pos_right m hn)
          · have hleast := hcy.least
            exact (hcy.full.resolve_right (by omega)).trans (Nat.le_mul_of_pos_left n hm)
        have := (Nat.le_log2 (by omega : m * n ≠ 0)).mpr hbits
        omega

theorem rounds_div (hb : b ≠ 0) : Rounds (a / b) (x / y) := by
  rw [div_eq_pack]
  cases form_of_value hy with
  | zero huy => exact absurd rfl hb
  | @finite t n f hn huy hcy =>
    cases form_of_value hx with
    | zero hux => rw [hux, huy, zero_div]; exact rounds_zero _
    | @finite s m e hm hux hcx =>
      have hvalue : (s.apply m : ℚ) * 2 ^ e / (t.apply n * 2 ^ f) =
          (s / t).apply 1 * ((m * 2 ^ e) / (n * 2 ^ f)) := by
        have hsign : s / t = s * t := rfl
        rw [hsign]
        cases s <;> cases t <;> simp [Sign.apply, neg_div, div_neg]
      obtain ⟨q, g, accuracy, hcore, hrounds⟩ := rounds_divCore (s / t) (e := e) (f := f) hm hn
      rw [hux, huy, hvalue, UnpackedFloat.div]
      simp only [hcore]
      exact hrounds

end Operations

-- What is not finite stays so

section NotFinite

variable {x y : Float}

theorem value?_eq_none_iff : value? x = none ↔
    x.toModel.unpack = .notANumber ∨ ∃ s, x.toModel.unpack = .infinity s := by
  rw [value?_eq]
  cases x.toModel.unpack <;> simp [unpackedValue?]

private theorem value?_pack_eq_none {u : UnpackedFloat}
    (hu : u = .notANumber ∨ ∃ s, u = .infinity s) : value? ⟨Float.Model.pack u⟩ = none := by
  rw [← Option.not_isSome_iff_eq_none, isSome_value?]
  rcases hu with rfl | ⟨s, rfl⟩
  · exact not_isFinite_pack_notANumber
  · exact not_isFinite_pack_infinity s

theorem value?_add_eq_none (hy : value? y = none) : value? (x + y) = none := by
  rw [add_eq_pack]
  refine value?_pack_eq_none ?_
  rcases value?_eq_none_iff.mp hy with h | ⟨s, h⟩ <;> rw [h]
  · cases x.toModel.unpack <;> simp [UnpackedFloat.add]
  · cases x.toModel.unpack with
    | infinity t => by_cases hst : t = s <;> simp [UnpackedFloat.add, hst]
    | _ => simp [UnpackedFloat.add]

theorem value?_mul_eq_none (hx : value? x = none) : value? (x * y) = none := by
  rw [mul_eq_pack]
  refine value?_pack_eq_none ?_
  rcases value?_eq_none_iff.mp hx with h | ⟨s, h⟩ <;> rw [h]
  · exact .inl rfl
  · cases y.toModel.unpack <;> simp [UnpackedFloat.mul]

theorem value?_div_eq_none (hx : value? x = none) : value? (x / y) = none := by
  rw [div_eq_pack]
  refine value?_pack_eq_none ?_
  rcases value?_eq_none_iff.mp hx with h | ⟨s, h⟩ <;> rw [h]
  · exact .inl rfl
  · cases y.toModel.unpack <;> simp [UnpackedFloat.div]

theorem value?_sub_eq_none (h : value? x = none ∨ value? y = none) : value? (x - y) = none := by
  rw [sub_eq_pack]
  refine value?_pack_eq_none ?_
  rcases h with hx | hy
  · rcases value?_eq_none_iff.mp hx with hu | ⟨s, hu⟩ <;> rw [hu]
    · exact .inl rfl
    · cases y.toModel.unpack with
      | infinity t => by_cases hst : s = -t <;> simp [UnpackedFloat.sub, hst]
      | _ => simp [UnpackedFloat.sub]
  · rcases value?_eq_none_iff.mp hy with hu | ⟨s, hu⟩ <;> rw [hu]
    · cases x.toModel.unpack <;> simp [UnpackedFloat.sub]
    · cases x.toModel.unpack with
      | infinity t => by_cases hst : t = -s <;> simp [UnpackedFloat.sub, hst]
      | _ => simp [UnpackedFloat.sub]

theorem exists_value_of_sub {d : ℚ} (h : value? (x - y) = some d) :
    ∃ a b, value? x = some a ∧ value? y = some b := by
  cases hx : value? x with
  | none => simp [value?_sub_eq_none (.inl hx)] at h
  | some a =>
    cases hy : value? y with
    | none => simp [value?_sub_eq_none (.inr hy)] at h
    | some b => exact ⟨a, b, rfl, rfl⟩

end NotFinite

-- Rounding and order

section Order

variable {v w q r s : ℚ} {x y : Float}

theorem Rounds.near (h : Rounds v x) (hx : value? x = some r) (hq : Representable q) :
    |v - r| ≤ |v - q| := by
  cases h with
  | nearest hx' hnear =>
    obtain rfl := Option.some_inj.mp (hx'.symm.trans hx)
    exact hnear q hq
  | overflow hinfinite _ => simp [value?, hinfinite, Exact.value?] at hx

theorem Rounds.exists_value (h : Rounds v x) (hv : |v| < ceiling) : ∃ r, value? x = some r := by
  cases h with
  | nearest hx _ => exact ⟨_, hx⟩
  | overflow _ hlarge => exact absurd hv (not_lt.mpr hlarge)

theorem Rounds.value_eq (h : Rounds v x) (hv : Representable v) (hlt : |v| < ceiling) :
    value? x = some v := by
  obtain ⟨r, hx⟩ := h.exists_value hlt
  have hnear := h.near hx hv
  rw [sub_self, abs_zero] at hnear
  rw [hx, sub_eq_zero.mp (abs_nonpos_iff.mp hnear)]

theorem Rounds.le (h : Rounds v x) (hx : value? x = some r) (hq : Representable q)
    (hle : v ≤ q) : r ≤ q := by
  by_contra hlt
  have hnear := h.near hx hq
  rw [abs_of_nonpos (by linarith), abs_of_nonpos (by linarith)] at hnear
  linarith

theorem Rounds.ge (h : Rounds v x) (hx : value? x = some r) (hq : Representable q)
    (hle : q ≤ v) : q ≤ r := by
  by_contra hlt
  have hnear := h.near hx hq
  rw [abs_of_nonneg (by linarith), abs_of_nonneg (by linarith)] at hnear
  linarith

theorem Representable.exists_multiple (h : Representable q) : ∃ n : ℤ, q = n * 2 ^ (-1074 : ℤ) := by
  obtain ⟨n, e, -, he, rfl⟩ := h
  obtain ⟨k, rfl⟩ : ∃ k : Nat, e = -1074 + k := ⟨(e + 1074).toNat, by omega⟩
  exact ⟨n * 2 ^ k, mul_two_zpow_add n (-1074) k⟩

-- Were the results in the wrong order, both numbers would lie on the wrong side of their middle.
theorem Rounds.mono (h : Rounds v x) (h' : Rounds w y) (hx : value? x = some r)
    (hy : value? y = some s) (hlt : v < w) : r ≤ s := by
  have hr := representable_of_value hx
  have hs := representable_of_value hy
  rcases le_or_gt v s with hvs | hvs
  · exact h.le hx hs hvs
  · rcases le_or_gt r w with hrw | hrw
    · exact h'.ge hy hr hrw
    · have hv := h.near hx hs
      have hw := h'.near hy hr
      rw [abs_of_neg (by linarith), abs_of_pos (by linarith)] at hv
      rw [abs_of_pos (by linarith), abs_of_neg (by linarith)] at hw
      linarith

-- Two numbers with 53 bits differ by one part in `2 ^ 53` at least.
theorem Representable.gap (hq : Representable q) (hr : Representable r) (hlt : q < r) :
    q ≤ r * (1 - 1 / 2 ^ 53) := by
  -- both are multiples of the smaller power of two
  obtain ⟨e, n, m, rfl, rfl, hn⟩ :
      ∃ (e n m : ℤ), q = n * 2 ^ e ∧ r = m * 2 ^ e ∧ n < 2 ^ 53 := by
    obtain ⟨n, e, hn, -, rfl⟩ := hq
    obtain ⟨m, f, hm, -, rfl⟩ := hr
    rcases le_total e f with hef | hef
    · obtain ⟨k, rfl⟩ : ∃ k : Nat, f = e + k := ⟨(f - e).toNat, by omega⟩
      exact ⟨e, n, m * 2 ^ k, rfl, mul_two_zpow_add m e k, lt_of_abs_lt hn⟩
    · obtain ⟨k, rfl⟩ : ∃ k : Nat, e = f + k := ⟨(e - f).toNat, by omega⟩
      refine ⟨f, n * 2 ^ k, m, mul_two_zpow_add n f k, rfl, ?_⟩
      rw [mul_two_zpow_add] at hlt
      have hnm : n * 2 ^ k < m := by exact_mod_cast lt_of_mul_lt_mul_right hlt (by positivity)
      exact hnm.trans (lt_of_abs_lt hm)
  have hpos : (0 : ℚ) < 2 ^ e := by positivity
  have hnm : (n : ℚ) + 1 ≤ m := by exact_mod_cast lt_of_mul_lt_mul_right hlt hpos.le
  have hn' : (n : ℚ) + 1 ≤ 2 ^ 53 := by exact_mod_cast hn
  rw [mul_right_comm]
  gcongr
  linarith

-- Different floats have a distance: it is a multiple of the least float.
theorem pos_of_sub (hx : value? x = some q) (hy : value? y = some r) (hlt : q < r)
    (hz : value? (y - x) = some s) : 0 < s := by
  obtain ⟨n, hn⟩ := (representable_of_value hx).exists_multiple
  obtain ⟨m, hm⟩ := (representable_of_value hy).exists_multiple
  have hpos : (0 : ℚ) < 2 ^ (-1074 : ℤ) := by positivity
  have hnm : (n : ℚ) + 1 ≤ m := by
    rw [hn, hm] at hlt
    exact_mod_cast lt_of_mul_lt_mul_right hlt hpos.le
  have hleast : Representable (2 ^ (-1074 : ℤ)) := ⟨1, -1074, by norm_num, le_rfl, by simp⟩
  refine hpos.trans_le ((rounds_sub hy hx).ge hz hleast ?_)
  rw [hn, hm, ← sub_mul]
  exact le_mul_of_one_le_left hpos.le (by linarith)

-- What lies one part in `2 ^ 53` below a float is rounded to a smaller one, unless this one has the
-- least exponent: the predecessor is not farther away.
theorem Rounds.lt_of_gap {m : Nat} {e : Int} (h : Rounds v x) (hx : value? x = some r)
    (hc : Canonical m e) (he : -1074 < e) (hle : v ≤ m * 2 ^ e * (1 - 1 / 2 ^ 53)) :
    r < m * 2 ^ e := by
  have hpos : (0 : ℚ) < 2 ^ e := by positivity
  rcases (hc.full.resolve_right he.ne').eq_or_lt with rfl | hfull
  · have hpred : Representable ((2 ^ 53 - 1) * 2 ^ (e - 1)) :=
      ⟨2 ^ 53 - 1, e - 1, by norm_num, by omega, by norm_num⟩
    rw [zpow_sub_one₀ (by norm_num)] at hpred
    have hr := h.le hx hpred (by push_cast at hle; linarith)
    push_cast
    linarith
  · have hpred : Representable ((m - 1) * 2 ^ e) := by
      have hlt := hc.lt
      exact ⟨m - 1, e, by rw [abs_lt]; omega, hc.least, by push_cast; rfl⟩
    have hhalf : (2 : ℚ) ^ 52 < m := by exact_mod_cast hfull
    by_contra hge
    have hpv : (m - 1) * 2 ^ e < v := by
      by_contra hle
      have hr := h.le hx hpred (not_lt.mp hle)
      linarith
    have hnear := h.near hx hpred
    rw [abs_of_neg (by nlinarith), abs_of_pos (by linarith)] at hnear
    nlinarith

end Order

-- The range of floats

def largest : ℚ := (2 ^ 53 - 1) * 2 ^ (971 : ℤ)

-- Half a unit of the largest float further on, the range ends.
theorem largest_add_half_unit : largest + 2 ^ (970 : ℤ) = ceiling := by
  rw [largest, ceiling, show (971 : ℤ) = 970 + 1 by rfl, zpow_add_one₀ (by norm_num)]
  ring

theorem abs_le_largest {x : Float} {r : ℚ} (hx : value? x = some r) : |r| ≤ largest := by
  rw [largest]
  cases form_of_value hx with
  | zero _ =>
    rw [abs_zero]
    positivity
  | @finite s m e hm hux hc =>
    have he := exponent_le_of_unpack hux
    have hlt : (m : ℚ) + 1 ≤ 2 ^ 53 := by exact_mod_cast hc.lt
    rw [apply_mul, abs_apply_mul s (by positivity)]
    gcongr
    · linarith
    · norm_num

theorem abs_lt_ceiling {x : Float} {r : ℚ} (hx : value? x = some r) : |r| < ceiling := by
  rw [← largest_add_half_unit]
  exact (abs_le_largest hx).trans_lt (lt_add_of_pos_right _ (by positivity))

-- A difference is finite if what is taken away is less than half a unit of the largest float.
theorem isFinite_sub {x y : Float} {b : ℚ} (hx : x.isFinite = true) (hy : value? y = some b)
    (hb : |b| < 2 ^ (970 : ℤ)) : (x - y).isFinite = true := by
  obtain ⟨a, ha⟩ := Option.isSome_iff_exists.mp ((isSome_value? x).mpr hx)
  have hlt : |a - b| < ceiling := by
    rw [← largest_add_half_unit]
    exact (abs_sub a b).trans_lt (add_lt_add_of_le_of_lt (abs_le_largest ha) hb)
  rw [← isSome_value?, Option.isSome_iff_exists]
  exact (rounds_sub ha hy).exists_value hlt

section Infinite

variable {x y : Float} {a : ℚ}

theorem unpack_of_infinite {s : Bool} (h : exact x = .infinite s) :
    ∃ t, x.toModel.unpack = .infinity t ∧ s = (t == .negative) := by
  rw [exact_eq] at h
  cases hu : x.toModel.unpack <;> simp_all

theorem not_lt_of_infinite (hx : exact x = .infinite false) : ¬x < y := by
  obtain ⟨t, hu, ht⟩ := unpack_of_infinite hx
  rw [lt_iff_unpack, hu]
  cases t with
  | negative => simp at ht
  | positive => cases y.toModel.unpack with
    | infinity t => cases t <;> decide
    | _ => simp [UnpackedFloat.lt, UnpackedFloat.compare]

theorem lt_of_infinite (hx : value? x = some a) (hy : exact y = .infinite false) : x < y := by
  obtain ⟨t, hu, ht⟩ := unpack_of_infinite hy
  rw [lt_iff_unpack, hu]
  cases t with
  | negative => simp at ht
  | positive => cases form_of_value hx with
    | zero hux => rw [hux]; rfl
    | finite hux _ => rw [hux]; rfl

theorem value?_div_infinite {s : Bool} (hx : value? x = some a) (hy : exact y = .infinite s) :
    value? (x / y) = some 0 := by
  obtain ⟨t, hu, -⟩ := unpack_of_infinite hy
  rw [value?_eq, div_eq_pack, hu]
  cases form_of_value hx with
  | zero hux => rw [hux]; exact congrArg unpackedValue? (unpack_pack_zero _)
  | finite hux _ => rw [hux]; exact congrArg unpackedValue? (unpack_pack_zero _)

end Infinite

-- Fractions of a float

section Fraction

variable {x y : Float} {a b q r : ℚ}

theorem value?_zero_add (hx : value? x = some a) : value? (0.0 + x) = some a := by
  have hsum := rounds_add value?_zero hx
  rw [zero_add] at hsum
  exact hsum.value_eq (representable_of_value hx) (abs_lt_ceiling hx)

theorem value?_div_self (hx : value? x = some a) (hy : value? y = some a) (ha : a ≠ 0) :
    value? (x / y) = some 1 := by
  have hquotient := rounds_div hx hy ha
  rw [div_self ha] at hquotient
  exact hquotient.value_eq (representable_of_value value?_one) (abs_lt_ceiling value?_one)

theorem value?_one_mul (hx : value? x = some 1) (hy : value? y = some b) :
    value? (x * y) = some b := by
  have hproduct := rounds_mul hx hy
  rw [one_mul] at hproduct
  exact hproduct.value_eq (representable_of_value hy) (abs_lt_ceiling hy)

theorem exists_canonical_of_one_le (hx : value? x = some a) (ha : 1 ≤ a) :
    ∃ (m : Nat) (e : Int), Canonical m e ∧ -1074 < e ∧ a = m * 2 ^ e := by
  cases form_of_value hx with
  | zero _ => norm_num at ha
  | @finite s m e hm _ hc =>
    cases s with
    | negative =>
      have hpos : (0 : ℚ) < m * 2 ^ e := by positivity
      simp only [Sign.apply, Int.cast_neg, Int.cast_natCast] at ha
      linarith
    | positive =>
      simp only [Sign.apply, Int.cast_natCast] at ha ⊢
      refine ⟨m, e, hc, lt_of_le_of_ne hc.least fun he => not_lt.mpr ha ?_, rfl⟩
      calc (m : ℚ) * 2 ^ e < 2 ^ 53 * 2 ^ (-53 : ℤ) := by
            gcongr
            · exact_mod_cast hc.lt
            · norm_num
            · omega
        _ = 1 := by norm_num

-- A quotient below one stays below it.
theorem exists_div_of_lt (hx : value? x = some a) (hy : value? y = some b) (ha : 0 ≤ a)
    (hlt : a < b) : ∃ q, value? (x / y) = some q ∧ 0 ≤ q ∧ q ≤ 1 - 1 / 2 ^ 53 := by
  have hb : 0 < b := ha.trans_lt hlt
  have hquotient := rounds_div hx hy hb.ne'
  have hgap := (representable_of_value hx).gap (representable_of_value hy) hlt
  have hle : a / b ≤ 1 - 1 / 2 ^ 53 := by rwa [div_le_iff₀' hb]
  have hnonneg : 0 ≤ a / b := by positivity
  have hrange : |a / b| < ceiling := by
    rw [abs_of_nonneg hnonneg]
    have hone := abs_lt_ceiling value?_one
    rw [abs_one] at hone
    linarith
  obtain ⟨q, hq⟩ := hquotient.exists_value hrange
  refine ⟨q, hq, hquotient.ge hq representable_zero hnonneg, hquotient.le hq ?_ hle⟩
  exact ⟨2 ^ 53 - 1, -53, by norm_num, by norm_num, by norm_num⟩

-- So does such a quotient of a number, of one that is not below one.
theorem exists_mul_of_le (hx : value? x = some q) (hy : value? y = some b) (hnonneg : 0 ≤ q)
    (hle : q ≤ 1 - 1 / 2 ^ 53) (hb : 1 ≤ b) :
    ∃ r, value? (x * y) = some r ∧ 0 ≤ r ∧ r < b := by
  have hproduct := rounds_mul hx hy
  have hpos : 0 ≤ q * b := by positivity
  have hgap : q * b ≤ b * (1 - 1 / 2 ^ 53) := by
    rw [mul_comm]
    gcongr
  have hrange : |q * b| < ceiling := by
    have hb' := abs_lt_ceiling hy
    rw [abs_of_nonneg (by linarith)] at hb'
    rw [abs_of_nonneg hpos]
    linarith
  obtain ⟨r, hr⟩ := hproduct.exists_value hrange
  refine ⟨r, hr, hproduct.ge hr representable_zero hpos, ?_⟩
  obtain ⟨m, e, hc, he, rfl⟩ := exists_canonical_of_one_le hy hb
  exact hproduct.lt_of_gap hr hc he hgap

end Fraction

end Reckon.Number
