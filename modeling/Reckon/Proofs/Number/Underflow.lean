import Reckon.Proofs.Number.Exact

namespace Reckon.Number

open Float.Model Float.Model.UnpackedFloat

-- A shift keeps the last bit that drops out, and whether any bit below it was set.
private theorem shiftRight_succ (m k : Nat) :
    ExtendedMantissa.mk m false false >>> (k + 1) =
      ⟨m / 2 ^ (k + 1), m / 2 ^ k % 2 != 0, m % 2 ^ k != 0⟩ := by
  induction k with
  | zero => simp [HShiftRight.hShiftRight, Nat.repeat, ExtendedMantissa.shiftRightOne, Nat.mod_one]
  | succ k ih =>
    have hstep : ExtendedMantissa.mk m false false >>> (k + 1 + 1) =
        (ExtendedMantissa.mk m false false >>> (k + 1)).shiftRightOne := rfl
    have hsticky : m % 2 ^ (k + 1) = 0 ↔ m / 2 ^ k % 2 = 0 ∧ m % 2 ^ k = 0 := by
      rw [pow_succ, Nat.mod_mul, Nat.add_eq_zero_iff, and_comm]
      simp
    rw [hstep, ih, ExtendedMantissa.shiftRightOne, Nat.div_div_eq_div_mul, ← pow_succ]
    congr 1
    rw [Bool.eq_iff_iff]
    simp only [Bool.or_eq_true, bne_iff_ne, Ne, hsticky]
    tauto

private theorem mantissa_le_roundedMantissa (em : ExtendedMantissa) :
    em.mantissa ≤ em.roundedMantissa := by
  obtain ⟨m, r, s⟩ := em
  cases r <;> cases s <;> simp [ExtendedMantissa.roundedMantissa, ExtendedMantissa.accuracy,
    Accuracy.roundToNearestEven]

-- Nothing is left of a mantissa of which at most half a unit is left. The half itself goes to the
-- even neighbour, which is zero.
theorem roundedMantissa_eq_zero_iff {m : Nat} (hm : 0 < m) (k : Nat) :
    (ExtendedMantissa.mk m false false >>> k).roundedMantissa = 0 ↔ 2 * m ≤ 2 ^ k := by
  cases k with
  | zero =>
    have hsame : (ExtendedMantissa.mk m false false >>> 0).roundedMantissa = m := rfl
    rw [hsame]
    omega
  | succ k =>
    have hlt : m % 2 ^ k < 2 ^ k := Nat.mod_lt _ (by positivity)
    have hdiv : 2 ^ k * (m / 2 ^ k) + m % 2 ^ k = m := Nat.div_add_mod m (2 ^ k)
    rw [shiftRight_succ, pow_succ, ← Nat.div_div_eq_div_mul]
    generalize m / 2 ^ k = q at hdiv ⊢
    generalize m % 2 ^ k = r at hdiv hlt ⊢
    match q with
    | 0 =>
      have hzero : (ExtendedMantissa.mk (0 / 2) (0 % 2 != 0) (r != 0)).roundedMantissa = 0 := by
        cases h : r != 0 <;> rfl
      rw [hzero]
      omega
    | 1 =>
      by_cases hr : r = 0
      · subst hr
        have hzero : (ExtendedMantissa.mk (1 / 2) (1 % 2 != 0) (0 != 0)).roundedMantissa = 0 := rfl
        rw [hzero]
        omega
      · have hone : (ExtendedMantissa.mk (1 / 2) (1 % 2 != 0) (r != 0)).roundedMantissa = 1 := by
          rw [(bne_iff_ne ..).mpr hr]
          rfl
        rw [hone]
        omega
    | q + 2 =>
      have hpos : 0 < (ExtendedMantissa.mk ((q + 2) / 2) ((q + 2) % 2 != 0) (r != 0)).roundedMantissa :=
        lt_of_lt_of_le (by simp) (mantissa_le_roundedMantissa _)
      have hlarge : 2 ^ k * 2 ≤ 2 ^ k * (q + 2) := Nat.mul_le_mul_left _ (by omega)
      omega

-- After the first shift the exponent is at least the least one of all.
private theorem shiftToTargetExponent_eq (m : Nat) (e : Int) :
    ∃ k : Nat, (k : Int) = max 0 (max ((m.log2 : Int) - 52) (-1074 - e)) ∧
      shiftToTargetExponent Format.binary64 m e .exact =
        (ExtendedMantissa.mk m false false >>> k, e + k) := by
  refine ⟨(max ((m.log2 : Int) + e - 52) (-1074) - e).toNat, by omega, ?_⟩
  rw [shiftToTargetExponent, targetExponent_eq, shiftToExponent]
  rfl

private theorem mantissa_shiftRight (m k : Nat) :
    (ExtendedMantissa.mk m false false >>> k).mantissa = m / 2 ^ k := by
  cases k with
  | zero => simp [HShiftRight.hShiftRight, Nat.repeat]
  | succ k => rw [shiftRight_succ]

-- A mantissa that is not zero is not lost by the second shift, and has at most 53 bits after it.
private theorem second_shift {m : Nat} (hm : 0 < m) {e : Int} (he : -1074 ≤ e) :
    ∃ m' e', 0 < m' ∧ m' < 2 ^ 53 ∧ -1074 ≤ e' ∧
      (shiftToTargetExponent Format.binary64 m e .exact).1.mantissa = m' ∧
      (shiftToTargetExponent Format.binary64 m e .exact).2 = e' := by
  obtain ⟨k, hk, hshift⟩ := shiftToTargetExponent_eq m e
  have hlow : 2 ^ k ≤ m :=
    (Nat.pow_le_pow_right (by decide) (by omega)).trans (Nat.log2_self_le hm.ne')
  have hhigh : m < 2 ^ 53 * 2 ^ k := by
    rw [← pow_add]
    exact Nat.lt_log2_self.trans_le (Nat.pow_le_pow_right (by decide) (by omega))
  refine ⟨m / 2 ^ k, e + k, Nat.div_pos hlow (by positivity), ?_, by omega, ?_, ?_⟩
  · exact (Nat.div_lt_iff_lt_mul (by positivity)).mpr hhigh
  · rw [hshift, mantissa_shiftRight]
  · rw [hshift]

-- What is packed with the exponent zero and the mantissa zero is a zero.
private theorem unpack_eq_zero {x : Float.Model} {s : Sign} (h : x.unpack = .zero s) :
    @unpackExponent Format.binary64 x.toBits.toBitVec = 0#11 ∧
      @unpackMantissa Format.binary64 x.toBits.toBitVec = 0#52 := by
  unfold Float.Model.unpack UnpackedFloat.unpack at h
  dsimp only at h
  split at h
  · split at h <;> cases h
  · split at h
    · rename_i hexponent
      split at h
      · rename_i hmantissa
        exact ⟨hexponent, hmantissa⟩
      · cases h
    · cases h

theorem pack_finite_beq_zero (s : Sign) {m : Nat} {e : Int} (hm : 0 < m) (hlt : m < 2 ^ 53)
    (he : -1074 ≤ e) :
    ((⟨Float.Model.pack (.finite s m e hm)⟩ : Float) == 0.0) = false := by
  by_contra h
  obtain ⟨t, ht⟩ := (beq_zero_iff _).mp (Bool.eq_true_of_not_eq_false h)
  obtain ⟨hexponent, hmantissa⟩ := unpack_eq_zero ht
  have hbits : (Float.Model.pack (.finite s m e hm)).toBits.toBitVec =
    UnpackedFloat.pack Format.binary64 (.finite s m e hm) := rfl
  rw [hbits] at hexponent hmantissa
  unfold UnpackedFloat.pack at hexponent hmantissa
  dsimp only at hexponent hmantissa
  split at hexponent
  · rw [packedInfinity, unpackExponent_packComponents] at hexponent
    cases hexponent
  · rename_i hfinite
    rw [if_neg hfinite] at hmantissa
    split at hexponent
    · -- the exponent is stored with 1075 added to it, which leaves it at least one
      rw [unpackExponent_packComponents, ← BitVec.toNat_inj, BitVec.toNat_ofNat] at hexponent
      simp only [Format.exponentBias] at hexponent hfinite
      norm_num at hexponent hfinite
      omega
    · rename_i hlog
      rw [if_neg hlog, unpackMantissa_packComponents, ← BitVec.toNat_inj, BitVec.toNat_ofNat]
        at hmantissa
      have hlog : m.log2 ≠ 52 := fun h => hlog (by rw [h]; rfl)
      have hless : m.log2 < 53 := (Nat.log2_lt hm.ne').mpr hlt
      have hsmall : m < 2 ^ 52 := (Nat.log2_lt hm.ne').mp (by omega)
      simp at hmantissa
      omega

-- Half of the least float above zero, told by the places that are shifted out.
private theorem half_unit_iff {m k : Nat} (hm : 0 < m) {e : Int}
    (hk : (k : Int) = max 0 (max ((m.log2 : Int) - 52) (-1074 - e))) :
    2 * m ≤ 2 ^ k ↔ (m : ℚ) * 2 ^ e ≤ 2 ^ (-1075 : ℤ) := by
  -- either side says that the least exponent of all decides how far to shift
  have hscaled : (k : Int) = -1074 - e → (2 * m ≤ 2 ^ k ↔ (m : ℚ) * 2 ^ e ≤ 2 ^ (-1075 : ℤ)) := by
    intro h
    have he : (2 : ℚ) ^ e = 2 ^ (-1075 : ℤ) * (2 / 2 ^ k) := by
      rw [show e = -1075 + 1 - k by omega, zpow_sub₀ (by norm_num), zpow_add₀ (by norm_num),
        zpow_natCast, zpow_one, mul_div_assoc]
    have hcast : 2 * m ≤ 2 ^ k ↔ (m : ℚ) * (2 / 2 ^ k) ≤ 1 := by
      rw [mul_div_assoc', div_le_one (by positivity), mul_comm]
      exact_mod_cast Iff.rfl
    rw [he, mul_left_comm, hcast]
    exact (mul_le_iff_le_one_right (by positivity)).symm
  constructor
  · intro h
    have hlog : m.log2 + 1 ≤ k := by
      refine (Nat.pow_le_pow_iff_right (by decide)).mp (le_trans ?_ h)
      rw [pow_succ, mul_comm]
      exact Nat.mul_le_mul_left 2 (Nat.log2_self_le hm.ne')
    exact (hscaled (by omega)).mp h
  · intro h
    have hlog : (m.log2 : Int) + e ≤ -1075 := by
      refine (zpow_le_zpow_iff_right₀ (by norm_num : (1 : ℚ) < 2)).mp (le_trans ?_ h)
      rw [zpow_add₀ (by norm_num), zpow_natCast]
      gcongr
      exact_mod_cast Nat.log2_self_le hm.ne'
    exact (hscaled (by omega)).mpr h

-- The least float above zero is 2 ^ (-1074), and what is at most half of it is rounded to zero.
theorem pack_round_beq_zero_iff (s : Sign) {m : Nat} (hm : 0 < m) (e : Int) :
    ((⟨Float.Model.pack (roundWithAccuracy Format.binary64 s m e .exact)⟩ : Float) == 0.0) = true ↔
      (m : ℚ) * 2 ^ e ≤ 2 ^ (-1075 : ℤ) := by
  obtain ⟨k, hk, hshift⟩ := shiftToTargetExponent_eq m e
  rw [← half_unit_iff hm hk, ← roundedMantissa_eq_zero_iff hm k]
  by_cases hzero : (ExtendedMantissa.mk m false false >>> k).roundedMantissa = 0
  · have hround : roundWithAccuracy Format.binary64 s m e .exact = .zero s := by
      obtain ⟨j, -, hsecond⟩ := shiftToTargetExponent_eq 0 (e + k)
      simp [roundWithAccuracy, hshift, hzero, hsecond, mantissa_shiftRight]
    rw [hround]
    exact iff_of_true (pack_zero_beq_zero s) hzero
  · obtain ⟨m', e', hm', hlt, he', hmantissa, hexponent⟩ :=
      second_shift (Nat.pos_of_ne_zero hzero) (e := e + k) (by omega)
    have hround : roundWithAccuracy Format.binary64 s m e .exact = .finite s m' e' hm' := by
      simp [roundWithAccuracy, hshift, hmantissa, hexponent, hm'.ne']
    rw [hround, pack_finite_beq_zero s hm' hlt he']
    exact iff_of_false (by decide) hzero

-- Two finite floats whose product is at most half of the least float above zero.
def ProductVanishes (x y : Float) : Prop :=
  ∃ a b, (exact x).magnitude? = some a ∧ (exact y).magnitude? = some b ∧ a * b ≤ 2 ^ (-1075 : ℤ)

theorem mul_beq_zero_iff (x y : Float) : (x * y == 0.0) = true ↔ ProductVanishes x y := by
  have hzero : ∀ s, ((⟨Float.Model.pack (.zero s)⟩ : Float) == 0.0) = true := pack_zero_beq_zero
  have hinfinity : ∀ s, ((⟨Float.Model.pack (.infinity s)⟩ : Float) == 0.0) = false := by
    intro s
    cases s <;> decide
  have hnan : ((⟨Float.Model.pack .notANumber⟩ : Float) == 0.0) = false := by decide
  rw [ProductVanishes, magnitude?_exact, magnitude?_exact, mul_eq_pack]
  cases x.toModel.unpack with
  | infinity s => cases y.toModel.unpack <;> simp [UnpackedFloat.mul, hinfinity, hnan]
  | notANumber => simp [UnpackedFloat.mul, hnan]
  | zero s => cases y.toModel.unpack <;> simp [UnpackedFloat.mul, hzero, hnan]
  | finite s m e hm =>
    cases y.toModel.unpack with
    | infinity t => simp [UnpackedFloat.mul, hinfinity]
    | notANumber => simp [UnpackedFloat.mul, hnan]
    | zero t => simp [UnpackedFloat.mul, hzero]
    | finite t n f hn =>
      have hproduct : ((m * n : Nat) : ℚ) * 2 ^ (e + f) = m * 2 ^ e * (n * 2 ^ f) := by
        rw [zpow_add₀ (by norm_num), Nat.cast_mul]
        ring
      rw [UnpackedFloat.mul, pack_round_beq_zero_iff _ (Nat.mul_pos hm hn), hproduct]
      simp

end Reckon.Number
