import Reckon.Proofs.Plot.Labels
import Reckon.Proofs.Plot.Width

namespace Reckon.Tic

open Number

theorem ofInt_zero : (Scale.ofInt 0 : Float) = 0.0 := rfl

section Steps

variable {w : Float} {ω : ℚ} (hw : value? w = some ω)
include hw

theorem rounds_labelAt {step : Int} {r : ℚ} (hr : value? (Float.ofInt step) = some r) :
    Rounds (r * ω) (labelAt w step) :=
  rounds_mul hr hw

theorem rounds_labelAt_of_le {step : Int} (hstep : |step| ≤ 2 ^ 53) :
    Rounds (step * ω) (labelAt w step) :=
  rounds_labelAt hw (value?_ofInt hstep)

end Steps

-- The numbers of the ends of an interval and of a positive width that spans it in 144 steps.
structure Spanned (area : Interval Float) (w : Float) (a b ω : ℚ) : Prop where
  lo : value? area.lo = some a
  hi : value? area.hi = some b
  lt : a < b
  width : value? w = some ω
  pos : 0 < ω
  length_le : b - a ≤ 144 * ω

section Area

variable {area : Interval Float} {w : Float} {a b ω : ℚ}

theorem holds_zero_iff (hlo : value? area.lo = some a) (hhi : value? area.hi = some b) :
    area.holds 0.0 = true ↔ a ≤ 0 ∧ 0 ≤ b := by
  simp [Interval.holds, le_iff_value hlo value?_zero, le_iff_value value?_zero hhi]

namespace Spanned

variable (h : Spanned area w a b ω)
include h

-- From zero, neither end is farther away than the length.
theorem exists_labelsAroundZero (ha : a ≤ 0) (hb : 0 ≤ b) :
    ∃ whole, labelsAroundZero labelLimit w area = some whole := by
  have hlength := h.length_le
  have hlow : labelAt w (-1 + (143 : Nat) * -1) ≤ area.lo :=
    (rounds_labelAt_of_le h.width (by norm_num)).le_of_le h.lo (by push_cast; linarith)
  have hhigh : area.hi ≤ labelAt w (0 + (144 : Nat) * 1) :=
    (rounds_labelAt_of_le h.width (by norm_num)).ge_of_ge h.hi (by push_cast; linarith)
  obtain ⟨left, hleft⟩ : ∃ left,
      labelsFrom w (fun label => decide (label ≤ area.lo)) (-1) labelLimit (-1) = some left :=
    exists_labelsFrom (by decide) (decide_eq_true hlow)
  obtain ⟨right, hright⟩ : ∃ right,
      labelsFrom w (fun label => decide (area.hi ≤ label)) 1 labelLimit 0 = some right :=
    exists_labelsFrom (by decide) (decide_eq_true hhigh)
  exact ⟨left.reverse ++ right, labelsAroundZero_eq_some.mpr ⟨left, right, hleft, hright, rfl⟩⟩

-- Away from zero, the ends are within `2 ^ 53` lengths of it. That is at most `2 ^ 61` steps, of
-- which the quotient tells all but the last 128.
theorem exists_start (hsign : 0 < a ∨ b < 0) : ∃ start, value? (area.lo / w) = some start ∧
    |a / ω - start| ≤ 128 ∧ |a / ω| ≤ 2 ^ 61 := by
  have hfar : |a| ≤ 2 ^ 53 * (b - a) := by
    have ha := representable_of_value h.lo
    have hb := representable_of_value h.hi
    rcases hsign with hpos | hneg
    · rw [abs_of_pos hpos]
      linarith [ha.gap hb h.lt]
    · rw [abs_of_neg (h.lt.trans hneg)]
      linarith [hb.neg.gap ha.neg (neg_lt_neg h.lt)]
  have hquotient : |a / ω| ≤ 2 ^ 61 := by
    rw [abs_div, abs_of_pos h.pos, div_le_iff₀ h.pos]
    linarith [h.length_le, h.pos]
  obtain ⟨start, hstart, hnear⟩ := (rounds_div h.lo h.width h.pos.ne').exists_near_unit (e := 8)
    (by norm_num) (by norm_num) (hquotient.trans (by norm_num))
  exact ⟨start, hstart, hnear.trans (by norm_num), hquotient⟩

-- Steps of this size are counted in units of up to 512.
theorem exists_reached (hsign : 0 < a ∨ b < 0) : ∃ first, Scale.ceil (area.lo / w) = .ok first ∧
    area.hi ≤ labelAt w (first + (528 : Nat) * 1) := by
  obtain ⟨start, hstart, hnear, hquotient⟩ := h.exists_start hsign
  obtain ⟨first, hfirst⟩ : ∃ n, ⌈start⌉ = n := ⟨_, rfl⟩
  have hlow : start ≤ first := hfirst ▸ Int.le_ceil start
  have hhigh : (first : ℚ) < start + 1 := hfirst ▸ Int.ceil_lt_add_one start
  rw [abs_le] at hquotient hnear
  have hlast : |((first + (528 : Nat) * 1 : ℤ) : ℚ)| ≤ 2 ^ 53 * 2 ^ (9 : ℤ) := by
    rw [abs_le]
    push_cast
    norm_num at hquotient ⊢
    constructor <;> linarith
  obtain ⟨r, hr, hunit⟩ := (rounds_ofInt _).exists_near_unit (by norm_num) (by norm_num) hlast
  have hreached : b ≤ r * ω := by
    have hr' : a / ω + 144 ≤ r := by
      rw [abs_le] at hunit
      push_cast at hunit
      norm_num at hunit
      linarith
    calc b ≤ (a / ω + 144) * ω := by
          rw [add_mul, div_mul_cancel₀ a h.pos.ne']
          linarith [h.length_le]
      _ ≤ r * ω := by
          have := h.pos
          gcongr
  refine ⟨first, ?_, (rounds_labelAt h.width hr).ge_of_ge h.hi hreached⟩
  rw [← hfirst]
  exact ceil_exact hstart

theorem exists_labelsUpward (hsign : 0 < a ∨ b < 0) :
    ∃ first whole, Scale.ceil (area.lo / w) = .ok first ∧
      labelsUpward labelLimit w area first = some whole := by
  obtain ⟨first, hfirst, hreached⟩ := h.exists_reached hsign
  obtain ⟨whole, hwhole⟩ : ∃ whole, labelsUpward labelLimit w area first = some whole :=
    exists_labelsFrom (by decide) (decide_eq_true hreached)
  exact ⟨first, whole, hfirst, hwhole⟩

theorem exists_labels : ∃ whole, labels labelLimit w area = .ok (some whole) := by
  rw [labels, ofInt_zero]
  split_ifs with hholds
  · obtain ⟨ha, hb⟩ := (holds_zero_iff h.lo h.hi).mp hholds
    obtain ⟨whole, hwhole⟩ := h.exists_labelsAroundZero ha hb
    exact ⟨whole, congrArg Except.ok hwhole⟩
  · have hsign : 0 < a ∨ b < 0 := by
      by_contra hsign
      rw [not_or, not_lt, not_lt] at hsign
      exact hholds ((holds_zero_iff h.lo h.hi).mpr hsign)
    obtain ⟨first, whole, hfirst, hwhole⟩ := h.exists_labelsUpward hsign
    exact ⟨whole, by rw [hfirst, ok_bind, hwhole]; rfl⟩

end Spanned

variable {d : ℚ} (hlo : value? area.lo = some a) (hhi : value? area.hi = some b) (hlt : a < b)
include hlo hhi hlt

-- The width spans the exact length as well, which differs from the rounded one by little.
theorem exists_spanned {decades : Decades} (hclose : decades.Close)
    (hd : value? area.length = some d) (hlong : 7 * 2 ^ (-1074 : ℤ) ≤ d) :
    ∃ w ω, width decades area.length = .ok w ∧ Spanned area w a b ω := by
  obtain ⟨w, ω, hwidth, hw, hω, hdω⟩ := exists_width hclose hd (pos_of_sub hlo hhi hlt hd) hlong
  refine ⟨w, ω, hwidth, hlo, hhi, hlt, hw, hω, ?_⟩
  have herror := (rounds_sub hhi hlo).error hd
  have hunit : (2 : ℚ) ^ (-1074 : ℤ) = 2 ^ (-1075 : ℤ) * 2 := zpow_add_one₀ two_ne_zero (-1075)
  rw [abs_of_pos (sub_pos.mpr hlt)] at herror
  linarith [le_abs_self (b - a - d)]

-- Steps of no width reach an end only if it is zero.
theorem labels_zero_width (hholds : area.holds 0.0 = true) {limit : Nat}
    (hlimit : limit ≤ 2 ^ 53) : labels limit 0.0 area = .ok none := by
  have hzero : ∀ step : Int, |step| ≤ 2 ^ 53 → value? (labelAt 0.0 step : Float) = some 0 := by
    intro step hstep
    have hrounds := rounds_labelAt_of_le value?_zero hstep
    rw [mul_zero] at hrounds
    exact hrounds.value_eq representable_zero (abs_lt_ceiling value?_zero)
  rw [labels, ofInt_zero, if_pos hholds]
  congr 1
  rw [Option.eq_none_iff_forall_ne_some]
  intro whole hwhole
  obtain ⟨left, right, hleft, hright, -⟩ := labelsAroundZero_eq_some.mp hwhole
  obtain ⟨n, hn, -, -, hlast⟩ := labelsFrom_eq_some.mp hleft
  obtain ⟨m, hm, -, -, hlast'⟩ := labelsFrom_eq_some.mp hright
  rw [decide_eq_true_iff, le_iff_value (hzero _ (by rw [abs_le]; omega)) hlo] at hlast
  rw [decide_eq_true_iff, le_iff_value hhi (hzero _ (by rw [abs_le]; omega))] at hlast'
  exact hlt.not_ge (hlast'.trans hlast)

end Area

section Marks

variable {decades : Decades} {area : Interval Float}

theorem labelsOf_eq_ok {whole : List Float} : labelsOf decades area = .ok whole ↔
    ∃ w, width decades area.length = .ok w ∧ ((w == 0.0) = true → area.holds 0.0 = true) ∧
      labels labelLimit w area = .ok (some whole) := by
  rw [labelsOf, bind_eq_ok]
  refine exists_congr fun w => and_congr_right fun _ => ?_
  by_cases hdivision : (w == 0.0 && !area.holds 0.0) = true
  · rw [if_pos hdivision]
    simp_all [throw, throwThe, MonadExceptOf.throw]
  · rw [if_neg hdivision]
    have hzero : (w == 0.0) = true → area.holds 0.0 = true := by simpa using hdivision
    rw [and_iff_right hzero]
    cases labels labelLimit w area with
    | error cause => simp [Except.mapError]
    | ok whole? => cases whole? <;>
        simp [Except.mapError, pure, Except.pure, throw, throwThe, MonadExceptOf.throw]

-- Where there are labels, they are multiples of a positive width.
theorem exists_spanned_of_labelsOf (hclose : decades.Close) {whole : List Float}
    (h : labelsOf decades area = .ok whole) :
    ∃ w a b ω, width decades area.length = .ok w ∧ Spanned area w a b ω ∧
      labels labelLimit w area = .ok (some whole) := by
  obtain ⟨w, hwidth, hholds, hwhole⟩ := labelsOf_eq_ok.mp h
  obtain ⟨d, hd, hpos⟩ := exists_value_of_width hwidth
  obtain ⟨b, a, hhi, hlo⟩ := exists_value_of_sub hd
  have hab : a < b := by
    by_contra hle
    have hd0 := (rounds_sub hhi hlo).le hd representable_zero (by linarith)
    exact hpos.not_ge hd0
  have hlong : 7 * 2 ^ (-1074 : ℤ) ≤ d := by
    by_contra hshort
    obtain rfl : 0.0 = w :=
      Except.ok.inj ((width_eq_zero hclose hd hpos (not_le.mp hshort)).symm.trans hwidth)
    have hendless : labels labelLimit 0.0 area = .ok none :=
      labels_zero_width hlo hhi hab (hholds (by decide +kernel)) (by decide)
    simp [hwhole] at hendless
  obtain ⟨w', ω, hwidth', hspanned⟩ := exists_spanned hlo hhi hab hclose hd hlong
  obtain rfl : w' = w := Except.ok.inj (hwidth'.symm.trans hwidth)
  exact ⟨w', a, b, ω, hwidth, hspanned, hwhole⟩

theorem marks_eq_ok {screen : Interval Float} {tics : List (Tic Float)} :
    marks decades screen area = .ok tics ↔
      ∃ whole, labelsOf decades area = .ok whole ∧ placed screen area whole = tics := by
  rw [marks, bind_eq_ok]
  simp [pure, Except.pure]

-- The length settles whether there are marks: from seven times the least float on, the width is
-- positive and all steps to both ends are taken. Below, it is zero: an interval apart from zero
-- starts with a division by it, and in the other ones `2 ^ 53` steps lead nowhere.
theorem marks_by_length (hclose : decades.Close) {d : ℚ} (hlo : area.lo.isFinite = true)
    (hhi : area.hi.isFinite = true) (hlt : area.lo < area.hi) (hd : value? area.length = some d)
    (screen : Interval Float) :
    (7 * 2 ^ (-1074 : ℤ) ≤ d → (∃ w, width decades area.length = .ok w ∧ 0.0 < w) ∧
      ∃ tics, marks decades screen area = .ok tics) ∧
    (d < 7 * 2 ^ (-1074 : ℤ) → width decades area.length = .ok 0.0 ∧
      (area.holds 0.0 = false → marks decades screen area = .error .zeroWidth) ∧
      (area.holds 0.0 = true → marks decades screen area = .error .endless ∧
        ∀ limit ≤ 2 ^ 53, labels limit 0.0 area = .ok none)) := by
  obtain ⟨a, ha⟩ := Option.isSome_iff_exists.mp ((isSome_value? _).mpr hlo)
  obtain ⟨b, hb⟩ := Option.isSome_iff_exists.mp ((isSome_value? _).mpr hhi)
  have hab : a < b := (lt_iff_value ha hb).mp hlt
  constructor
  · intro hlong
    obtain ⟨w, ω, hwidth, h⟩ := exists_spanned ha hb hab hclose hd hlong
    obtain ⟨whole, hwhole⟩ := h.exists_labels
    have hpos : ¬(w == 0.0) = true := by
      rw [beq_zero_iff_value h.width]
      exact h.pos.ne'
    exact ⟨⟨w, hwidth, (lt_iff_value value?_zero h.width).mpr h.pos⟩, _,
      marks_eq_ok.mpr ⟨whole, labelsOf_eq_ok.mpr ⟨w, hwidth, (absurd · hpos), hwhole⟩, rfl⟩⟩
  · intro hshort
    have hwidth := width_eq_zero hclose hd (pos_of_sub ha hb hab hd) hshort
    have hzero : ((0.0 : Float) == 0.0) = true := by decide +kernel
    refine ⟨hwidth, fun hholds => ?_, fun hholds => ⟨?_, fun limit hlimit =>
      labels_zero_width ha hb hab hholds hlimit⟩⟩
    · rw [marks, labelsOf, hwidth, ok_bind]
      simp [hzero, hholds, throw, throwThe, MonadExceptOf.throw]
    · have hendless : labels labelLimit 0.0 area = .ok none :=
        labels_zero_width ha hb hab hholds (by decide)
      rw [marks, labelsOf, hwidth, ok_bind]
      simp [hholds, hendless, Except.mapError, throw, throwThe, MonadExceptOf.throw]

theorem marks_by_length_least :
    (∃ tics, marks .standard ⟨0.0, 10.0⟩ ⟨0.0, 1.0⟩ = .ok tics) ∧
      marks .standard ⟨0.0, 10.0⟩ ⟨0.0, 5e-324⟩ = .error .endless := by
  have hone : value? (⟨0.0, 1.0⟩ : Interval Float).length = some 1 := by decide +kernel
  have hleast : value? (⟨0.0, 5e-324⟩ : Interval Float).length = some (2 ^ (-1074 : ℤ)) := by
    decide +kernel
  have hlong := (marks_by_length Decades.standard_close (by decide +kernel) (by decide +kernel)
    (by decide +kernel) hone ⟨0.0, 10.0⟩).1 (by decide +kernel)
  have hshort := (marks_by_length Decades.standard_close (by decide +kernel) (by decide +kernel)
    (by decide +kernel) hleast ⟨0.0, 10.0⟩).2 (by decide +kernel)
  exact ⟨hlong.2, (hshort.2.2 (by decide +kernel)).1⟩

-- The interval from the least float to twice the least float: the division by the width fails.
theorem least_interval_unmarked :
    (5e-324 : Float) < 1e-323 ∧ (⟨5e-324, 1e-323⟩ : Interval Float).length.isFinite = true ∧
      ∀ tics, marks .standard ⟨0.0, 10.0⟩ ⟨5e-324, 1e-323⟩ ≠ .ok tics := by
  refine ⟨by decide +kernel, by decide +kernel, fun tics htics => ?_⟩
  have hnone : (marks .standard ⟨0.0, 10.0⟩ ⟨5e-324, 1e-323⟩).toOption.isNone = true := by
    decide +kernel
  simp [htics, Except.toOption] at hnone

end Marks

end Reckon.Tic
