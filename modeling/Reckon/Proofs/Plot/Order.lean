import Reckon.Proofs.Plot.Marks

namespace Reckon.Tic

open Number

section Steps

variable {w : Float} {ω : ℚ}

theorem exists_value_ofInt {step : Int} {u : ℚ} (hu : value? (labelAt w step) = some u) :
    ∃ r, value? (Float.ofInt step) = some r := by
  refine Option.ne_none_iff_exists'.mp fun hnone => ?_
  exact Option.some_ne_none u (hu.symm.trans (value?_mul_eq_none hnone))

variable (hw : value? w = some ω) (hω : 0 < ω)
include hw hω

-- Steps that are rounded to the same float have the same label.
theorem label_le_label {step next : Int} {u v : ℚ} (hu : value? (labelAt w step) = some u)
    (hv : value? (labelAt w next) = some v) (hlt : step < next) : u ≤ v := by
  obtain ⟨r, hr⟩ := exists_value_ofInt hu
  obtain ⟨s, hs⟩ := exists_value_ofInt hv
  have hrs : r ≤ s := (rounds_ofInt step).mono (rounds_ofInt next) hr hs (by exact_mod_cast hlt)
  rcases hrs.lt_or_eq with hlt' | rfl
  · exact (rounds_labelAt hw hr).mono (rounds_labelAt hw hs) hu hv (by gcongr)
  · have hne : r ≠ 0 := by
      rintro rfl
      have hzero := eq_zero_of_ofInt hr (by norm_num)
      have hzero' := eq_zero_of_ofInt hs (by norm_num)
      omega
    have hsame : Float.ofInt step = Float.ofInt next := eq_of_value hr hs hne
    have hlabel : labelAt w step = labelAt w next := congrArg (· * w) hsame
    rw [hlabel, hv, Option.some_inj] at hu
    exact hu.ge

-- The power of two below the width is the unit that labels are rounded to, up to `2 ^ 53` of them.
theorem exists_unit : ∃ e : ℤ, -1074 ≤ e ∧ (2 : ℚ) ^ e ≤ ω ∧ ω < 2 ^ (e + 1) := by
  have hlow := Int.zpow_log_le_self (b := 2) (by norm_num) hω
  have hhigh := Int.lt_zpow_succ_log_self (b := 2) (by norm_num) ω
  push_cast at hlow hhigh
  have hleast := ((representable_of_value hw).least_le hω).trans_lt hhigh
  rw [zpow_lt_zpow_iff_right₀ (by norm_num)] at hleast
  exact ⟨Int.log 2 ω, by omega, hlow, hhigh⟩

-- In this range the number of a step is exact.
theorem exact_step {e : ℤ} (he : -1074 ≤ e) (hunit : 2 ^ e ≤ ω) {step : Int} {u : ℚ}
    (hu : value? (labelAt w step) = some u) (hclose : |u| < 2 ^ 53 * 2 ^ e) :
    |step| ≤ 2 ^ 53 ∧ Rounds (step * ω) (labelAt w step) ∧ |step * ω - u| ≤ 2 ^ e / 2 := by
  obtain ⟨r, hr⟩ := exists_value_ofInt hu
  have hrounds := rounds_labelAt hw hr
  have hproduct := hrounds.abs_lt_of_abs_lt hu (representable_next he) hclose
  have hlast : |r| < 2 ^ 53 := by
    rw [abs_mul, abs_of_pos hω] at hproduct
    refine lt_of_mul_lt_mul_right (hproduct.trans_le ?_) hω.le
    gcongr
  have hstep := (rounds_ofInt step).abs_lt_of_abs_lt hr
    (representable_intCast (n := 2 ^ 53) (by norm_num)) (by exact_mod_cast hlast)
  have hstep' : |step| < 2 ^ 53 := by exact_mod_cast hstep
  obtain rfl : (step : ℚ) = r := Option.some_inj.mp ((value?_ofInt hstep'.le).symm.trans hr)
  exact ⟨hstep'.le, hrounds, hrounds.near_unit hu he hproduct.le⟩

-- Labels that are rounded by half a unit each can only meet if the width is a unit, and then they
-- are not rounded.
theorem label_lt_label {step next : Int} {u v : ℚ} (hu : value? (labelAt w step) = some u)
    (hv : value? (labelAt w next) = some v) (hlt : step < next) (hclose : |u| ≤ 2 ^ 52 * ω) :
    u < v := by
  refine lt_of_le_of_ne (label_le_label hw hω hu hv hlt) ?_
  rintro rfl
  obtain ⟨e, he, hunit, hnext⟩ := exists_unit hw hω
  have hclose' : |u| < 2 ^ 53 * 2 ^ e := by
    rw [zpow_add_one₀ two_ne_zero] at hnext
    linarith
  obtain ⟨hstep, hrounds, hnear⟩ := exact_step hw hω he hunit hu hclose'
  obtain ⟨hstep', hrounds', hnear'⟩ := exact_step hw hω he hunit hv hclose'
  have hgap : (step : ℚ) + 1 ≤ next := by exact_mod_cast hlt
  obtain rfl : ω = 2 ^ e := by
    rw [abs_le] at hnear hnear'
    nlinarith
  have hexact := hrounds.near hu (representable_of_le hstep he)
  have hexact' := hrounds'.near hv (representable_of_le hstep' he)
  rw [sub_self, abs_zero, abs_nonpos_iff, sub_eq_zero] at hexact hexact'
  have heq := mul_right_cancel₀ hω.ne' (hexact.trans hexact'.symm)
  exact hlt.ne (by exact_mod_cast heq)

end Steps

-- Steps far from zero

section Far

-- The nearer of two numbers lies on the same side of their middle.
theorem middle_of_near {v r s : ℚ} (hlt : r < s) :
    (|v - s| ≤ |v - r| → r + s ≤ 2 * v) ∧ (|v - r| ≤ |v - s| → 2 * v ≤ r + s) := by
  have hpos := sub_pos.mpr hlt
  rw [← sq_le_sq, ← sq_le_sq]
  constructor <;> intro h <;> nlinarith

-- From `2 ^ 54` on, floats are multiples of four.
theorem exists_multiple_of_ofInt {step : Int} {r : ℚ} (hr : value? (Float.ofInt step) = some r)
    (hfar : (2 : ℚ) ^ 54 ≤ |(step : ℚ)|) : ∃ n : ℤ, r = n * 4 := by
  have hlarge : 2 ^ 53 * 2 ^ (1 : ℤ) ≤ |r| :=
    (rounds_ofInt step).le_abs_of_le_abs hr (representable_next (by norm_num))
      (hfar.trans' (by norm_num))
  obtain ⟨n, hn⟩ := (representable_of_value hr).exists_multiple_of_le hlarge
  exact ⟨n, by rw [hn]; norm_num⟩

-- Where steps that follow on each other are rounded to different floats, they lie on both sides of
-- the middle.
theorem ofInt_apart {step : Int} {r s : ℚ} (hr : value? (Float.ofInt step) = some r)
    (hs : value? (Float.ofInt (step + 1)) = some s) (hfar : (2 : ℚ) ^ 54 ≤ |(step : ℚ)|)
    (hfar' : (2 : ℚ) ^ 54 ≤ |((step + 1 : ℤ) : ℚ)|) (hne : r ≠ s) :
    r ≤ step - 1 ∧ step + 2 ≤ s := by
  have hlt : r < s := lt_of_le_of_ne
    ((rounds_ofInt step).mono (rounds_ofInt (step + 1)) hr hs (by push_cast; linarith)) hne
  have hgap : r + 4 ≤ s := by
    obtain ⟨n, rfl⟩ := exists_multiple_of_ofInt hr hfar
    obtain ⟨m, rfl⟩ := exists_multiple_of_ofInt hs hfar'
    have hnm : (n : ℚ) < m := by linarith
    have hnm' : (n : ℚ) + 1 ≤ m := by exact_mod_cast hnm
    linarith
  have hbelow := (middle_of_near hlt).2 ((rounds_ofInt step).near hr (representable_of_value hs))
  have habove := (middle_of_near hlt).1
    ((rounds_ofInt (step + 1)).near hs (representable_of_value hr))
  push_cast at habove
  constructor <;> linarith

variable {first step : Int} (hfar : 2 ^ 55 ≤ |first|) (hrange : |first| ≤ 2 ^ 62)
include hfar hrange

theorem exists_value_step (hstep : |step - first| ≤ labelLimit) :
    (2 : ℚ) ^ 54 ≤ |(step : ℚ)| ∧ ∃ r, value? (Float.ofInt step) = some r := by
  rw [labelLimit, abs_le] at hstep
  rw [le_abs] at hfar
  rw [abs_le] at hrange
  have hlow : 2 ^ 54 ≤ |step| := by
    rw [le_abs]
    omega
  have hhigh : |step| ≤ 2 ^ 63 := by
    rw [abs_le]
    omega
  have hhigh' : |(step : ℚ)| ≤ 2 ^ 53 * 2 ^ (10 : ℤ) := by
    norm_num
    exact_mod_cast hhigh
  obtain ⟨r, hr, -⟩ := (rounds_ofInt step).exists_near_unit (by norm_num) (by norm_num) hhigh'
  exact ⟨by exact_mod_cast hlow, r, hr⟩

-- The next step has the same label, or the two steps are rounded away from each other.
theorem label_eq_next (w : Float) (hstep : |step - first| < labelLimit) {r : ℚ}
    (hr : value? (Float.ofInt step) = some r) :
    labelAt w step = labelAt w (step + 1) ∨
      r ≤ step - 1 ∧ ∃ s, value? (Float.ofInt (step + 1)) = some s ∧ step + 2 ≤ s := by
  have hnext : |step + 1 - first| ≤ labelLimit := by
    rw [abs_lt] at hstep
    rw [abs_le]
    omega
  obtain ⟨hlarge, -⟩ := exists_value_step hfar hrange hstep.le
  obtain ⟨hlarge', s, hs⟩ := exists_value_step hfar hrange hnext
  by_cases hrs : r = s
  · subst hrs
    have hne : r ≠ 0 := by
      rintro rfl
      rw [eq_zero_of_ofInt hr (by norm_num)] at hlarge
      norm_num at hlarge
    have hsame : Float.ofInt step = Float.ofInt (step + 1) := eq_of_value hr hs hne
    exact .inl (congrArg (· * w) hsame)
  · obtain ⟨hbelow, habove⟩ := ofInt_apart hr hs hlarge hlarge' hrs
    exact .inr ⟨hbelow, s, hs, habove⟩

-- A step has the label of a neighbour: it cannot be rounded away from both. The first step has none
-- before it, but is not rounded.
theorem label_eq_neighbour (w : Float) (hfirst : value? (Float.ofInt first) = some (first : ℚ))
    {i : Nat} (hi : i < labelLimit) : labelAt w (first + i) = labelAt w (first + i + 1) ∨
      ∃ j, i = j + 1 ∧ labelAt w (first + j) = labelAt w (first + i) := by
  cases i with
  | zero =>
    rcases label_eq_next hfar hrange w (by simp [labelLimit]) hfirst with h | ⟨hbelow, -⟩
    · exact .inl (by simpa using h)
    · linarith
  | succ j =>
    have hstep : |first + j - first| ≤ labelLimit := by
      rw [abs_le]
      omega
    obtain ⟨-, r, hr⟩ := exists_value_step hfar hrange hstep
    rcases label_eq_next hfar hrange w (by rw [abs_lt]; omega) hr with h | ⟨-, s, hs, habove⟩
    · exact .inr ⟨j, rfl, by simpa [add_assoc] using h⟩
    · rcases label_eq_next hfar hrange w (by rw [abs_lt]; omega) hs with h | ⟨hbelow, -⟩
      · exact .inl (by simpa [add_assoc] using h)
      · push_cast at hbelow habove
        linarith

end Far

section Marks

variable {screen area : Interval Float} {w : Float} {a b ω : ℚ} {whole : List Float}

theorem Spanned.abs_label_le (h : Spanned area w a b ω) {label : Float} {u : ℚ}
    (hu : value? label = some u) (hin : area.lo ≤ label ∧ label < area.hi)
    (hclose : |a| ≤ 2 ^ 52 * ω ∧ |b| ≤ 2 ^ 52 * ω) : |u| ≤ 2 ^ 52 * ω := by
  have hlow := (le_iff_value h.lo hu).mp hin.1
  have hhigh := (lt_iff_value hu h.hi).mp hin.2
  exact (abs_le_max_abs_abs hlow hhigh.le).trans (max_le hclose.1 hclose.2)

-- From zero, an end that is far away would make the interval too long for the width.
theorem Spanned.apart_of_far (h : Spanned area w a b ω) (hfar : 2 ^ 55 * ω ≤ |a|) :
    0 < a ∨ b < 0 := by
  by_contra hsign
  rw [not_or, not_lt, not_lt] at hsign
  rw [abs_of_nonpos hsign.1] at hfar
  linarith [h.length_le, h.pos]

-- A quotient of this size is a whole number.
theorem Spanned.exists_far_start (h : Spanned area w a b ω) (hfar : 2 ^ 55 * ω ≤ |a|) :
    ∃ first : Int, value? (area.lo / w) = some (first : ℚ) ∧ 2 ^ 55 ≤ |first| ∧
      |first| ≤ 2 ^ 62 := by
  obtain ⟨start, hstart, hnear, hquotient⟩ := h.exists_start (h.apart_of_far hfar)
  have hlarge : 2 ^ 53 * 2 ^ (2 : ℤ) ≤ |start| := by
    refine (rounds_div h.lo h.width h.pos.ne').le_abs_of_le_abs hstart
      (representable_next (by norm_num)) ?_
    rw [abs_div, abs_of_pos h.pos, le_div_iff₀ h.pos]
    exact hfar.trans' (by norm_num)
  obtain ⟨first, rfl⟩ : ∃ n : ℤ, start = n := by
    obtain ⟨n, hn⟩ := (representable_of_value hstart).exists_multiple_of_le (e := -1)
      (hlarge.trans' (by norm_num))
    exact ⟨n, by simpa using hn⟩
  have hhigh : |(first : ℚ)| ≤ 2 ^ 62 := by
    rw [abs_le] at hquotient hnear ⊢
    constructor <;> linarith
  norm_num at hlarge
  exact ⟨first, hstart, by exact_mod_cast hlarge, by exact_mod_cast hhigh⟩

-- So the labels are counted from a first one, and its step is not rounded.
theorem Spanned.exists_far_ladder (h : Spanned area w a b ω) (hfar : 2 ^ 55 * ω ≤ |a|)
    (hwhole : labels labelLimit w area = .ok (some whole)) :
    ∃ first : Int, ∃ n < labelLimit, 2 ^ 55 ≤ |first| ∧ |first| ≤ 2 ^ 62 ∧
      value? (Float.ofInt first) = some (first : ℚ) ∧ whole = ladder w 1 first n ∧
      area.hi ≤ labelAt w (first + n) := by
  obtain ⟨first, hfirst, hlow, hhigh⟩ := h.exists_far_start hfar
  have hholds : ¬area.holds 0.0 = true := by
    rw [holds_zero_iff h.lo h.hi]
    rcases h.apart_of_far hfar with hpos | hneg
    · exact fun hle => hpos.not_ge hle.1
    · exact fun hle => hneg.not_ge hle.2
  have hceil : Scale.ceil (area.lo / w) = .ok first := by
    have hceil := ceil_exact hfirst
    rwa [Int.ceil_intCast] at hceil
  rw [labels, ofInt_zero, if_neg hholds, hceil, ok_bind] at hwhole
  obtain ⟨n, hn, rfl, -, hlast⟩ := labelsFrom_eq_some.mp (Except.ok.inj hwhole)
  exact ⟨first, n, hn, hlow, hhigh, (rounds_ofInt first).value_eq (representable_of_value hfirst)
    (abs_lt_ceiling hfirst), rfl, by simpa using hlast⟩

theorem Spanned.not_nodup (h : Spanned area w a b ω) (hfar : 2 ^ 55 * ω ≤ |a|)
    (hwhole : labels labelLimit w area = .ok (some whole))
    (hne : placed screen area whole ≠ []) :
    ¬((placed screen area whole).map Tic.label).Nodup := by
  obtain ⟨first, n, hn, hlow, hhigh, hfirst, rfl, hlast⟩ := h.exists_far_ladder hfar hwhole
  rw [ne_eq, ← List.map_eq_nil_iff (f := Tic.label), label_placed] at hne
  obtain ⟨label, hlabel⟩ := List.exists_mem_of_ne_nil _ hne
  obtain ⟨hmem, hin⟩ := List.mem_filter.mp hlabel
  obtain ⟨i, hi, rfl⟩ := mem_ladder.mp hmem
  rw [mul_one] at hin
  -- the label is seen at two steps, and at none behind the last one
  obtain ⟨j, hj, hsame, hat⟩ : ∃ j, j + 1 < n ∧
      labelAt w (first + j) = labelAt w (first + (j + 1 : Nat)) ∧
      labelAt w (first + j) = labelAt w (first + i) := by
    rcases label_eq_neighbour hlow hhigh w hfirst (hi.trans hn) with hnext | ⟨j, rfl, hprevious⟩
    · refine ⟨i, lt_of_le_of_ne hi ?_, by simpa [add_assoc] using hnext, rfl⟩
      rintro rfl
      have hin' := of_decide_eq_true hin
      obtain ⟨u, hu⟩ := exists_value_of_between h.lo h.hi hin'
      rw [Nat.cast_succ, ← add_assoc, ← hnext, le_iff_value h.hi hu] at hlast
      exact ((lt_iff_value hu h.hi).mp hin'.2).not_ge hlast
    · exact ⟨j, hi, hprevious, hprevious⟩
  intro hnodup
  rw [label_placed, List.Nodup, List.pairwise_filter, pairwise_ladder] at hnodup
  have hdifferent := hnodup j (j + 1) (by omega) hj
  rw [mul_one, mul_one, ← hsame, hat] at hdifferent
  exact hdifferent hin hin rfl

-- The labels ascend and lie in the interval, each with the position that it is projected to. Within
-- `2 ^ 52` widths of zero they are different; from `2 ^ 55` widths on one of them is listed twice.
theorem marks_ordered {decades : Decades} (hclose : decades.Close) {tics : List (Tic Float)}
    (h : marks decades screen area = .ok tics) :
    (∀ tic ∈ tics, area.lo ≤ tic.label ∧ tic.label < area.hi ∧
      area.project tic.label screen = some tic.pos) ∧
    (tics.map Tic.label).Pairwise (· ≤ ·) ∧
    ∃ w ω a b, width decades area.length = .ok w ∧ value? w = some ω ∧ value? area.lo = some a ∧
      value? area.hi = some b ∧
      (|a| ≤ 2 ^ 52 * ω ∧ |b| ≤ 2 ^ 52 * ω → (tics.map Tic.label).Pairwise (· < ·)) ∧
      (2 ^ 55 * ω ≤ |a| → tics ≠ [] → ¬(tics.map Tic.label).Nodup) := by
  obtain ⟨whole, hwhole, rfl⟩ := marks_eq_ok.mp h
  obtain ⟨w, a, b, ω, hwidth, hspanned, hlabels⟩ := exists_spanned_of_labelsOf hclose hwhole
  obtain ⟨first, n, rfl⟩ := exists_ladder hlabels
  have hfinite : ∀ label : Float, decide (area.lo ≤ label ∧ label < area.hi) = true →
      (area.lo ≤ label ∧ label < area.hi) ∧ ∃ u, value? label = some u := fun label hin =>
    ⟨of_decide_eq_true hin, exists_value_of_between hspanned.lo hspanned.hi (of_decide_eq_true hin)⟩
  refine ⟨fun tic htic => ?_, ?_, w, ω, a, b, hwidth, hspanned.width, hspanned.lo, hspanned.hi,
    fun hclose => ?_, fun hfar => hspanned.not_nodup hfar hlabels⟩
  · obtain ⟨-, hpos⟩ := (mem_placed ..).mp htic
    have hin : area.lo ≤ tic.label ∧ tic.label < area.hi := by
      by_contra hout
      simp [Interval.project, hout] at hpos
    exact ⟨hin.1, hin.2, hpos⟩
  · rw [label_placed, List.pairwise_filter, pairwise_ladder]
    intro i j hij _ hi hj
    obtain ⟨-, u, hu⟩ := hfinite _ hi
    obtain ⟨-, v, hv⟩ := hfinite _ hj
    exact (le_iff_value hu hv).mpr
      (label_le_label hspanned.width hspanned.pos hu hv (by omega))
  · rw [label_placed, List.pairwise_filter, pairwise_ladder]
    intro i j hij _ hi hj
    obtain ⟨hin, u, hu⟩ := hfinite _ hi
    obtain ⟨-, v, hv⟩ := hfinite _ hj
    exact (lt_iff_value hu hv).mpr (label_lt_label hspanned.width hspanned.pos hu hv (by omega)
      (hspanned.abs_label_le hu hin hclose))

theorem marks_ordered_units : ∃ tics, marks .standard ⟨0.0, 10.0⟩ ⟨1.0, 5.0⟩ = .ok tics ∧
    (tics.map Tic.label).Pairwise (· < ·) := by
  have hsome : (marks .standard ⟨0.0, 10.0⟩ ⟨1.0, 5.0⟩).toOption.isSome = true := by decide +kernel
  obtain ⟨tics, htics⟩ := Option.isSome_iff_exists.mp hsome
  obtain ⟨-, -, w, ω, a, b, hwidth, hω, ha, hb, hstrict, -⟩ :=
    marks_ordered Decades.standard_close (toOption_eq_some.mp htics)
  have hone : width .standard (⟨1.0, 5.0⟩ : Interval Float).length = .ok 1.0 :=
    toOption_eq_some.mp (by decide +kernel)
  obtain rfl : 1.0 = w := Except.ok.inj (hone.symm.trans hwidth)
  obtain rfl : 1 = ω := Option.some_inj.mp (value?_one.symm.trans hω)
  obtain rfl : 1 = a := Option.some_inj.mp (value?_one.symm.trans ha)
  have hfive : value? 5.0 = some 5 := by decide +kernel
  obtain rfl : 5 = b := Option.some_inj.mp (hfive.symm.trans hb)
  exact ⟨tics, toOption_eq_some.mp htics, hstrict (by norm_num)⟩

-- The interval between two floats above `10 ^ 16`, in which there is no other one.
theorem label_listed_nine_times :
    ∃ tics, marks .standard ⟨0.0, 10.0⟩ ⟨1e16, 10000000000000002.0⟩ = .ok tics ∧
      tics.map Tic.label = List.replicate 9 1e16 ∧ ¬(tics.map Tic.label).Pairwise (· < ·) := by
  have hsome : (marks .standard ⟨0.0, 10.0⟩ ⟨1e16, 10000000000000002.0⟩).toOption.map
      (·.map Tic.label) = some (List.replicate 9 1e16) := by decide +kernel
  obtain ⟨tics, htics, hlabels⟩ := Option.map_eq_some_iff.mp hsome
  refine ⟨tics, toOption_eq_some.mp htics, hlabels, ?_⟩
  rw [hlabels]
  decide +kernel

end Marks

end Reckon.Tic
