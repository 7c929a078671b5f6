import Reckon.Proofs.Plot.Order
import Reckon.Proofs.Plot.Samples

namespace Reckon

open Number Float.Model Float.Model.UnpackedFloat

namespace Tic

section Zero

variable {screen area : Interval Float} {w : Float} {a b ω : ℚ} (h : Spanned area w a b ω)
include h

-- Zero times a positive number has the sign of the former.
theorem Spanned.labelAt_zero : labelAt w 0 = 0.0 := by
  have hmul : labelAt w 0 = (0.0 : Float) * w := rfl
  rw [hmul, mul_eq_pack, unpack_zero]
  have hpos := h.pos
  cases form_of_value h.width with
  | zero _ => exact absurd hpos (lt_irrefl 0)
  | @finite s m e hm hu _ =>
    rw [hu]
    cases s with
    | positive => rfl
    | negative =>
      have hneg : (0 : ℚ) < m * 2 ^ e := by positivity
      simp only [Sign.apply, Int.cast_neg, Int.cast_natCast] at hpos
      linarith

-- No other step is rounded to zero.
theorem Spanned.labelAt_beq_zero_iff {step : Int} :
    (labelAt w step == 0.0) = true ↔ step = 0 := by
  constructor
  · intro hzero
    have hlabel := value_of_beq_zero hzero
    obtain ⟨r, hr⟩ := exists_value_ofInt hlabel
    have hproduct := (rounds_labelAt h.width hr).abs_lt_of_abs_lt hlabel
      (representable_of_value h.width) (by simpa using h.pos)
    rw [abs_mul, abs_of_pos h.pos, mul_lt_iff_lt_one_left h.pos] at hproduct
    exact eq_zero_of_ofInt hr hproduct
  · rintro rfl
    rw [h.labelAt_zero]
    decide +kernel

-- So zero is listed once, between the labels to its left and those to its right.
theorem Spanned.filter_labels (ha : a ≤ 0) (hb : 0 < b) {whole : List Float}
    (hwhole : labels labelLimit w area = .ok (some whole)) :
    (whole.filter fun label => label == 0.0) = [0.0] := by
  rw [labels, ofInt_zero, if_pos ((holds_zero_iff h.lo h.hi).mpr ⟨ha, hb.le⟩)] at hwhole
  obtain ⟨left, right, hleft, hright, rfl⟩ :=
    labelsAroundZero_eq_some.mp (Except.ok.inj hwhole)
  obtain ⟨n, -, rfl, -⟩ := labelsFrom_eq_some.mp hleft
  obtain ⟨m, -, rfl, -, hlast⟩ := labelsFrom_eq_some.mp hright
  have hnone : ∀ (stride step : Int) (k : Nat), (∀ i < k, step + (i : Nat) * stride ≠ 0) →
      (ladder w stride step k).filter (fun label => label == 0.0) = [] := by
    intro stride step k hne
    rw [List.filter_eq_nil_iff]
    intro label hlabel hzero
    obtain ⟨i, hi, rfl⟩ := mem_ladder.mp hlabel
    exact hne i hi (h.labelAt_beq_zero_iff.mp hzero)
  cases m with
  | zero =>
    -- the upper end is not zero
    rw [Nat.cast_zero, zero_mul, add_zero, h.labelAt_zero, decide_eq_true_iff,
      le_iff_value h.hi value?_zero] at hlast
    exact absurd hb hlast.not_gt
  | succ m =>
    have hleft' := hnone (-1) (-1) n fun i _ => by omega
    have hright' := hnone 1 (0 + 1) m fun i _ => by omega
    rw [ladder_succ, List.filter_append, List.filter_reverse, hleft', List.filter_cons, hright',
      if_pos (h.labelAt_beq_zero_iff.mpr rfl), h.labelAt_zero]
    rfl

end Zero

theorem filter_marks {decades : Decades} (hclose : decades.Close) {screen area : Interval Float}
    {tics : List (Tic Float)} {pos : Float} (htics : marks decades screen area = .ok tics)
    (hpos : area.project 0.0 screen = some pos) :
    (tics.filter fun tic => tic.label == 0.0) = [⟨pos, 0.0⟩] := by
  obtain ⟨whole, hwhole, rfl⟩ := marks_eq_ok.mp htics
  obtain ⟨w, a, b, ω, -, h, hlabels⟩ := exists_spanned_of_labelsOf hclose hwhole
  have hin : area.lo ≤ 0.0 ∧ 0.0 < area.hi := by
    by_contra hout
    simp [Interval.project, hout] at hpos
  rw [le_iff_value h.lo value?_zero, lt_iff_value value?_zero h.hi] at hin
  rw [filter_placed screen area whole (· == 0.0), h.filter_labels hin.1 hin.2 hlabels]
  simp [placed, hpos]

end Tic

theorem Axis.filter_tics {decades : Decades} (hclose : decades.Close)
    {screen area : Interval Float} {axis : Axis}
    (h : Axis.create decades (area.project 0.0 screen) screen area = .ok (some axis)) :
    (axis.tics.filter fun tic => tic.label == 0.0) = [⟨axis.pos, 0.0⟩] := by
  cases hpos : area.project 0.0 screen with
  | none => simp [Axis.create, hpos] at h
  | some pos =>
    rw [hpos, Axis.create] at h
    obtain ⟨tics, htics, haxis⟩ := bind_eq_ok.mp h
    obtain rfl := Option.some_inj.mp (Except.ok.inj haxis)
    exact Tic.filter_marks hclose htics hpos

namespace Plot

section Crossing

variable {decades : Decades} {g : Graph Float} {store : Store Float} {limit : Nat}
  {area screen : Area} {p : Plot}

theorem axes_of_create (h : create decades g store limit area screen = .ok p) :
    Axis.create decades (area.y.project 0.0 screen.y) screen.y area.y = .ok p.xAxis ∧
      Axis.create decades (area.x.project 0.0 screen.x) screen.x area.x = .ok p.yAxis := by
  obtain ⟨first, -, h⟩ := bind_eq_ok.mp h
  obtain ⟨last, -, h⟩ := bind_eq_ok.mp h
  obtain ⟨points, -, h⟩ := bind_eq_ok.mp h
  obtain ⟨xAxis, hxAxis, h⟩ := bind_eq_ok.mp h
  obtain ⟨yAxis, hyAxis, h⟩ := bind_eq_ok.mp h
  obtain rfl := Except.ok.inj h
  exact ⟨hxAxis, hyAxis⟩

-- The mark of zero on the x axis' interval is drawn over the y axis.
theorem character_crossing {x y : Axis} {r c : Nat} (hx : p.xAxis = some x) (hy : p.yAxis = some y)
    (hrow : p.rowOf x.pos = .ok r) (hcolumn : p.columnOf y.pos = .ok c)
    (hmark : ∃ tic ∈ x.tics, tic.pos = x.pos) :
    p.character r c = if p.sampleRow? c = some (r : Int) then '*' else '+' := by
  have haxis : p.axisColumn? = some (c : Int) := by
    rw [axisColumn?, hy, Option.bind_some, (p.columnOf_eq_ok y.pos c).mp hcolumn]
  have hmarked : (r : Int) ∈ p.markedRows := by
    obtain ⟨tic, htic, hpos⟩ := hmark
    rw [markedRows, hx]
    exact List.mem_filterMap.mpr ⟨tic, htic, hpos ▸ (p.rowOf_eq_ok x.pos r).mp hrow⟩
  rw [character, if_pos haxis, if_pos hmarked]

theorem exists_line {lines : List String} {rows r c : Nat} (hrows : p.rowCount = .ok rows)
    (hlines : p.lines = .ok lines) (hr : r < rows) (hc : c < p.columnCount) :
    ∃ line, lines[rows - 1 - r]? = some line ∧ line.toList[c]? = some (p.character r c) := by
  rw [lines_eq hrows (by omega) hlines]
  refine ⟨String.ofList ((List.range p.columnCount).map (p.character r)), ?_, ?_⟩
  · rw [List.getElem?_map, List.getElem?_reverse (by simpa using by omega), List.length_range,
      List.getElem?_range (by omega), Option.map_some,
      show rows - 1 - (rows - 1 - r) = r by omega]
  · rw [String.toList_ofList, List.getElem?_map, List.getElem?_range hc, Option.map_some]

-- Each axis has one mark with the label zero, at its own position. Where both axes are on the
-- screen, the cell in which they cross shows this mark, unless there is a sample in it.
theorem crossing_marked (hclose : decades.Close)
    (hcreate : create decades g store limit area screen = .ok p) {text : String}
    (hrender : p.render = .ok text) :
    (∀ axis, p.xAxis = some axis ∨ p.yAxis = some axis →
      (axis.tics.filter fun tic => tic.label == 0.0) = [⟨axis.pos, 0.0⟩]) ∧
    ∃ lines rows, p.lines = .ok lines ∧ text = "\n".intercalate lines ∧ p.rowCount = .ok rows ∧
      ∀ (x y : Axis) (r c : Nat), p.xAxis = some x → p.yAxis = some y →
        p.rowOf x.pos = .ok r → p.columnOf y.pos = .ok c → r < rows → c < p.columnCount →
        ∃ line, lines[rows - 1 - r]? = some line ∧
          line.toList[c]? = some (if p.sampleRow? c = some (r : Int) then '*' else '+') := by
  obtain ⟨hxAxis, hyAxis⟩ := axes_of_create hcreate
  have hzero : ∀ axis, p.xAxis = some axis ∨ p.yAxis = some axis →
      (axis.tics.filter fun tic => tic.label == 0.0) = [⟨axis.pos, 0.0⟩] := by
    rintro axis (haxis | haxis)
    · exact Axis.filter_tics hclose (haxis ▸ hxAxis)
    · exact Axis.filter_tics hclose (haxis ▸ hyAxis)
  obtain ⟨lines, hlines, htext⟩ := bind_eq_ok.mp hrender
  obtain ⟨canvas, hcanvas, -⟩ := bind_eq_ok.mp hlines
  obtain ⟨rows, hrows, -⟩ := bind_eq_ok.mp hcanvas
  refine ⟨hzero, lines, rows, hlines, (Except.ok.inj htext).symm, hrows, ?_⟩
  intro x y r c hx hy hrow hcolumn hr hc
  have hmark : ∃ tic ∈ x.tics, tic.pos = x.pos := by
    have hmem : (⟨x.pos, 0.0⟩ : Tic Float) ∈ x.tics.filter fun tic => tic.label == 0.0 := by
      rw [hzero x (.inl hx)]
      exact List.mem_singleton_self _
    exact ⟨_, (List.mem_filter.mp hmem).1, rfl⟩
  obtain ⟨line, hline, hcharacter⟩ := exists_line hrows hlines hr hc
  exact ⟨line, hline, character_crossing hx hy hrow hcolumn hmark ▸ hcharacter⟩

end Crossing

-- A screen with its zero in the middle, and a function that is above it.

def centered : Area := ⟨⟨-1.0, 1.0⟩, ⟨-1.0, 1.0⟩⟩

theorem crossing_marked_centered : ∃ p text lines line,
    create .standard (constant 5.0) .empty 1 centered fourByFour = .ok p ∧ p.render = .ok text ∧
      text = "\n".intercalate lines ∧ lines[1]? = some line ∧ line.toList[2]? = some '+' := by
  have hsome : (create .standard (constant 5.0) .empty 1 centered fourByFour).toOption.any (fun p =>
      decide (p.xAxis.map Axis.pos = some 2.0 ∧ p.yAxis.map Axis.pos = some 2.0 ∧
        (p.rowOf 2.0).toOption = some 2 ∧ (p.columnOf 2.0).toOption = some 2 ∧
        p.rowCount.toOption = some 4 ∧ p.columnCount = 4 ∧ p.sampleRow? 2 = none ∧
        p.render.toOption.isSome = true)) = true := by
    decide +kernel
  obtain ⟨p, hp, hparts⟩ := (Option.any_eq_true ..).mp hsome
  simp only [decide_eq_true_iff, Option.map_eq_some_iff, toOption_eq_some] at hp hparts
  obtain ⟨⟨x, hx, hxpos⟩, ⟨y, hy, hypos⟩, hrow, hcolumn, hrows, hcolumns, hsample, hrender⟩ :=
    hparts
  obtain ⟨text, htext⟩ := Option.isSome_iff_exists.mp hrender
  obtain ⟨-, lines, rows, -, hlines, hrows', hcell⟩ :=
    crossing_marked Decades.standard_close hp (toOption_eq_some.mp htext)
  obtain rfl : rows = 4 := Except.ok.inj (hrows'.symm.trans hrows)
  obtain ⟨line, hline, hcharacter⟩ := hcell x y 2 2 hx hy (hxpos ▸ hrow) (hypos ▸ hcolumn)
    (by decide) (by omega)
  rw [hsample] at hcharacter
  exact ⟨p, text, lines, line, hp, toOption_eq_some.mp htext, hlines, hline, hcharacter⟩

end Plot

end Reckon
