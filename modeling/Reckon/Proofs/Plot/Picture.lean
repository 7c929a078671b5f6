import Reckon.Plot.Picture
import Reckon.Proofs.Number.Operations
import Reckon.Proofs.Outcome

namespace Reckon

open Number

namespace Canvas

-- The canvas with the character `f row col` in each cell.
def tabulate (rows cols : Nat) (f : Nat → Nat → Char) : Canvas :=
  (List.range rows).map fun r => (List.range cols).map (f r)

section Tabulate

variable {rows cols : Nat} {f : Nat → Nat → Char}

theorem blank_eq_tabulate : blank rows cols = tabulate rows cols fun _ _ => ' ' := by
  simp [blank, tabulate, List.map_const']

theorem modify_tabulate {row : Nat} {change : List Char → List Char} {line : Nat → Char}
    (h : change ((List.range cols).map (f row)) = (List.range cols).map line) :
    (tabulate rows cols f).modify row change =
      tabulate rows cols fun r => if row = r then line else f r := by
  apply List.ext_getElem?
  intro r
  simp only [tabulate, List.getElem?_modify, List.getElem?_map]
  by_cases hr : r < rows
  · rw [List.getElem?_range hr]
    by_cases hrow : row = r
    · subst hrow
      simp [h]
    · simp [hrow]
  · rw [List.getElem?_eq_none (by simpa using hr)]
    rfl

theorem set_map_range (line : Nat → Char) (col : Nat) (c : Char) :
    ((List.range cols).map line).set col c =
      (List.range cols).map fun j => if col = j then c else line j := by
  apply List.ext_getElem?
  intro j
  by_cases hj : j < cols
  · by_cases hcol : col = j
    · subst hcol
      simp [hj]
    · simp [hj, hcol]
  · rw [List.getElem?_eq_none (by simpa using hj), List.getElem?_eq_none (by simpa using hj)]

theorem put_tabulate (row col : Int) (c : Char) : (tabulate rows cols f).put row col c =
    tabulate rows cols fun r j => if row = r ∧ col = j then c else f r j := by
  unfold put
  split_ifs with h
  · obtain ⟨row, rfl⟩ := Int.eq_ofNat_of_zero_le h.1
    obtain ⟨col, rfl⟩ := Int.eq_ofNat_of_zero_le h.2
    rw [Int.toNat_natCast, Int.toNat_natCast, modify_tabulate (set_map_range (f row) col c)]
    congr 1
    funext r j
    by_cases hr : row = r <;> simp [hr]
  · congr 1
    funext r j
    rw [if_neg]
    omega

theorem fillRow_tabulate (row : Int) (c : Char) : (tabulate rows cols f).fillRow row c =
    tabulate rows cols fun r j => if row = r then c else f r j := by
  unfold fillRow
  split_ifs with h
  · obtain ⟨row, rfl⟩ := Int.eq_ofNat_of_zero_le h
    have hline : ((List.range cols).map (f row)).map (fun _ => c) =
        (List.range cols).map fun _ => c := List.map_map ..
    rw [Int.toNat_natCast, modify_tabulate hline]
    congr 1
    funext r j
    by_cases hr : row = r <;> simp [hr]
  · congr 1
    funext r j
    rw [if_neg]
    omega

theorem fillColumn_tabulate (col : Int) (c : Char) : (tabulate rows cols f).fillColumn col c =
    tabulate rows cols fun r j => if col = j then c else f r j := by
  unfold fillColumn
  split_ifs with h
  · obtain ⟨col, rfl⟩ := Int.eq_ofNat_of_zero_le h
    rw [Int.toNat_natCast, tabulate, List.map_map]
    refine List.map_congr_left fun r _ => ?_
    simp [set_map_range]
  · congr 1
    funext r j
    rw [if_neg]
    omega

-- Characters that are put one after another into one row, or into one column.

theorem foldl_put_row (row : Int) (c : Char) (cells : List Int) :
    cells.foldl (fun canvas col => canvas.put row col c) (tabulate rows cols f) =
      tabulate rows cols fun r j => if row = r ∧ (j : Int) ∈ cells then c else f r j := by
  induction cells generalizing f with
  | nil => simp
  | cons col cells ih =>
    rw [List.foldl_cons, put_tabulate, ih]
    congr 1
    funext r j
    simp only [List.mem_cons, eq_comm (a := (j : Int))]
    split_ifs <;> simp_all

theorem foldl_put_column (col : Int) (c : Char) (cells : List Int) :
    cells.foldl (fun canvas row => canvas.put row col c) (tabulate rows cols f) =
      tabulate rows cols fun r j => if (r : Int) ∈ cells ∧ col = j then c else f r j := by
  induction cells generalizing f with
  | nil => simp
  | cons row cells ih =>
    rw [List.foldl_cons, put_tabulate, ih]
    congr 1
    funext r j
    simp only [List.mem_cons, eq_comm (a := (r : Int))]
    split_ifs <;> simp_all

theorem tabulate_congr {g : Nat → Nat → Char} (h : ∀ r < rows, ∀ c < cols, f r c = g r c) :
    tabulate rows cols f = tabulate rows cols g := by
  refine List.map_congr_left fun r hr => List.map_congr_left fun c hc => ?_
  exact h r (List.mem_range.mp hr) c (List.mem_range.mp hc)

end Tabulate

end Canvas

namespace Plot

section Cells

variable (p : Plot)

-- The row and the column of the screen that a position lies in.

def row? (pos : Float) : Option Int := (value? (pos - p.screen.y.lo)).map Int.floor

def column? (pos : Float) : Option Int := (value? (pos - p.screen.x.lo)).map Int.floor

-- The marks of the x axis by their rows, and those of the y axis by their columns.

def markedRows : List Int :=
  (p.xAxis.elim [] Axis.tics).filterMap fun tic => p.row? tic.pos

def markedColumns : List Int :=
  (p.yAxis.elim [] Axis.tics).filterMap fun tic => p.column? tic.pos

-- The row of the x axis and the column of the y axis.

def axisRow? : Option Int := p.xAxis.bind fun axis => p.row? axis.pos

def axisColumn? : Option Int := p.yAxis.bind fun axis => p.column? axis.pos

-- The row of the sample of a column.
def sampleRow? (c : Nat) : Option Int := (p.points[c]?.join).bind p.row?

-- What is seen in a cell: a sample before the y axis, and this one before the x axis.
def character (r c : Nat) : Char :=
  if p.sampleRow? c = some (r : Int) then '*'
  else if p.axisColumn? = some (c : Int) then if (r : Int) ∈ p.markedRows then '+' else '|'
  else if p.axisRow? = some (r : Int) then if (c : Int) ∈ p.markedColumns then '+' else '-'
  else ' '

end Cells

variable {p : Plot}

theorem floorCell_eq_ok {pos origin : Float} {n : Int} :
    floorCell pos origin = .ok n ↔ (value? (pos - origin)).map Int.floor = some n := by
  rw [floorCell, mapError_eq_ok, floor_exact]

theorem rowOf_eq_ok (p : Plot) (pos : Float) (n : Int) :
    p.rowOf pos = .ok n ↔ p.row? pos = some n :=
  floorCell_eq_ok

theorem columnOf_eq_ok (p : Plot) (pos : Float) (n : Int) :
    p.columnOf pos = .ok n ↔ p.column? pos = some n :=
  floorCell_eq_ok

theorem truncate_of_value {x : Float} {v : ℚ} (hx : value? x = some v) (hv : 0 ≤ v) :
    truncate x = .ok ⌊v⌋ := by
  rw [truncate, truncate_exact hv hx]
  rfl

theorem rowCount_of_value {a b : ℚ} (hlo : value? p.screen.y.lo = some a)
    (hhi : value? p.screen.y.hi = some b) (ha : 0 ≤ a) (hb : 0 ≤ b) :
    p.rowCount = .ok (⌊b⌋ - ⌊a⌋).toNat := by
  rw [rowCount, truncate_of_value hhi hb, truncate_of_value hlo ha]
  rfl

section Axes

variable {axis? : Option Axis} {cellOf : Float → Except PlotError Int} {cell? : Float → Option Int}
  (hcell : ∀ pos n, cellOf pos = .ok n ↔ cell? pos = some n)
include hcell

-- What is known of an axis is whether it lies in a cell of the screen.
theorem axisCell?_eq_some {count : Nat} {at? : Option Int}
    (h : axisCell? axis? cellOf count = .ok at?) {i : Nat} (hi : i < count) :
    at? = some (i : Int) ↔ (axis?.bind fun axis => cell? axis.pos) = some (i : Int) := by
  cases axis? with
  | none =>
    obtain rfl := Except.ok.inj h
    simp
  | some axis =>
    obtain ⟨cell, hok, hat⟩ := bind_eq_ok.mp h
    obtain rfl := Except.ok.inj hat
    rw [Option.bind_some, (hcell _ _).mp hok]
    split_ifs with hrange
    · rfl
    · simp only [false_iff, Option.some_inj]
      omega

theorem exists_axisCell? (count : Nat) (h : ∀ axis, axis? = some axis → (cell? axis.pos).isSome) :
    ∃ at?, axisCell? axis? cellOf count = .ok at? := by
  cases axis? with
  | none => exact ⟨none, rfl⟩
  | some axis =>
    obtain ⟨cell, hsome⟩ := Option.isSome_iff_exists.mp (h axis rfl)
    refine ⟨if 0 ≤ cell ∧ cell < count then some cell else none, ?_⟩
    rw [axisCell?, (hcell _ _).mpr hsome]
    rfl

theorem ticCells_eq {cells : List Int} (h : ticCells axis? cellOf = .ok cells) :
    cells = (axis?.elim [] Axis.tics).filterMap fun tic => cell? tic.pos := by
  cases axis? with
  | none =>
    obtain rfl := Except.ok.inj h
    rfl
  | some axis => exact mapM_of_option (fun tic n => hcell tic.pos n) h

theorem exists_ticCells
    (h : ∀ axis, axis? = some axis → ∀ tic ∈ axis.tics, (cell? tic.pos).isSome) :
    ∃ cells, ticCells axis? cellOf = .ok cells := by
  cases axis? with
  | none => exact ⟨[], rfl⟩
  | some axis =>
    refine exists_mapM fun tic htic => ?_
    obtain ⟨cell, hsome⟩ := Option.isSome_iff_exists.mp (h axis rfl tic htic)
    exact ⟨cell, (hcell _ _).mpr hsome⟩

end Axes

section Drawing

variable {rows cols : Nat} {f : Nat → Nat → Char} {canvas : Canvas}

theorem drawRow_tabulate {row? : Option Int}
    (h : p.drawRow row? (Canvas.tabulate rows cols f) = .ok canvas) :
    canvas = Canvas.tabulate rows cols fun r c =>
      if row? = some (r : Int) then if (c : Int) ∈ p.markedColumns then '+' else '-'
      else f r c := by
  cases row? with
  | none =>
    obtain rfl := Except.ok.inj h
    simp
  | some row =>
    obtain ⟨cells, hcells, hcanvas⟩ := bind_eq_ok.mp h
    obtain rfl := Except.ok.inj hcanvas
    obtain rfl : cells = p.markedColumns := ticCells_eq p.columnOf_eq_ok hcells
    rw [Canvas.fillRow_tabulate, Canvas.foldl_put_row]
    congr 1
    funext r c
    by_cases hr : row = r <;> simp [hr]

theorem drawColumn_tabulate {col? : Option Int}
    (h : p.drawColumn col? (Canvas.tabulate rows cols f) = .ok canvas) :
    canvas = Canvas.tabulate rows cols fun r c =>
      if col? = some (c : Int) then if (r : Int) ∈ p.markedRows then '+' else '|' else f r c := by
  cases col? with
  | none =>
    obtain rfl := Except.ok.inj h
    simp
  | some col =>
    obtain ⟨cells, hcells, hcanvas⟩ := bind_eq_ok.mp h
    obtain rfl := Except.ok.inj hcanvas
    obtain rfl : cells = p.markedRows := ticCells_eq p.rowOf_eq_ok hcells
    rw [Canvas.fillColumn_tabulate, Canvas.foldl_put_column]
    congr 1
    funext r c
    by_cases hc : col = c <;> simp [hc]

-- The samples from a column on are seen in the columns from there on.
theorem drawSamples_tabulate {col : Nat} {points : List (Option Float)}
    (h : p.drawSamples col points (Canvas.tabulate rows cols f) = .ok canvas) :
    canvas = Canvas.tabulate rows cols fun r c =>
      if col ≤ c ∧ (points[c - col]?.join).bind p.row? = some (r : Int) then '*' else f r c := by
  induction points generalizing col f with
  | nil =>
    obtain rfl := Except.ok.inj h
    simp
  | cons point points ih =>
    have hlater : ∀ c : Nat, col < c → (point :: points)[c - col]? = points[c - (col + 1)]? := by
      intro c hc
      rw [show c - col = c - (col + 1) + 1 by omega, List.getElem?_cons_succ]
    cases point with
    | none =>
      rw [ih h]
      congr 1
      funext r c
      rcases Nat.lt_trichotomy col c with hc | rfl | hc
      · rw [hlater c hc]
        simp [Nat.le_of_lt hc, Nat.succ_le_of_lt hc]
      · simp
      · simp [show ¬col ≤ c by omega, show ¬col + 1 ≤ c by omega]
    | some pos =>
      obtain ⟨row, hrow, hrest⟩ := bind_eq_ok.mp h
      rw [Canvas.put_tabulate] at hrest
      rw [ih hrest]
      congr 1
      funext r c
      rcases Nat.lt_trichotomy col c with hc | rfl | hc
      · rw [hlater c hc]
        simp [Nat.le_of_lt hc, Nat.succ_le_of_lt hc, show ¬(col : Int) = c by omega]
      · simp [(p.rowOf_eq_ok pos row).mp hrow]
      · simp [show ¬col ≤ c by omega, show ¬col + 1 ≤ c by omega, show ¬(col : Int) = c by omega]

theorem exists_drawSamples (col : Nat) (canvas : Canvas) {points : List (Option Float)}
    (h : ∀ pos, some pos ∈ points → (p.row? pos).isSome) :
    ∃ canvas', p.drawSamples col points canvas = .ok canvas' := by
  induction points generalizing col canvas with
  | nil => exact ⟨canvas, rfl⟩
  | cons point points ih =>
    have hpoints := fun pos hpos => h pos (List.mem_cons_of_mem _ hpos)
    cases point with
    | none => exact ih _ _ hpoints
    | some pos =>
      obtain ⟨row, hrow⟩ := Option.isSome_iff_exists.mp (h pos (List.mem_cons_self ..))
      obtain ⟨canvas', hcanvas'⟩ := ih (col + 1) (canvas.put row col '*') hpoints
      exact ⟨canvas', by rw [drawSamples, (p.rowOf_eq_ok pos row).mpr hrow]; exact hcanvas'⟩

-- A picture that is drawn has in each cell the character of the cell.
theorem canvas_eq_tabulate (hrows : p.rowCount = .ok rows) (h : p.canvas = .ok canvas) :
    canvas = Canvas.tabulate rows p.columnCount p.character := by
  rw [Plot.canvas, hrows, ok_bind] at h
  obtain ⟨row?, hrow, h⟩ := bind_eq_ok.mp h
  obtain ⟨col?, hcol, h⟩ := bind_eq_ok.mp h
  dsimp only at h
  rw [Canvas.blank_eq_tabulate] at h
  obtain ⟨canvas₁, hdrawRow, h⟩ := bind_eq_ok.mp h
  rw [drawRow_tabulate hdrawRow] at h
  obtain ⟨canvas₂, hdrawColumn, h⟩ := bind_eq_ok.mp h
  rw [drawColumn_tabulate hdrawColumn] at h
  rw [drawSamples_tabulate h]
  refine Canvas.tabulate_congr fun r hr c hc => ?_
  have hrow' := axisCell?_eq_some p.rowOf_eq_ok hrow hr
  have hcol' := axisCell?_eq_some p.columnOf_eq_ok hcol hc
  simp only [character, sampleRow?, axisRow?, axisColumn?, ← hrow', ← hcol', Nat.zero_le, true_and,
    Nat.sub_zero]

-- What holds of all positions along the height, and of all positions along the width.
structure Positions (p : Plot) (inHeight inWidth : Float → Prop) : Prop where
  points : ∀ point ∈ p.points, ∀ pos ∈ point, inHeight pos
  xAxis : ∀ axis ∈ p.xAxis, inHeight axis.pos ∧ ∀ tic ∈ axis.tics, inHeight tic.pos
  yAxis : ∀ axis ∈ p.yAxis, inWidth axis.pos ∧ ∀ tic ∈ axis.tics, inWidth tic.pos

def Finite (p : Plot) : Prop := p.Positions (·.isFinite = true) (·.isFinite = true)

-- Positions are counted from the lower ends of the screen.
def Measured (p : Plot) : Prop :=
  p.Positions (fun pos => (pos - p.screen.y.lo).isFinite = true)
    fun pos => (pos - p.screen.x.lo).isFinite = true

theorem Positions.mono {inHeight inWidth inHeight' inWidth' : Float → Prop}
    (h : p.Positions inHeight inWidth) (hheight : ∀ pos, inHeight pos → inHeight' pos)
    (hwidth : ∀ pos, inWidth pos → inWidth' pos) : p.Positions inHeight' inWidth' where
  points := fun point hpoint pos hpos => hheight pos (h.points point hpoint pos hpos)
  xAxis := fun axis haxis => ⟨hheight _ (h.xAxis axis haxis).1,
    fun tic htic => hheight _ ((h.xAxis axis haxis).2 tic htic)⟩
  yAxis := fun axis haxis => ⟨hwidth _ (h.yAxis axis haxis).1,
    fun tic htic => hwidth _ ((h.yAxis axis haxis).2 tic htic)⟩

-- Finite positions are at finite distances, unless the screen begins at an end of the range of
-- floats: the largest float has a unit of `2 ^ 971`.
theorem Finite.measured (h : p.Finite) {a b : ℚ} (hx : value? p.screen.x.lo = some a)
    (hy : value? p.screen.y.lo = some b) (ha : |a| < 2 ^ (970 : ℤ)) (hb : |b| < 2 ^ (970 : ℤ)) :
    p.Measured :=
  h.mono (fun _ hpos => isFinite_sub hpos hy hb) fun _ hpos => isFinite_sub hpos hx ha

theorem isSome_row? {pos : Float} (h : (pos - p.screen.y.lo).isFinite) : (p.row? pos).isSome := by
  rw [row?, Option.isSome_map]
  exact (isSome_value? _).mpr h

theorem isSome_column? {pos : Float} (h : (pos - p.screen.x.lo).isFinite) :
    (p.column? pos).isSome := by
  rw [column?, Option.isSome_map]
  exact (isSome_value? _).mpr h

theorem exists_canvas (hrows : p.rowCount = .ok rows) (h : p.Measured) :
    ∃ canvas, p.canvas = .ok canvas := by
  obtain ⟨row?, hrow⟩ := exists_axisCell? p.rowOf_eq_ok rows
    fun axis haxis => isSome_row? (h.xAxis axis haxis).1
  obtain ⟨col?, hcol⟩ := exists_axisCell? p.columnOf_eq_ok p.columnCount
    fun axis haxis => isSome_column? (h.yAxis axis haxis).1
  obtain ⟨columns, hcolumns⟩ := exists_ticCells p.columnOf_eq_ok
    fun axis haxis tic htic => isSome_column? ((h.yAxis axis haxis).2 tic htic)
  obtain ⟨marked, hmarked⟩ := exists_ticCells p.rowOf_eq_ok
    fun axis haxis tic htic => isSome_row? ((h.xAxis axis haxis).2 tic htic)
  have hdrawRow : ∃ canvas₁, p.drawRow row? (Canvas.blank rows p.columnCount) = .ok canvas₁ := by
    cases row? with
    | none => exact ⟨_, rfl⟩
    | some row => exact ⟨_, by rw [drawRow, hcolumns, ok_bind]; rfl⟩
  obtain ⟨canvas₁, hcanvas₁⟩ := hdrawRow
  have hdrawColumn : ∃ canvas₂, p.drawColumn col? canvas₁ = .ok canvas₂ := by
    cases col? with
    | none => exact ⟨_, rfl⟩
    | some col => exact ⟨_, by rw [drawColumn, hmarked, ok_bind]; rfl⟩
  obtain ⟨canvas₂, hcanvas₂⟩ := hdrawColumn
  obtain ⟨canvas, hcanvas⟩ :=
    exists_drawSamples 0 canvas₂ fun pos hpos => isSome_row? (h.points _ hpos pos rfl)
  refine ⟨canvas, ?_⟩
  rw [Plot.canvas, hrows, ok_bind, hrow, ok_bind, hcol, ok_bind]
  dsimp only
  rw [hcanvas₁, ok_bind, hcanvas₂, ok_bind, hcanvas]

end Drawing

section Lines

variable {rows : Nat} (hrows : p.rowCount = .ok rows) (hpos : 1 ≤ rows)
include hrows hpos

theorem lines_of_canvas {canvas : Canvas} (h : p.canvas = .ok canvas) :
    p.lines = .ok ((List.range rows).reverse.map fun r =>
      String.ofList ((List.range p.columnCount).map (p.character r))) := by
  obtain ⟨n, rfl⟩ := Nat.exists_eq_add_of_le' hpos
  rw [lines, h, canvas_eq_tabulate hrows h, ok_bind, Canvas.tabulate, ← List.map_reverse,
    List.range_succ, List.reverse_append]
  simp [pure, Except.pure]

theorem lines_eq {lines : List String} (h : p.lines = .ok lines) :
    lines = (List.range rows).reverse.map fun r =>
      String.ofList ((List.range p.columnCount).map (p.character r)) := by
  obtain ⟨canvas, hcanvas, -⟩ := bind_eq_ok.mp h
  exact Except.ok.inj (h.symm.trans (lines_of_canvas hrows hpos hcanvas))

-- A plot with finite distances is drawn as one line for each row of the screen, the top one first,
-- with one character for each column: what is seen in the cell.
theorem render_character (hmeasured : p.Measured) :
    ∃ lines, p.render = .ok ("\n".intercalate lines) ∧ lines.length = rows ∧
      (∀ line ∈ lines, line.length = p.columnCount) ∧
      ∀ r < rows, ∀ c < p.columnCount, ∃ line, lines[rows - 1 - r]? = some line ∧
        line.toList[c]? = some (p.character r c) := by
  obtain ⟨canvas, hcanvas⟩ := exists_canvas hrows hmeasured
  refine ⟨_, by rw [render, lines_of_canvas hrows hpos hcanvas]; rfl, by simp, by simp, ?_⟩
  intro r hr c hc
  refine ⟨String.ofList ((List.range p.columnCount).map (p.character r)), ?_, ?_⟩
  · rw [List.getElem?_map, List.getElem?_reverse (by simpa using by omega), List.length_range,
      List.getElem?_range (by omega), Option.map_some,
      show rows - 1 - (rows - 1 - r) = r by omega]
  · rw [String.toList_ofList, List.getElem?_map, List.getElem?_range hc, Option.map_some]

end Lines

-- Both axes with two marks each, and a sample above the screen.
def crossing : Plot :=
  ⟨[some 0.5, none, some 2.0, some 7.0], ⟨⟨0.0, 4.0⟩, ⟨0.0, 3.0⟩⟩,
    some ⟨1.0, [⟨0.0, -1.0⟩, ⟨2.0, 1.0⟩]⟩, some ⟨1.0, [⟨1.0, 0.0⟩, ⟨3.0, 1.0⟩]⟩⟩

theorem render_character_crossing :
    ∃ lines, crossing.render = .ok ("\n".intercalate lines) ∧ lines.length = 3 ∧
      (∀ line ∈ lines, line.length = 4) ∧
      ∃ line, lines[1]? = some line ∧ line.toList[3]? = some '+' := by
  have hrows : crossing.rowCount = .ok 3 :=
    rowCount_of_value (a := 0) (b := 3) (by decide +kernel) (by decide +kernel) (by decide)
      (by decide)
  have hfinite : crossing.Finite := ⟨by decide +kernel, by decide +kernel, by decide +kernel⟩
  have hmeasured : crossing.Measured :=
    hfinite.measured value?_zero value?_zero (by rw [abs_zero]; positivity)
      (by rw [abs_zero]; positivity)
  obtain ⟨lines, hrender, hlength, hwidth, hcell⟩ := render_character hrows (by decide) hmeasured
  have hmark : crossing.character 1 3 = '+' := by decide +kernel
  exact ⟨lines, hrender, hlength, hwidth, hmark ▸ hcell 1 (by decide) 3 (by decide)⟩

-- The width of the screen is out of the range of floats, and the y axis lies at its right end.
def stretched : Plot :=
  ⟨[none], ⟨⟨-1.7e308, 1.7e308⟩, ⟨0.0, 1.0⟩⟩, none, some ⟨1.7e308, []⟩⟩

-- The sample lies below the middle of the screen by less than a float can tell.
def lifted : Plot := ⟨[some 1.9], ⟨⟨0.0, 1.0⟩, ⟨-0.1, 3.9⟩⟩, none, none⟩

-- Finite positions are not enough for a picture, and a row is not always the whole part of the
-- exact distance.
theorem finite_positions_drawn_otherwise :
    (stretched.Finite ∧ stretched.rowCount = .ok 1 ∧ ∀ text, stretched.render ≠ .ok text) ∧
      lifted.Finite ∧ lifted.rowCount = .ok 3 ∧
      (∃ pos lo, value? 1.9 = some pos ∧ value? (-0.1) = some lo ∧ ⌊pos - lo⌋ = 1) ∧
      lifted.render = .ok "*\n \n " := by
  refine ⟨⟨⟨by decide +kernel, by decide +kernel, by decide +kernel⟩, ?_, fun text htext => ?_⟩,
    ⟨by decide +kernel, by decide +kernel, by decide +kernel⟩, ?_, ?_, ?_⟩
  · exact toOption_eq_some.mp (by decide +kernel)
  · have hnone : stretched.render.toOption.isNone = true := by decide +kernel
    simp [htext, Except.toOption] at hnone
  · exact toOption_eq_some.mp (by decide +kernel)
  · exact ⟨4278419646001971 / 2251799813685248, -3602879701896397 / 36028797018963968,
      by decide +kernel, by decide +kernel, by decide +kernel⟩
  · exact toOption_eq_some.mp (by decide +kernel)

end Plot

end Reckon
