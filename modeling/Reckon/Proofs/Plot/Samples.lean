import Reckon.Proofs.Plot.Picture

namespace Reckon

open Number

namespace Interval

section Project

variable {i : Interval Float} {y h : Float} {a b : ℚ} (hlo : value? i.lo = some a)
  (hhi : value? i.hi = some b) (hle : i.lo ≤ y) (hlt : y < i.hi)
include hlo hhi hle hlt

-- The distance of a point from the lower end, and the length.
theorem exists_rounds_distance : ∃ c d : ℚ, 0 ≤ c ∧ c < d ∧ Rounds c (y - i.lo) ∧
    Rounds d i.length := by
  obtain ⟨v, hy⟩ := exists_value_of_between hlo hhi ⟨hle, hlt⟩
  have hav : a ≤ v := (le_iff_value hlo hy).mp hle
  have hvb : v < b := (lt_iff_value hy hhi).mp hlt
  exact ⟨v - a, b - a, by linarith, by linarith, rounds_sub hy hlo, rounds_sub hhi hlo⟩

theorem length_pos {r : ℚ} (hr : value? i.length = some r) : 0 < r := by
  obtain ⟨v, hy⟩ := exists_value_of_between hlo hhi ⟨hle, hlt⟩
  have hab : a < b := ((le_iff_value hlo hy).mp hle).trans_lt ((lt_iff_value hy hhi).mp hlt)
  exact pos_of_sub hlo hhi hab hr

variable {height : Nat} (hh : value? h = some (height : ℚ))
include hh

-- A point at a distance that is less than the length is put below the upper end.
theorem exists_value_project (hpos : 0 < height) (hshort : y - i.lo < i.length) :
    ∃ r : ℚ, value? (0.0 + (y - i.lo) / i.length * h) = some r ∧ 0 ≤ r ∧ r < height := by
  obtain ⟨c, d, hc, hcd, hdistance, hlength⟩ := exists_rounds_distance hlo hhi hle hlt
  have hone : (1 : ℚ) ≤ height := by exact_mod_cast hpos
  -- how much of the length the distance is
  obtain ⟨q, hq, hq0, hq1⟩ : ∃ q, value? ((y - i.lo) / i.length) = some q ∧ 0 ≤ q ∧
      q ≤ 1 - 1 / 2 ^ 53 := by
    cases hdistance with
    | overflow hinfinite _ =>
      rw [decide_eq_false (not_lt.mpr hc)] at hinfinite
      exact absurd hshort (not_lt_of_infinite hinfinite)
    | @nearest r hr hnear =>
      have hr0 : 0 ≤ r := (Rounds.nearest hr hnear).ge hr representable_zero hc
      cases hlength with
      | overflow hinfinite _ => exact ⟨0, value?_div_infinite hr hinfinite, le_rfl, by norm_num⟩
      | @nearest s hs _ => exact exists_div_of_lt hr hs hr0 ((lt_iff_value hr hs).mp hshort)
  obtain ⟨r, hr, hr0, hrh⟩ := exists_mul_of_le hq hh hq0 hq1 hone
  exact ⟨r, value?_zero_add hr, hr0, hrh⟩

-- The other points are put on the upper end, if anywhere.
theorem value?_project_of_not_lt (hfull : ¬y - i.lo < i.length) :
    value? (0.0 + (y - i.lo) / i.length * h) = none ∨
      value? (0.0 + (y - i.lo) / i.length * h) = some (height : ℚ) := by
  obtain ⟨c, d, hc, hcd, hdistance, hlength⟩ := exists_rounds_distance hlo hhi hle hlt
  cases hr : value? (y - i.lo) with
  | none => exact .inl (value?_add_eq_none (value?_mul_eq_none (value?_div_eq_none hr)))
  | some r =>
    cases hlength with
    | overflow hinfinite _ =>
      rw [decide_eq_false (not_lt.mpr (hc.trans hcd.le))] at hinfinite
      exact absurd (lt_of_infinite hr hinfinite) hfull
    | @nearest s hs hnear =>
      have hrs : r ≤ s := hdistance.mono (.nearest hs hnear) hr hs hcd
      obtain rfl : r = s := hrs.antisymm (not_lt.mp (mt (lt_iff_value hr hs).mpr hfull))
      have hpos : 0 < r := length_pos hlo hhi hle hlt hs
      exact .inr (value?_zero_add (value?_one_mul (value?_div_self hr hs hpos.ne') hh))

-- The cells from zero up to the height hold the points at a shorter distance than the length.
theorem exists_cell_iff (hpos : 0 < height) :
    (∃ r < height, (value? (0.0 + (y - i.lo) / i.length * h)).map Int.floor = some (r : Int)) ↔
      y - i.lo < i.length := by
  constructor
  · rintro ⟨r, hr, hcell⟩
    by_contra hfull
    rcases value?_project_of_not_lt hlo hhi hle hlt hh hfull with hnone | hupper
    · simp [hnone] at hcell
    · rw [hupper, Option.map_some, Int.floor_natCast, Option.some_inj] at hcell
      omega
  · intro hshort
    obtain ⟨q, hq, hq0, hqh⟩ := exists_value_project hlo hhi hle hlt hh hpos hshort
    refine ⟨⌊q⌋.toNat, ?_, ?_⟩
    · have hfloor : ⌊q⌋ < height := Int.floor_lt.mpr hqh
      omega
    · rw [hq, Option.map_some, Int.toNat_of_nonneg (Int.floor_nonneg.mpr hq0)]

end Project

end Interval

namespace Plot

-- The characters of a column, the top one first.
def column (lines : List String) (c : Nat) : List Char :=
  lines.filterMap fun line => line.toList[c]?

section Column

variable {p : Plot} {lines : List String} {rows : Nat} {c : Nat}

theorem character_eq_star {r : Nat} : p.character r c = '*' ↔ p.sampleRow? c = some (r : Int) := by
  unfold character
  split_ifs <;> simp_all

theorem column_eq (hrows : p.rowCount = .ok rows) (hpos : 1 ≤ rows) (h : p.lines = .ok lines)
    (hc : c < p.columnCount) :
    column lines c = (List.range rows).reverse.map fun r => p.character r c := by
  rw [lines_eq hrows hpos h, column, List.filterMap_map, ← List.filterMap_eq_map]
  refine List.filterMap_congr fun r _ => ?_
  simp [hc]

theorem count_column (hrows : p.rowCount = .ok rows) (hpos : 1 ≤ rows) (h : p.lines = .ok lines)
    (hc : c < p.columnCount) : (column lines c).count '*' =
      (List.range rows).countP fun r : Nat => p.sampleRow? c = some (r : Int) := by
  rw [column_eq hrows hpos h hc, List.count, List.countP_map, List.countP_reverse]
  refine List.countP_congr fun r _ => ?_
  simp [character_eq_star]

end Column

section Create

variable {decades : Decades} {g : Graph Float} {store : Store Float} {limit : Nat}
  {area screen : Area} {p : Plot}

-- What is drawn of a column comes from its sample.
theorem point_of_create (h : create decades g store limit area screen = .ok p) {last : Int}
    (hfirst : truncate screen.x.lo = .ok 0) (hlast : truncate screen.x.hi = .ok last)
    {c : Nat} (hc : c < last) : p.screen = screen ∧ ∃ point, p.points[c]? = some point ∧
      sample g store limit area screen c = .ok point := by
  rw [create, hfirst, hlast, ok_bind, ok_bind] at h
  obtain ⟨points, hpoints, h⟩ := bind_eq_ok.mp h
  obtain ⟨xAxis, -, h⟩ := bind_eq_ok.mp h
  obtain ⟨yAxis, -, h⟩ := bind_eq_ok.mp h
  obtain rfl := Except.ok.inj h
  have hcolumn : (columns 0 last)[c]? = some (c : Int) := by
    rw [columns, List.getElem?_map, List.getElem?_range (by omega)]
    simp
  obtain ⟨point, hsample, hpoint⟩ := getElem?_of_mapM hpoints hcolumn
  exact ⟨rfl, point, hpoint, hsample⟩

-- A column whose sample has a value in the area, at a distance from the lower edge that is not
-- rounded to the height of the area.
def Shown (g : Graph Float) (store : Store Float) (limit : Nat) (area screen : Area) (c : Nat) :
    Prop :=
  ∃ x y, screen.x.project (Float.ofInt c) area.x = some x ∧
    g.value? store limit x = .ok (some y) ∧
    area.y.lo ≤ y ∧ y < area.y.hi ∧ y - area.y.lo < area.y.length

theorem shown_iff_of_value {c : Nat} {x y : Float}
    (hx : screen.x.project (Float.ofInt c) area.x = some x)
    (hvalue : g.value? store limit x = .ok (some y)) :
    Shown g store limit area screen c ↔
      area.y.lo ≤ y ∧ y < area.y.hi ∧ y - area.y.lo < area.y.length := by
  constructor
  · rintro ⟨x', y', hx', hvalue', hshown⟩
    obtain rfl := Option.some_inj.mp (hx.symm.trans hx')
    obtain rfl := Option.some_inj.mp (Except.ok.inj (hvalue.symm.trans hvalue'))
    exact hshown
  · exact fun hshown => ⟨x, y, hx, hvalue, hshown⟩

variable {w h : Float} {width height : Nat} (hw : value? w = some (width : ℚ))
  (hh : value? h = some (height : ℚ)) (hheight : 0 < height) (hlo : area.y.lo.isFinite = true)
  (hhi : area.y.hi.isFinite = true)

include hh hheight hlo hhi in
-- Exactly such a sample has a row of the screen.
theorem shown_iff {x : Interval Float} (hscreen : p.screen = ⟨x, ⟨0.0, h⟩⟩) {c : Nat}
    {point : Option Float} (hsample : sample g store limit area p.screen c = .ok point) :
    Shown g store limit area p.screen c ↔ ∃ r < height, point.bind p.row? = some (r : Int) := by
  unfold sample at hsample
  cases hx : p.screen.x.project (Float.ofInt c) area.x with
  | none =>
    obtain rfl : none = point := by simpa [hx] using hsample
    simp [Shown, hx]
  | some x' =>
    cases hvalue : g.value? store limit x' with
    | error halt => simp [hx, hvalue] at hsample
    | ok y? =>
      cases y? with
      | none =>
        obtain rfl : none = point := by simpa [hx, hvalue] using hsample
        simp [Shown, hx, hvalue]
      | some y =>
        obtain rfl : area.y.project y p.screen.y = point := by simpa [hx, hvalue] using hsample
        obtain ⟨a, ha⟩ := Option.isSome_iff_exists.mp ((isSome_value? _).mpr hlo)
        obtain ⟨b, hb⟩ := Option.isSome_iff_exists.mp ((isSome_value? _).mpr hhi)
        rw [shown_iff_of_value hx hvalue]
        by_cases hin : area.y.lo ≤ y ∧ y < area.y.hi
        · have hcell := Interval.exists_cell_iff ha hb hin.1 hin.2 hh hheight
          rw [and_iff_right hin.1, and_iff_right hin.2, ← hcell, Interval.project, if_pos hin]
          simp only [Option.bind_some, row?, hscreen, Interval.length, sub_zero_float]
        · rw [Interval.project, if_neg hin, ← and_assoc]
          simp [hin]

include hw hh hheight hlo hhi in
-- On a screen that starts at zero and has whole bounds, a column has one star if its sample is
-- shown, and none otherwise.
theorem count_star (hcreate : create decades g store limit area ⟨⟨0.0, w⟩, ⟨0.0, h⟩⟩ = .ok p)
    {lines : List String} (hlines : p.lines = .ok lines) {c : Nat} (hc : c < width) :
    (Shown g store limit area ⟨⟨0.0, w⟩, ⟨0.0, h⟩⟩ c → (column lines c).count '*' = 1) ∧
    (¬Shown g store limit area ⟨⟨0.0, w⟩, ⟨0.0, h⟩⟩ c → (column lines c).count '*' = 0) := by
  have hfirst : truncate 0.0 = .ok 0 := by
    rw [truncate_of_value value?_zero le_rfl, Int.floor_zero]
  have hlast : truncate w = .ok width := by
    rw [truncate_of_value hw (Nat.cast_nonneg width), Int.floor_natCast]
  obtain ⟨hscreen, point, hpoint, hsample⟩ :=
    point_of_create hcreate hfirst hlast (c := c) (by exact_mod_cast hc)
  have hrows : p.rowCount = .ok height := by
    rw [rowCount_of_value (hscreen ▸ value?_zero) (hscreen ▸ hh) le_rfl (Nat.cast_nonneg height),
      Int.floor_natCast, Int.floor_zero, sub_zero, Int.toNat_natCast]
  have hcolumn : c < p.columnCount := (List.getElem?_eq_some_iff.mp hpoint).1
  have hrow : p.sampleRow? c = point.bind p.row? := by
    rw [sampleRow?, hpoint]
    rfl
  rw [← hscreen] at hsample ⊢
  rw [shown_iff hh hheight hlo hhi hscreen hsample, count_column hrows hheight hlines hcolumn, hrow]
  constructor
  · rintro ⟨r, hr, hat⟩
    have hcount : (List.range height).countP (fun r' : Nat => some (r : Int) = some (r' : Int)) =
        (List.range height).count r :=
      List.countP_congr fun r' _ => by
        rw [decide_eq_true_iff, beq_iff_eq, Option.some_inj, Int.natCast_inj, eq_comm]
    rw [hat, hcount]
    exact List.count_eq_one_of_mem List.nodup_range (List.mem_range.mpr hr)
  · intro hnone
    rw [List.countP_eq_zero]
    intro r hr hat
    exact hnone ⟨r, List.mem_range.mp hr, of_decide_eq_true hat⟩

end Create

-- The graph of a function with the same value everywhere, and its picture over an area below zero.

def constant (y : Float) : Graph Float := ⟨"f", .custom ["x"] (.number y) none, 0⟩

def below : Area := ⟨⟨1.0, 2.0⟩, ⟨-1.0, 0.0⟩⟩

def fourByFour : Area := ⟨⟨0.0, 4.0⟩, ⟨0.0, 4.0⟩⟩

def constantLines (y : Float) : Except PlotError (List String) := do
  (← create .standard (constant y) .empty 1 below fourByFour).lines

theorem count_star_half :
    ∃ lines, constantLines (-0.5) = .ok lines ∧ (column lines 3).count '*' = 1 := by
  have hlines : constantLines (-0.5) = .ok ["    ", "****", "    ", "    "] :=
    toOption_eq_some.mp (by decide +kernel)
  obtain ⟨p, hcreate, hp⟩ := bind_eq_ok.mp hlines
  have hshown : Shown (constant (-0.5)) .empty 1 below fourByFour 3 :=
    ⟨1.75, -0.5, by decide +kernel, rfl, by decide +kernel, by decide +kernel, by decide +kernel⟩
  have hside : value? 4.0 = some ((4 : Nat) : ℚ) := by decide +kernel
  have hcolumn := count_star hside hside (by decide) (by decide +kernel) (by decide +kernel)
    hcreate hp (by decide : 3 < 4)
  exact ⟨_, hlines, hcolumn.1 hshown⟩

-- A value just below the upper edge of the area is drawn nowhere: its distance from the lower edge
-- is rounded to one, the height of the area.
theorem edge_not_drawn :
    (-1.0 : Float) ≤ -1e-20 ∧ (-1e-20 : Float) < 0.0 ∧
      ∃ lines, constantLines (-1e-20) = .ok lines ∧ ∀ c < 4,
        (∃ x, fourByFour.x.project (Float.ofInt (c : Nat)) below.x = some x ∧
          (constant (-1e-20)).value? .empty 1 x = .ok (some (-1e-20))) ∧
        (column lines c).count '*' = 0 := by
  have hlines : constantLines (-1e-20) = .ok ["    ", "    ", "    ", "    "] :=
    toOption_eq_some.mp (by decide +kernel)
  refine ⟨by decide +kernel, by decide +kernel, _, hlines, fun c hc => ⟨?_, ?_⟩⟩
  · have hsome : ∀ c < 4,
        (fourByFour.x.project (Float.ofInt (c : Nat)) below.x).isSome = true := by decide +kernel
    obtain ⟨x, hx⟩ := Option.isSome_iff_exists.mp (hsome c hc)
    exact ⟨x, hx, rfl⟩
  · have hnone : ∀ c < 4, (column ["    ", "    ", "    ", "    "] c).count '*' = 0 := by
      decide +kernel
    exact hnone c hc

end Plot

end Reckon
