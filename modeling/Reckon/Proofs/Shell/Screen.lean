import Reckon.Proofs.Plot.Marks
import Reckon.Proofs.Plot.Picture
import Reckon.Shell.Answer

namespace Reckon

open Number

-- Rounding keeps what is projected within the target.
theorem Interval.project_bounds {i target : Interval Float} {a b h : ℚ}
    (hlo : value? i.lo = some a) (hhi : value? i.hi = some b)
    (hlength : value? i.length = some (b - a)) (hzero : target.lo = 0.0)
    (hheight : value? target.length = some h) (hh : 0 ≤ h) {p pos : Float}
    (hpos : i.project p target = some pos) : ∃ r, value? pos = some r ∧ 0 ≤ r ∧ r ≤ h := by
  rw [project] at hpos
  split_ifs at hpos with hin
  obtain rfl := Option.some_inj.mp hpos
  obtain ⟨v, hv⟩ := exists_value_of_between hlo hhi hin
  have hav : a ≤ v := (le_iff_value hlo hv).mp hin.1
  have hvb : v < b := (lt_iff_value hv hhi).mp hin.2
  have hab : 0 < b - a := by linarith
  obtain ⟨c, hc, hc0, hcb⟩ := (rounds_sub hv hlo).exists_between (inRange_of_value value?_zero)
    (inRange_of_value hlength) (by linarith) (by linarith)
  obtain ⟨q, hq, hq0, hq1⟩ := (rounds_div hc hlength hab.ne').exists_between
    (inRange_of_value value?_zero) (inRange_of_value value?_one) (by positivity)
    ((div_le_one hab).mpr hcb)
  obtain ⟨r, hr, hr0, hrh⟩ := (rounds_mul hq hheight).exists_between
    (inRange_of_value value?_zero) (inRange_of_value hheight) (by positivity)
    (mul_le_of_le_one_left hh hq1)
  exact ⟨r, by rw [hzero, value?_zero_add hr], hr0, hrh⟩

theorem Interval.project_isFinite {i target : Interval Float} {a b h : ℚ}
    (hlo : value? i.lo = some a) (hhi : value? i.hi = some b)
    (hlength : value? i.length = some (b - a)) (hzero : target.lo = 0.0)
    (hheight : value? target.length = some h) (hh : 0 ≤ h) {p pos : Float}
    (hpos : i.project p target = some pos) : pos.isFinite = true := by
  obtain ⟨r, hr, -⟩ := project_bounds hlo hhi hlength hzero hheight hh hpos
  rw [← isSome_value?, hr]
  rfl

theorem Axis.project_eq_some {decades : Decades} {screen area : Interval Float} {axis : Axis}
    (h : Axis.create decades (area.project 0.0 screen) screen area = .ok (some axis)) :
    area.project 0.0 screen = some axis.pos ∧
      ∀ tic ∈ axis.tics, area.project tic.label screen = some tic.pos := by
  cases hpos : area.project 0.0 screen with
  | none => simp [create, hpos] at h
  | some pos =>
    rw [hpos, create] at h
    obtain ⟨tics, htics, haxis⟩ := bind_eq_ok.mp h
    obtain rfl := Option.some_inj.mp (Except.ok.inj haxis)
    obtain ⟨whole, -, rfl⟩ := Tic.marks_eq_ok.mp htics
    exact ⟨rfl, fun tic htic => ((Tic.mem_placed ..).mp htic).2⟩

namespace Plot

section Sample

variable {g : Graph Float} {store : Store Float} {limit : Nat} {area screen : Area} {column : Int}

theorem eq_runaway_of_sample {error : PlotError}
    (h : sample g store limit area screen column = .error error) : error = .runaway := by
  unfold sample at h
  cases hx : screen.x.project (Float.ofInt column) area.x with
  | none => simp [hx] at h
  | some x =>
    cases hvalue : g.value? store limit x with
    | error halt =>
      simp only [hx, hvalue, Except.error.injEq] at h
      exact h.symm
    | ok y? => cases y? <;> simp [hx, hvalue] at h

theorem exists_project_of_sample {pos : Float}
    (h : sample g store limit area screen column = .ok (some pos)) :
    ∃ y, area.y.project y screen.y = some pos := by
  unfold sample at h
  cases hx : screen.x.project (Float.ofInt column) area.x with
  | none => simp [hx] at h
  | some x =>
    cases hvalue : g.value? store limit x with
    | error halt => simp [hx, hvalue] at h
    | ok y? =>
      cases y? with
      | none => simp [hx, hvalue] at h
      | some y => exact ⟨y, by simpa [hx, hvalue] using h⟩

end Sample

variable {decades : Decades} (hclose : decades.Close)

-- What is shown in the area of the shell lies on its screen.

private theorem height_isFinite {y pos : Float}
    (h : shellArea.y.project y shellScreen.y = some pos) : pos.isFinite = true :=
  Interval.project_isFinite (a := -10) (b := 10) (h := 20) (by decide +kernel) (by decide +kernel)
    (by decide +kernel) rfl (by decide +kernel) (by norm_num) h

private theorem width_isFinite {x pos : Float}
    (h : shellArea.x.project x shellScreen.x = some pos) : pos.isFinite = true :=
  Interval.project_isFinite (a := -10) (b := 10) (h := 60) (by decide +kernel) (by decide +kernel)
    (by decide +kernel) rfl (by decide +kernel) (by norm_num) h

theorem finite_of_create {g : Graph Float} {store : Store Float} {limit : Nat} {p : Plot}
    (h : create decades g store limit shellArea shellScreen = .ok p) :
    p.Finite ∧ p.screen = shellScreen := by
  obtain ⟨first, -, h⟩ := bind_eq_ok.mp h
  obtain ⟨last, -, h⟩ := bind_eq_ok.mp h
  obtain ⟨points, hpoints, h⟩ := bind_eq_ok.mp h
  obtain ⟨xAxis, hxAxis, h⟩ := bind_eq_ok.mp h
  obtain ⟨yAxis, hyAxis, h⟩ := bind_eq_ok.mp h
  obtain rfl := Except.ok.inj h
  refine ⟨⟨fun point hpoint pos hpos => ?_, fun axis haxis => ?_, fun axis haxis => ?_⟩, rfl⟩
  · obtain rfl : point = some pos := hpos
    obtain ⟨column, -, hsample⟩ := exists_of_mem_mapM hpoints hpoint
    obtain ⟨y, hy⟩ := exists_project_of_sample hsample
    exact height_isFinite hy
  · obtain rfl : xAxis = some axis := haxis
    obtain ⟨hpos, htics⟩ := Axis.project_eq_some hxAxis
    exact ⟨height_isFinite hpos, fun tic htic => height_isFinite (htics tic htic)⟩
  · obtain rfl : yAxis = some axis := haxis
    obtain ⟨hpos, htics⟩ := Axis.project_eq_some hyAxis
    exact ⟨width_isFinite hpos, fun tic htic => width_isFinite (htics tic htic)⟩

-- The area of the shell has marks along both sides.
include hclose in
theorem exists_axis (pos? : Option Float) (screen : Interval Float) :
    ∃ axis?, Axis.create decades pos? screen ⟨-10.0, 10.0⟩ = .ok axis? := by
  have hlength : value? (⟨-10.0, 10.0⟩ : Interval Float).length = some 20 := by decide +kernel
  obtain ⟨tics, htics⟩ := ((Tic.marks_by_length hclose (by decide +kernel) (by decide +kernel)
    (by decide +kernel) hlength screen).1 (by decide +kernel)).2
  cases pos? with
  | none => exact ⟨none, rfl⟩
  | some pos => exact ⟨some ⟨pos, tics⟩, by rw [Axis.create, htics]; rfl⟩

-- Nothing but the function keeps a graph from being drawn on the screen.
include hclose in
theorem exists_picture {g : Graph Float} {store : Store Float} {limit : Nat} {error : PlotError}
    (h : g.picture store limit decades = .error error) : error = .runaway := by
  have hfirst : truncate shellScreen.x.lo = .ok 0 := toOption_eq_some.mp (by decide +kernel)
  have hlast : truncate shellScreen.x.hi = .ok 60 := toOption_eq_some.mp (by decide +kernel)
  rcases bind_eq_error.mp h with hcreate | ⟨p, hcreate, hrender⟩
  · rw [create, hfirst, hlast, ok_bind, ok_bind] at hcreate
    rcases bind_eq_error.mp hcreate with hpoints | ⟨points, -, hcreate⟩
    · obtain ⟨column, -, hsample⟩ := exists_of_mapM_eq_error hpoints
      exact eq_runaway_of_sample hsample
    · obtain ⟨xAxis, hxAxis⟩ := exists_axis hclose
        (shellArea.y.project 0.0 shellScreen.y) shellScreen.y
      obtain ⟨yAxis, hyAxis⟩ := exists_axis hclose
        (shellArea.x.project 0.0 shellScreen.x) shellScreen.x
      rw [show shellArea.y = ⟨-10.0, 10.0⟩ from rfl] at hcreate hxAxis
      rw [show shellArea.x = ⟨-10.0, 10.0⟩ from rfl] at hcreate hyAxis
      rw [hxAxis, hyAxis] at hcreate
      cases hcreate
  · obtain ⟨hfinite, hscreen⟩ := finite_of_create hcreate
    have hrows : p.rowCount = .ok 20 :=
      rowCount_of_value (a := 0) (b := 20) (by rw [hscreen]; decide +kernel)
        (by rw [hscreen]; decide +kernel) (by norm_num) (by norm_num)
    have hmeasured : p.Measured :=
      hfinite.measured (a := 0) (b := 0) (by rw [hscreen]; decide +kernel)
        (by rw [hscreen]; decide +kernel) (by norm_num) (by norm_num)
    obtain ⟨canvas, hcanvas⟩ := exists_canvas hrows hmeasured
    rw [render, lines_of_canvas hrows (by norm_num) hcanvas] at hrender
    cases hrender

end Plot

end Reckon
