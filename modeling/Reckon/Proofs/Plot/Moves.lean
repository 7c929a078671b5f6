import Reckon.Plot.Interval
import Reckon.Proofs.Number.Order

namespace Reckon

open Number

namespace Interval

-- The interval after some moves.
def moved (i : Interval Float) (deltas : List Float) : Interval Float := deltas.foldl shift i

variable {i : Interval Float} {lo hi delta : Float} {deltas : List Float}

theorem moved_append (more : List Float) :
    i.moved (deltas ++ more) = (i.moved deltas).moved more :=
  List.foldl_append

theorem make?_eq_some : make? lo hi = some i ↔ ¬hi ≤ lo ∧ i = ⟨lo, hi⟩ := by
  unfold make?
  split_ifs with h <;> simp [h, eq_comm]

-- The test of the bounds is that of their order, as long as both of them are numbers.
theorem lt_iff_of_make? (h : make? lo hi = some i) :
    i.lo < i.hi ↔ ¬lo.isNaN = true ∧ ¬hi.isNaN = true := by
  obtain ⟨hle, rfl⟩ := make?_eq_some.mp h
  refine ⟨not_isNaN_of_lt, fun ⟨hlo, hhi⟩ => ?_⟩
  obtain ⟨a, ha⟩ := exists_rank hlo
  obtain ⟨b, hb⟩ := exists_rank hhi
  rw [le_iff_rank hb ha, not_le] at hle
  exact (lt_iff_rank ha hb).mpr hle

theorem not_reversed_of_make? (h : make? lo hi = some i) : ¬i.hi < i.lo := by
  obtain ⟨hle, rfl⟩ := make?_eq_some.mp h
  exact mt le_of_lt_float hle

-- The ends were in the order that they have after a move.

theorem lt_of_shift (h : (i.shift delta).lo < (i.shift delta).hi) : i.lo < i.hi :=
  lt_of_add_lt_add_float h

theorem reversed_of_shift (h : (i.shift delta).hi < (i.shift delta).lo) : i.hi < i.lo :=
  lt_of_add_lt_add_float h

theorem lt_of_moved (h : (i.moved deltas).lo < (i.moved deltas).hi) : i.lo < i.hi := by
  induction deltas generalizing i with
  | nil => exact h
  | cons delta deltas ih => exact lt_of_shift (ih h)

theorem reversed_of_moved (h : (i.moved deltas).hi < (i.moved deltas).lo) : i.hi < i.lo := by
  induction deltas generalizing i with
  | nil => exact h
  | cons delta deltas ih => exact reversed_of_shift (ih h)

section Gentle

-- A place in the range of floats, no further from zero than `2 ^ 52` times a length.
def Close (length p : ℚ) : Prop := |p| < ceiling ∧ |p| ≤ 2 ^ 52 * length

-- A move by which both ends of a finite interval come to such places.
def Gentle (i : Interval Float) (delta : Float) : Prop :=
  ∃ a b d, value? i.lo = some a ∧ value? i.hi = some b ∧ value? delta = some d ∧
    Close (b - a) (a + d) ∧ Close (b - a) (b + d)

-- Places that are further apart than a unit, of which they are not too many from zero, are not
-- rounded to one float.
theorem lt_of_unit {v w r s : ℚ} {x y : Float} (hv : Rounds v x) (hw : Rounds w y)
    (hx : value? x = some r) (hy : value? y = some s) {e : ℤ} (he : -1074 ≤ e)
    (hlt : 2 ^ e < w - v) (hv' : |v| ≤ 2 ^ 53 * 2 ^ e) (hw' : |w| ≤ 2 ^ 53 * 2 ^ e) : r < s := by
  have hnear := abs_le.mp (hv.near_unit hx he hv')
  have hnear' := abs_le.mp (hw.near_unit hy he hw')
  linarith

-- Near zero floats are as far apart as the least one is from zero, and sums are exact.
theorem value?_add_least {x y : Float} {a b : ℚ} (hx : value? x = some a) (hy : value? y = some b)
    (h : |a + b| ≤ 2 ^ 53 * 2 ^ (-1074 : ℤ)) : value? (x + y) = some (a + b) := by
  have hpos : (0 : ℚ) < 2 ^ (-1074 : ℤ) := by positivity
  obtain ⟨n, rfl⟩ := (representable_of_value hx).exists_multiple
  obtain ⟨m, rfl⟩ := (representable_of_value hy).exists_multiple
  have hsum := rounds_add hx hy
  rw [← add_mul, ← Int.cast_add] at h hsum ⊢
  have hbits : |n + m| ≤ 2 ^ 53 := by
    rw [abs_mul, abs_of_pos hpos, mul_le_mul_iff_left₀ hpos] at h
    exact_mod_cast h
  exact hsum.value_eq (representable_of_le hbits le_rfl) (lt_ceiling_of_unit (by norm_num) h)

theorem shift_lt (h : i.lo < i.hi) (hgentle : Gentle i delta) :
    (i.shift delta).lo < (i.shift delta).hi := by
  obtain ⟨a, b, d, ha, hb, hd, ⟨hrange, hlo⟩, hrange', hhi⟩ := hgentle
  have hsum := rounds_add ha hd
  have hsum' := rounds_add hb hd
  obtain ⟨r, hr⟩ := hsum.exists_value hrange
  obtain ⟨s, hs⟩ := hsum'.exists_value hrange'
  refine (lt_iff_value hr hs).mpr ?_
  have hlength : 0 < b - a := sub_pos.mpr ((lt_iff_value ha hb).mp h)
  obtain ⟨e, hlow, hhigh⟩ := exists_mem_Ioc_zpow hlength (by norm_num : (1 : ℚ) < 2)
  have hunit : 2 ^ 52 * (b - a) ≤ 2 ^ 53 * 2 ^ e := by
    rw [zpow_add_one₀ (by norm_num)] at hhigh
    linarith
  by_cases he : -1074 ≤ e
  · exact lt_of_unit hsum hsum' hr hs he (by linarith) (hlo.trans hunit) (hhi.trans hunit)
  · have hleast : 2 ^ 53 * (2 : ℚ) ^ e ≤ 2 ^ 53 * 2 ^ (-1074 : ℤ) := by
      gcongr
      · norm_num
      · omega
    have hr' := value?_add_least ha hd (hlo.trans (hunit.trans hleast))
    have hs' := value?_add_least hb hd (hhi.trans (hunit.trans hleast))
    rw [Option.some_inj.mp (hr.symm.trans hr'), Option.some_inj.mp (hs.symm.trans hs')]
    linarith

-- Moves each of which is gentle for the interval that it meets.
def Gently : Interval Float → List Float → Prop
  | _, [] => True
  | i, delta :: deltas => Gentle i delta ∧ Gently (i.shift delta) deltas

theorem moved_lt (h : i.lo < i.hi) (hgently : Gently i deltas) :
    (i.moved deltas).lo < (i.moved deltas).hi := by
  induction deltas generalizing i with
  | nil => exact h
  | cons delta deltas ih => exact ih (shift_lt h hgently.1) hgently.2

end Gentle

end Interval

namespace Area

-- A move of both sides of an area, or of one of them by itself.
inductive Move where
  | both (dx dy : Float)
  | x (delta : Float)
  | y (delta : Float)

namespace Move

def dx? : Move → Option Float
  | both dx _ => some dx
  | x delta => some delta
  | y _ => none

def dy? : Move → Option Float
  | both _ dy => some dy
  | x _ => none
  | y delta => some delta

end Move

def move (a : Area) : Move → Area
  | .both dx dy => a.shift dx dy
  | .x delta => { a with x := a.x.shift delta }
  | .y delta => { a with y := a.y.shift delta }

-- The sides of an area move as intervals by themselves do.
theorem foldl_move (a : Area) (moves : List Move) :
    moves.foldl move a =
      ⟨a.x.moved (moves.filterMap Move.dx?), a.y.moved (moves.filterMap Move.dy?)⟩ := by
  induction moves generalizing a with
  | nil => rfl
  | cons m moves ih =>
    rw [List.foldl_cons, ih]
    cases m <;> rfl

end Area

namespace Interval

-- Main statement.
theorem moved_order {lo hi : Float} {i : Interval Float} (hmade : make? lo hi = some i)
    (deltas : List Float) :
    (i.lo < i.hi ↔ ¬lo.isNaN = true ∧ ¬hi.isNaN = true) ∧
    ((i.moved deltas).lo < (i.moved deltas).hi ↔
      ¬(i.moved deltas).lo.isNaN = true ∧ ¬(i.moved deltas).hi.isNaN = true ∧
        ((i.moved deltas).lo == (i.moved deltas).hi) = false) ∧
    (∀ more, (i.moved (deltas ++ more)).lo < (i.moved (deltas ++ more)).hi →
      (i.moved deltas).lo < (i.moved deltas).hi) ∧
    (i.lo < i.hi → Gently i deltas → (i.moved deltas).lo < (i.moved deltas).hi) ∧
    ∀ (a : Area) (moves : List Area.Move),
      (a.x = i → (moves.foldl Area.move a).x = i.moved (moves.filterMap Area.Move.dx?)) ∧
      (a.y = i → (moves.foldl Area.move a).y = i.moved (moves.filterMap Area.Move.dy?)) := by
  refine ⟨lt_iff_of_make? hmade, ?_, fun more hlt => ?_, fun hlt hgently => ?_,
    fun a moves => ?_⟩
  · exact lt_iff_of_not_lt (mt reversed_of_moved (not_reversed_of_make? hmade))
  · rw [moved_append] at hlt
    exact lt_of_moved hlt
  · exact moved_lt hlt hgently
  · rw [Area.foldl_move]
    exact ⟨fun h => congrArg (moved · _) h, fun h => congrArg (moved · _) h⟩

-- An area moved to and fro along both axes, of which one takes it out of the reach of sums.
theorem moved_order_panned :
    let unit : Interval Float := ⟨0.0, 1.0⟩
    let moves : List Area.Move := [.both 0.5 1e300, .x (-2.0)]
    make? 0.0 1.0 = some unit ∧ unit.lo < unit.hi ∧
    (moves.foldl Area.move ⟨unit, unit⟩).x = unit.moved [0.5, -2.0] ∧
    (unit.moved [0.5, -2.0]).lo < (unit.moved [0.5, -2.0]).hi ∧
    (moves.foldl Area.move ⟨unit, unit⟩).y = unit.moved [1e300] ∧
    ¬(unit.moved [1e300]).lo < (unit.moved [1e300]).hi := by
  intro unit moves
  have hmade : make? 0.0 1.0 = some unit := make?_eq_some.mpr ⟨by decide +kernel, rfl⟩
  obtain ⟨hunit, hmoved, -, -, hareas⟩ := moved_order hmade [0.5, -2.0]
  have hhigh := (moved_order hmade [1e300]).2.1
  exact ⟨hmade, hunit.mpr (by decide +kernel), (hareas ⟨unit, unit⟩ moves).1 rfl,
    hmoved.mpr (by decide +kernel), (hareas ⟨unit, unit⟩ moves).2 rfl,
    fun hlt => absurd (hhigh.mp hlt).2.2 (by decide +kernel)⟩

-- A bound that is no number, one move that is too far, and an infinite one.
theorem unordered_interval_held :
    (∃ i, make? (0.0 / 0.0) 1.0 = some i ∧ ¬i.lo < i.hi) ∧
    ∃ i, make? 0.0 1.0 = some i ∧ i.lo < i.hi ∧
      ¬(i.moved [1e300]).lo < (i.moved [1e300]).hi ∧
      ¬(i.moved [1.0 / 0.0]).lo < (i.moved [1.0 / 0.0]).hi :=
  ⟨⟨_, make?_eq_some.mpr ⟨by decide +kernel, rfl⟩, by decide +kernel⟩,
    _, make?_eq_some.mpr ⟨by decide +kernel, rfl⟩, by decide +kernel, by decide +kernel,
      by decide +kernel⟩

end Interval

end Reckon
