import Mathlib.Algebra.Order.Field.Rat
import Mathlib.Order.Interval.Set.Defs
import Mathlib.Tactic.Linarith
import Mathlib.Tactic.FieldSimp
import Mathlib.Tactic.Ring
import Mathlib.Tactic.Positivity
import Reckon.Plot.Interval

namespace Reckon.Interval

variable {i target : Interval ℚ} {p q r s : ℚ}

theorem project_eq_none : i.project p target = none ↔ p ∉ Set.Ico i.lo i.hi := by
  unfold project
  split_ifs with h <;> simpa [Set.mem_Ico] using h

theorem project_eq_some : i.project p target = some r ↔ p ∈ Set.Ico i.lo i.hi ∧
    target.lo + (p - i.lo) / i.length * target.length = r := by
  unfold project
  split_ifs with h <;> simp [Set.mem_Ico, h]

-- Where a point lies between the ends, as a part of the length.
theorem part_mem (hp : p ∈ Set.Ico i.lo i.hi) : (p - i.lo) / i.length ∈ Set.Ico (0 : ℚ) 1 := by
  obtain ⟨hlo, hhi⟩ := hp
  have hlength : 0 < i.length := sub_pos.mpr (hlo.trans_lt hhi)
  refine ⟨div_nonneg (sub_nonneg.mpr hlo) hlength.le, ?_⟩
  rw [div_lt_one hlength, length]
  linarith

section Ordered

variable (hi : i.lo < i.hi) (ht : target.lo < target.hi)
include ht

theorem project_mem (h : i.project p target = some r) : r ∈ Set.Ico target.lo target.hi := by
  obtain ⟨hp, rfl⟩ := project_eq_some.mp h
  obtain ⟨hnonneg, hlt⟩ := part_mem hp
  have hlength : 0 < target.length := sub_pos.mpr ht
  generalize (p - i.lo) / i.length = part at hnonneg hlt
  refine ⟨le_add_of_nonneg_right (by positivity), ?_⟩
  calc target.lo + part * target.length < target.lo + 1 * target.length := by gcongr
    _ = target.hi := by rw [length]; ring

include hi

-- The affine map of the other direction undoes it.
theorem project_project (h : i.project p target = some r) : target.project r i = some p := by
  have hr := project_mem ht h
  obtain ⟨-, rfl⟩ := project_eq_some.mp h
  refine project_eq_some.mpr ⟨hr, ?_⟩
  have hlength : i.length ≠ 0 := (sub_pos.mpr hi).ne'
  have hlength' : target.length ≠ 0 := (sub_pos.mpr ht).ne'
  field_simp
  ring

theorem project_lt_project (hp : i.project p target = some r) (hq : i.project q target = some s) :
    r < s ↔ p < q := by
  obtain ⟨-, rfl⟩ := project_eq_some.mp hp
  obtain ⟨-, rfl⟩ := project_eq_some.mp hq
  have hlength : 0 < i.length := sub_pos.mpr hi
  have hlength' : 0 < target.length := sub_pos.mpr ht
  rw [add_lt_add_iff_left, mul_lt_mul_iff_left₀ hlength', div_lt_div_iff_of_pos_right hlength,
    sub_lt_sub_iff_right]

-- Inside the interval, projection is an order isomorphism onto the other one, whose inverse is
-- projection back. So samples and the line where zero lies, which are projected alike, keep their
-- order.
theorem project_isomorphism :
    (∀ p, i.project p target = none ↔ p < i.lo ∨ i.hi ≤ p) ∧
    (∀ p r, i.project p target = some r → target.lo ≤ r ∧ r < target.hi) ∧
    (∀ p q r s, i.project p target = some r → i.project q target = some s → (r < s ↔ p < q)) ∧
    ∀ p r, i.project p target = some r ↔ target.project r i = some p := by
  refine ⟨fun p => ?_, fun p r h => project_mem ht h,
    fun p q r s hp hq => project_lt_project hi ht hp hq, fun p r => ?_⟩
  · rw [project_eq_none, Set.mem_Ico, not_and_or, not_le, not_lt]
  · exact ⟨project_project hi ht, project_project ht hi⟩

end Ordered

-- A sample above the zero line of an area, and both back from the screen.
theorem project_isomorphism_sample :
    (⟨-100, 100⟩ : Interval ℚ).project 0 ⟨0, 30⟩ = some 15 ∧
    (⟨-100, 100⟩ : Interval ℚ).project (1 / 3) ⟨0, 30⟩ = some (301 / 20) ∧
    ((15 : ℚ) < 301 / 20 ↔ (0 : ℚ) < 1 / 3) ∧
    (⟨0, 30⟩ : Interval ℚ).project (301 / 20) ⟨-100, 100⟩ = some (1 / 3) ∧
    (⟨-100, 100⟩ : Interval ℚ).project 100 ⟨0, 30⟩ = none := by
  have hplot : (⟨-100, 100⟩ : Interval ℚ).lo < (⟨-100, 100⟩ : Interval ℚ).hi := by norm_num
  have hscreen : (⟨0, 30⟩ : Interval ℚ).lo < (⟨0, 30⟩ : Interval ℚ).hi := by norm_num
  obtain ⟨hnone, -, horder, hback⟩ := project_isomorphism hplot hscreen
  have hzero : (⟨-100, 100⟩ : Interval ℚ).project 0 ⟨0, 30⟩ = some 15 := by decide +kernel
  have hsample : (⟨-100, 100⟩ : Interval ℚ).project (1 / 3) ⟨0, 30⟩ = some (301 / 20) := by
    decide +kernel
  exact ⟨hzero, hsample, horder _ _ _ _ hzero hsample, (hback _ _).mp hsample,
    (hnone _).mpr (.inr le_rfl)⟩

end Reckon.Interval
