import Reckon.Operand
import Mathlib.Logic.Function.Iterate
import Mathlib.Tactic.Common

namespace Reckon.Operand

variable {α : Type}

theorem depth_pos (t : Operand α) : 0 < t.depth := by
  cases t <;> simp only [depth] <;> omega

-- The deepest level below the entries of a stack.
def reach : List (Operand α × Nat) → Nat
  | [] => 0
  | entry :: stack => max (entry.2 + entry.1.depth - 1) (reach stack)

theorem reach_append (xs ys : List (Operand α × Nat)) :
    reach (xs ++ ys) = max (reach xs) (reach ys) := by
  induction xs with
  | nil => simp [reach]
  | cons x xs ih => simp only [List.cons_append, reach, ih, Nat.max_assoc]

-- The arguments of a call are one level below it, if there are any.
theorem max_reach_atLevel (level : Nat) (args : List (Operand α)) :
    max level (reach (atLevel (level + 1) args)) = level + deepest args := by
  induction args with
  | nil => simp [atLevel, reach, deepest]
  | cons arg args ih =>
    have hpos := arg.depth_pos
    simp only [atLevel_cons, reach_append, reach, deepest] at ih ⊢
    omega

-- A term is on the level of its left operand, so that its level need not be counted apart.
theorem max_reach_children (t : Operand α) (level : Nat) :
    max level (reach (t.children level)) = level + t.depth - 1 := by
  cases t with
  | number value => simp [reach, depth]
  | symbol name => simp [reach, depth]
  | term operation lhs rhs =>
    have hl := lhs.depth_pos
    simp only [children, reach, depth]
    omega
  | call name args =>
    rw [children, max_reach_atLevel, depth]
    omega

theorem stackSize_eq_zero_iff {stack : List (Operand α × Nat)} :
    stackSize stack = 0 ↔ stack = [] := by
  cases stack with
  | nil => simp [stackSize]
  | cons entry stack =>
    have hpos := entry.1.size_pos
    simp only [stackSize, reduceCtorEq, iff_false]
    omega

-- The stack and the deepest level seen so far, a turn later. There is none on an empty stack.
def turn : List (Operand α × Nat) × Nat → List (Operand α × Nat) × Nat
  | ([], seen) => ([], seen)
  | ((t, level) :: stack, seen) => (t.children level ++ stack, max seen level)

theorem stackSize_turn (state : List (Operand α × Nat) × Nat) :
    stackSize (turn state).1 = stackSize state.1 - 1 := by
  match state with
  | ([], seen) => rfl
  | ((t, level) :: stack, seen) =>
    have hsize := t.stackSize_children level
    simp only [turn, stackSize, stackSize_append]
    omega

theorem max_reach_turn (state : List (Operand α × Nat) × Nat) :
    max (turn state).2 (reach (turn state).1) = max state.2 (reach state.1) := by
  match state with
  | ([], seen) => rfl
  | ((t, level) :: stack, seen) =>
    simp only [turn, reach, reach_append, ← max_reach_children t level, Nat.max_assoc]

theorem stackSize_iterate_turn (n : Nat) (state : List (Operand α × Nat) × Nat) :
    stackSize (turn^[n] state).1 = stackSize state.1 - n := by
  induction n generalizing state with
  | zero => rfl
  | succ n ih =>
    rw [Function.iterate_succ_apply, ih, stackSize_turn]
    omega

theorem max_reach_iterate_turn (n : Nat) (state : List (Operand α × Nat) × Nat) :
    max (turn^[n] state).2 (reach (turn^[n] state).1) = max state.2 (reach state.1) := by
  induction n generalizing state with
  | zero => rfl
  | succ n ih => rw [Function.iterate_succ_apply, ih, max_reach_turn]

theorem deepestLevel_eq (stack : List (Operand α × Nat)) (seen : Nat) :
    deepestLevel stack seen = max seen (reach stack) := by
  fun_induction deepestLevel stack seen with
  | case1 seen => simp [reach]
  | case2 t level stack seen ih =>
    exact ih.trans (max_reach_turn ((t, level) :: stack, seen))

theorem reach_singleton (t : Operand α) : reach [(t, 1)] = t.depth := by
  simp only [reach]
  omega

theorem depthByStack_eq (t : Operand α) : t.depthByStack = t.depth := by
  rw [depthByStack, deepestLevel_eq, reach_singleton, Nat.zero_max]

-- The stack is empty after as many turns as there are nodes and not before. What has been seen by
-- then is the depth.
theorem depthByStack_turns (t : Operand α) :
    (∀ n, (turn^[n] ([(t, 1)], 0)).1 = [] ↔ t.size ≤ n) ∧
    turn^[t.size] ([(t, 1)], 0) = ([], t.depthByStack) ∧
    t.depthByStack = t.depth := by
  have hempty (n : Nat) : (turn^[n] ([(t, 1)], 0)).1 = [] ↔ t.size ≤ n := by
    rw [← stackSize_eq_zero_iff, stackSize_iterate_turn]
    simp only [stackSize]
    omega
  have hstack := (hempty t.size).mpr (Nat.le_refl _)
  refine ⟨hempty, ?_, t.depthByStack_eq⟩
  have hreach := max_reach_iterate_turn t.size ([(t, 1)], 0)
  rw [hstack, reach_singleton, ← t.depthByStack_eq] at hreach
  refine Prod.ext hstack ?_
  simpa [reach] using hreach

end Reckon.Operand
