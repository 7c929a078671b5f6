import Reckon.Proofs.Arithmetic.Zero
import Reckon.Proofs.Equation

namespace Reckon

open Arithmetic

variable {α : Type} [Arithmetic α] {Finite : α → Prop}

namespace LinearForm

-- Zeros stay zeros under all six operations, as long as no value is infinite.
theorem combine_of_isZero (laws : ZeroLaws Finite) (operation : Operation) {l r : LinearForm α}
    (hl : isZero l.slope = true) (hr : isZero r.slope = true) (hlv : Finite l.intercept)
    (hrv : Finite r.intercept) (hv : Finite (operation.apply l.intercept r.intercept)) :
    ∃ slope, isZero slope = true ∧
      combine operation l r = .ok ⟨slope, operation.apply l.intercept r.intercept⟩ := by
  have hboth : (isZero l.slope && isZero r.slope) = true := by rw [hl, hr, Bool.and_self]
  cases operation with
  | add => exact ⟨_, laws.isZero_add hl hr, rfl⟩
  | sub => exact ⟨_, laws.isZero_sub hl hr, rfl⟩
  | mul =>
    have hsquare : isZero (l.slope * r.slope) = true :=
      laws.isZero_mul hl (laws.finite_of_isZero hr)
    exact ⟨_, laws.isZero_add (laws.isZero_mul hl hrv) (laws.isZero_mul hr hlv), if_pos hsquare⟩
  | div =>
    -- a zero in the denominator would have made the quotient infinite
    have hne : isZero r.intercept = false := by
      cases hzero : isZero r.intercept with
      | false => rfl
      | true => exact absurd hv (laws.not_finite_div hlv hzero)
    exact ⟨_, laws.isZero_div hl hrv hne, if_pos hr⟩
  | rem => exact ⟨_, laws.isZero_zero, if_pos hboth⟩
  | pow => exact ⟨_, laws.isZero_zero, if_pos hboth⟩

section Operands

variable {store : Store α} {limit : Nat} {scope : Scope α} {x : String}

theorem ofOperand_of_evaluate (laws : ZeroLaws Finite) :
    (t : Operand α) → .symbol x ∉ t.outer →
      (∀ u ∈ t.outer, ∀ v, Evaluation.evaluate store limit scope u = .ok v → Finite v) →
      ∀ value, Evaluation.evaluate store limit scope t = .ok value →
        ∃ slope, isZero slope = true ∧ ofOperand store limit scope x t = .ok ⟨slope, value⟩
  | .number v, _, _, value, hvalue => by
    obtain rfl := Except.ok.inj hvalue
    exact ⟨_, laws.isZero_zero, ofOperand_number ..⟩
  | .symbol name, hx, _, value, hvalue => by
    have hname : name ≠ x := by
      rintro rfl
      exact hx (Operand.self_mem_outer _)
    rw [Evaluation.evaluate_symbol] at hvalue
    cases hget : store.get? scope name with
    | none =>
      rw [hget] at hvalue
      cases hvalue
    | some v =>
      rw [hget] at hvalue
      obtain rfl := Except.ok.inj hvalue
      exact ⟨_, laws.isZero_zero, by rw [ofOperand_symbol _ _ _ _ hname, hget]; rfl⟩
  | .term operation lhs rhs, hx, hfinite, value, hvalue => by
    have hv := hfinite _ (Operand.self_mem_outer _) value hvalue
    simp only [Operand.outer, List.mem_cons, List.mem_append, not_or] at hx hfinite
    rw [Evaluation.evaluate_term] at hvalue
    obtain ⟨l, hl, hvalue⟩ := bind_eq_ok.mp hvalue
    obtain ⟨r, hr, hvalue⟩ := bind_eq_ok.mp hvalue
    obtain rfl : operation.apply l r = value := Except.ok.inj hvalue
    obtain ⟨ls, hls, hlform⟩ :=
      ofOperand_of_evaluate laws lhs hx.2.1 (fun u hu => hfinite u (.inr (.inl hu))) l hl
    obtain ⟨rs, hrs, hrform⟩ :=
      ofOperand_of_evaluate laws rhs hx.2.2 (fun u hu => hfinite u (.inr (.inr hu))) r hr
    have hlv : Finite l := hfinite lhs (.inr (.inl lhs.self_mem_outer)) l hl
    have hrv : Finite r := hfinite rhs (.inr (.inr rhs.self_mem_outer)) r hr
    obtain ⟨slope, hslope, hform⟩ :=
      combine_of_isZero laws operation (l := ⟨ls, l⟩) (r := ⟨rs, r⟩) hls hrs hlv hrv hv
    refine ⟨slope, hslope, ?_⟩
    rw [ofOperand_term, hlform, hrform]
    simp only [ok_bind, hform]
    rfl
  | .call name args, _, _, value, hvalue => by
    refine ⟨_, laws.isZero_zero, ?_⟩
    rw [ofOperand_call, hvalue]
    rfl

end Operands

theorem isolate_unknown (laws : ZeroLaws Finite) {slope value : α} (h : isZero slope = true) :
    isolate unknown ⟨slope, value⟩ = .ok value := by
  simp only [isolate, unknown, laws.one_sub h, laws.isZero_one, laws.sub_zero, laws.div_one]
  rfl

end LinearForm

-- An operand in which the unknown stands in arguments at most has the same value for the solver as
-- for the evaluator, if no value on the way is infinite. So `x = t` is solved by the value of `t`.
theorem solveFor_eq_evaluate (laws : ZeroLaws Finite) (store : Store α) (limit : Nat)
    (scope : Scope α) (x : String) (t : Operand α) (hx : .symbol x ∉ t.outer) {value : α}
    (hvalue : Evaluation.evaluate store limit scope t = .ok value)
    (hfinite : ∀ u ∈ t.outer, ∀ v, Evaluation.evaluate store limit scope u = .ok v → Finite v) :
    (∃ slope, isZero slope = true ∧
      LinearForm.ofOperand store limit scope x t = .ok ⟨slope, value⟩) ∧
    solveFor store limit scope (.symbol x) t x = .ok value := by
  obtain ⟨slope, hslope, hform⟩ :=
    LinearForm.ofOperand_of_evaluate laws t hx hfinite value hvalue
  refine ⟨⟨slope, hslope, hform⟩, solveFor_eq_ok.mpr ⟨.unknown, _, ?_, hform, ?_⟩⟩
  · exact LinearForm.ofOperand_unknown ..
  · exact LinearForm.isolate_unknown laws hslope

-- A root with two variables and a function, the closure of which has other values for them.
def shadowed : Store Float :=
  ⟨[⟨.ofList [("a", ⟨1.0, false⟩), ("x", ⟨2.0, false⟩)], 0⟩, ⟨.ofList [("a", ⟨10.0, false⟩)], 0⟩],
    [.ofList [("f", .custom ["y"] (.term .add (.symbol "y") (.symbol "a")) (some (.ofRoot 1)))]]⟩

-- The right side of x = (a - 4) / -2 * f(x) is 1.5 * 12, and its slope is a negative zero on the
-- way. The unknown stands in an argument, where it has its value from the environment.
theorem solveFor_eq_evaluate_shadowed :
    let t : Operand Float := .term .mul
      (.term .div (.term .sub (.symbol "a") (.number 4.0)) (.number (-2.0)))
      (.call "f" [.symbol "x"])
    .symbol "x" ∉ t.outer ∧
    (∀ u ∈ t.outer, ∀ v, Evaluation.evaluate shadowed 100 (.ofRoot 0) u = .ok v →
      v.isFinite = true) ∧
    Evaluation.evaluate shadowed 100 (.ofRoot 0) t = .ok 18.0 ∧
    solveFor shadowed 100 (.ofRoot 0) (.symbol "x") t "x" = .ok 18.0 := by
  intro t
  have hproduct : ((1.0 - 4.0) / -2.0 * (2.0 + 10.0) : Float) = 18.0 := by decide +kernel
  have hvalue : Evaluation.evaluate shadowed 100 (.ofRoot 0) t = .ok 18.0 := by
    rw [← hproduct]
    rfl
  have hx : .symbol "x" ∉ t.outer := by simp [t, Operand.outer]
  have hfinite : ∀ u ∈ t.outer, ∀ v,
      Evaluation.evaluate shadowed 100 (.ofRoot 0) u = .ok v → v.isFinite = true := by
    intro u hu v hv
    simp only [t, Operand.outer, List.mem_cons, List.mem_append, List.not_mem_nil, or_false] at hu
    rcases hu with rfl | ((rfl | (rfl | rfl | rfl) | rfl) | rfl) <;>
      (obtain rfl := Except.ok.inj hv; decide +kernel)
  exact ⟨hx, hfinite, hvalue,
    (solveFor_eq_evaluate Number.zeroLaws_float _ _ _ "x" t hx hvalue hfinite).2⟩

end Reckon
