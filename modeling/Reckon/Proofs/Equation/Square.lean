import Reckon.Proofs.Equation
import Reckon.Proofs.Number.Underflow

namespace Reckon

open LinearForm

variable {α : Type} [Arithmetic α] {store : Store α} {limit : Nat} {scope : Scope α} {x : String}

-- No operand is skipped: where an operand has a form, all operands outside of calls have one.
theorem LinearForm.exists_ofOperand_of_mem_outer : (t : Operand α) → {form : LinearForm α} →
    ofOperand store limit scope x t = .ok form → ∀ u ∈ t.outer,
      ∃ part, ofOperand store limit scope x u = .ok part
  | .number value, form, h => by
    intro u hu
    obtain rfl := List.mem_singleton.mp hu
    exact ⟨form, h⟩
  | .symbol name, form, h => by
    intro u hu
    obtain rfl := List.mem_singleton.mp hu
    exact ⟨form, h⟩
  | .term operation lhs rhs, form, h => by
    intro u hu
    rcases List.mem_cons.mp hu with rfl | hu
    · exact ⟨form, h⟩
    · rw [ofOperand_term] at h
      obtain ⟨l, hl, h⟩ := bind_eq_ok.mp h
      obtain ⟨r, hr, -⟩ := bind_eq_ok.mp h
      rcases List.mem_append.mp hu with hu | hu
      · exact exists_ofOperand_of_mem_outer lhs hl u hu
      · exact exists_ofOperand_of_mem_outer rhs hr u hu
  | .call name args, form, h => by
    intro u hu
    obtain rfl := List.mem_singleton.mp hu
    exact ⟨form, h⟩

-- An equation with a part that has no form is not solved.
theorem solveFor_ne_ok_of_error {lhs rhs u : Operand α} {halt : Halt EquationError}
    (hu : u ∈ lhs.outer ++ rhs.outer) (herror : ofOperand store limit scope x u = .error halt)
    (value : α) : solveFor store limit scope lhs rhs x ≠ .ok value := by
  intro h
  obtain ⟨l, r, hl, hr, -⟩ := solveFor_eq_ok.mp h
  have hpart : ∃ part, ofOperand store limit scope x u = .ok part := by
    rcases List.mem_append.mp hu with hu | hu
    · exact exists_ofOperand_of_mem_outer lhs hl u hu
    · exact exists_ofOperand_of_mem_outer rhs hr u hu
  obtain ⟨part, hpart⟩ := hpart
  rw [herror] at hpart
  cases hpart

theorem LinearForm.ofOperand_mul_eq_square_iff {l r : Operand α} {fl fr : LinearForm α}
    (hl : ofOperand store limit scope x l = .ok fl) (hr : ofOperand store limit scope x r = .ok fr) :
    ofOperand store limit scope x (.term .mul l r) = .error (.fault .square) ↔
      Arithmetic.isZero (fl.slope * fr.slope) = false := by
  rw [ofOperand_term, hl, hr]
  simp only [ok_bind, combine]
  cases Arithmetic.isZero (fl.slope * fr.slope) <;> simp [Except.mapError]

-- The product of two operands that have forms is refused as a square, and no equation that holds it
-- is solved, unless the slopes vanish in their product.
theorem product_refused_iff {store : Store Float} {limit : Nat} {scope : Scope Float} {x : String}
    {l r : Operand Float} {fl fr : LinearForm Float}
    (hl : ofOperand store limit scope x l = .ok fl)
    (hr : ofOperand store limit scope x r = .ok fr) :
    (ofOperand store limit scope x (.term .mul l r) = .error (.fault .square) ↔
      ¬Number.ProductVanishes fl.slope fr.slope) ∧
    (¬Number.ProductVanishes fl.slope fr.slope → ∀ lhs rhs,
      .term .mul l r ∈ lhs.outer ++ rhs.outer → ∀ value,
        solveFor store limit scope lhs rhs x ≠ .ok value) := by
  have hsquare : ofOperand store limit scope x (.term .mul l r) = .error (.fault .square) ↔
      ¬Number.ProductVanishes fl.slope fr.slope := by
    rw [ofOperand_mul_eq_square_iff hl hr, ← Number.mul_beq_zero_iff, Bool.not_eq_true]
    rfl
  exact ⟨hsquare, fun h lhs rhs hmem => solveFor_ne_ok_of_error hmem (hsquare.mpr h)⟩

-- The equation x * (x + 1) = 6 is not solved.
theorem product_refused_iff_successor :
    let successor : Operand Float := .term .add (.symbol "x") (.number 1.0)
    ofOperand .empty 0 (.ofRoot 0) "x" (.term .mul (.symbol "x") successor) =
      .error (.fault .square) ∧
    ∀ value, solveFor .empty 0 (.ofRoot 0) (.term .mul (.symbol "x") successor) (.number 6.0) "x" ≠
      .ok value := by
  intro successor
  have hx : ofOperand .empty 0 (.ofRoot 0) "x" (.symbol "x" : Operand Float) = .ok unknown := rfl
  have hsuccessor : ofOperand .empty 0 (.ofRoot 0) "x" successor = .ok ⟨1.0 + 0.0, 0.0 + 1.0⟩ := rfl
  have hslopes : ¬Number.ProductVanishes (unknown : LinearForm Float).slope (1.0 + 0.0) := by
    rw [← Number.mul_beq_zero_iff]
    decide +kernel
  obtain ⟨hsquare, hsolve⟩ := product_refused_iff hx hsuccessor
  exact ⟨hsquare.mpr hslopes, hsolve hslopes _ _ (by simp [Operand.outer])⟩

-- The product of 1e-200 * x with itself has the form of a constant: 1e-400 is less than any float.
-- Multiplied back to x * x and added to x, it leaves the solution 6 of x * x + x = 6.
theorem square_dropped :
    let small : Operand Float := .term .mul (.number 1e-200) (.symbol "x")
    let square : Operand Float := .term .mul small small
    ofOperand .empty 0 (.ofRoot 0) "x" small = .ok ⟨1e-200, 0.0⟩ ∧
    Arithmetic.isZero (1e-200 : Float) = false ∧ (1e-200 : Float).isNaN = false ∧
    ofOperand .empty 0 (.ofRoot 0) "x" square = .ok ⟨0.0, 0.0⟩ ∧
    solveFor .empty 0 (.ofRoot 0)
      (.term .add (.term .mul (.term .mul square (.number 1e200)) (.number 1e200)) (.symbol "x"))
      (.number 6.0) "x" = .ok 6.0 := by
  decide +kernel

end Reckon
