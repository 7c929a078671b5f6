import Reckon.Equation
import Reckon.Proofs.Evaluation

namespace Reckon

namespace LinearForm

variable {α : Type} [Arithmetic α]

-- The rest of a chain is combined with the form of the operand that starts it.
theorem chain_eq (store : Store α) (limit : Nat) (scope : Scope α) (x : String) :
    (t : Operand α) → (pending : List (Pending α)) →
      chain store limit scope x t pending =
        chain store limit scope x t [] >>= fun form => combineAll form pending
  | .number value, pending => by simp [chain, combineAll]
  | .symbol name, pending => by
    by_cases hx : name = x
    · simp [chain, hx, combineAll]
    · simp only [chain, if_neg hx]
      cases store.get? scope name with
      | none => rfl
      | some value => simp [combineAll]
  | .term operation lhs rhs, pending => by
    rw [chain, chain, chain_eq store limit scope x lhs, chain_eq store limit scope x lhs [_],
      bind_assoc]
    congr 1
    funext form
    simp [combineAll]
  | .call name args, pending => by simp [chain, combineAll]

section Equations

variable (store : Store α) (limit : Nat) (scope : Scope α) (x : String)

theorem ofOperand_number (value : α) :
    ofOperand store limit scope x (.number value) = .ok (constant value) := rfl

theorem ofOperand_unknown : ofOperand store limit scope x (.symbol x) = .ok unknown := by
  simp [ofOperand, chain, combineAll]

theorem ofOperand_symbol {name : String} (h : name ≠ x) :
    ofOperand store limit scope x (.symbol name) =
      match store.get? scope name with
      | some value => .ok (constant value)
      | none => .error (.fault (.unknownVariable name)) := by
  rw [ofOperand, chain, if_neg h]
  cases store.get? scope name <;> rfl

theorem ofOperand_term (operation : Operation) (lhs rhs : Operand α) :
    ofOperand store limit scope x (.term operation lhs rhs) =
      (do
        let l ← ofOperand store limit scope x lhs
        let r ← ofOperand store limit scope x rhs
        (combine operation l r).mapError .fault) := by
  rw [ofOperand, chain, chain_eq]
  simp [ofOperand, combineAll]

theorem ofOperand_call (name : String) (args : List (Operand α)) :
    ofOperand store limit scope x (.call name args) =
      (Evaluation.evaluate store limit scope (.call name args)).mapError (Halt.map .operand) >>=
        fun value => .ok (constant value) := by
  rw [ofOperand, chain]
  simp [combineAll]

end Equations

-- The form depends on the symbols that are written in the operand and on what its calls give. The
-- unknown itself is read in arguments only.
theorem ofOperand_congr {limit : Nat} {store store' : Store α} {scope scope' : Scope α}
    (hcalls : Evaluation.SameCalls limit store store' scope scope') (x : String) :
    (t : Operand α) →
      (∀ name ∈ t.symbols, name ≠ x → store'.get? scope' name = store.get? scope name) →
      (∀ name ∈ t.argumentSymbols, store'.get? scope' name = store.get? scope name) →
        ofOperand store' limit scope' x t = ofOperand store limit scope x t
  | .number _, _, _ => rfl
  | .symbol name, hsymbols, _ => by
    by_cases hx : name = x
    · rw [hx, ofOperand_unknown, ofOperand_unknown]
    · rw [ofOperand_symbol _ _ _ _ hx, ofOperand_symbol _ _ _ _ hx,
        hsymbols name (by simp [Operand.symbols]) hx]
  | .term operation lhs rhs, hsymbols, hargs => by
    simp only [Operand.symbols, List.mem_append, or_imp, forall_and] at hsymbols
    simp only [Operand.argumentSymbols, List.mem_append, or_imp, forall_and] at hargs
    rw [ofOperand_term, ofOperand_term, ofOperand_congr hcalls x lhs hsymbols.1 hargs.1,
      ofOperand_congr hcalls x rhs hsymbols.2 hargs.2]
  | .call name args, _, hargs => by
    rw [ofOperand_call, ofOperand_call, Evaluation.evaluate_congr hcalls (.call name args) hargs]

theorem combine_ne_noVariable (operation : Operation) (l r : LinearForm α) :
    combine operation l r ≠ .error .noVariable := by
  cases operation <;> simp only [combine] <;> try split
  all_goals simp

-- No form fails for want of the unknown: that is told of equations only.
theorem ofOperand_ne_noVariable (store : Store α) (limit : Nat) (scope : Scope α) (x : String) :
    (t : Operand α) → ofOperand store limit scope x t ≠ .error (.fault .noVariable)
  | .number _ => by simp [ofOperand_number]
  | .symbol name => by
    by_cases hx : name = x
    · simp [hx, ofOperand_unknown]
    · rw [ofOperand_symbol _ _ _ _ hx]
      cases store.get? scope name <;> simp
  | .term operation lhs rhs => by
    rw [ofOperand_term]
    intro h
    rcases bind_eq_error.mp h with h | ⟨l, -, h⟩
    · exact ofOperand_ne_noVariable store limit scope x lhs h
    · rcases bind_eq_error.mp h with h | ⟨r, -, h⟩
      · exact ofOperand_ne_noVariable store limit scope x rhs h
      · cases hform : combine operation l r with
        | ok form => simp [hform, Except.mapError] at h
        | error error =>
          have hne := combine_ne_noVariable operation l r
          simp_all [Except.mapError]
  | .call name args => by
    rw [ofOperand_call]
    cases Evaluation.evaluate store limit scope (.call name args) with
    | ok value => simp [Except.mapError]
    | error halt => cases halt <;> simp [Except.mapError, Halt.map]

end LinearForm

-- The same equation has the same solution, or fails in the same way, in two environments that
-- differ in the value of the unknown only.
theorem solveFor_congr {α : Type} [Arithmetic α] {limit : Nat} {store store' : Store α}
    {scope scope' : Scope α} (hcalls : Evaluation.SameCalls limit store store' scope scope')
    {lhs rhs : Operand α} {x : String}
    (hsymbols : ∀ t ∈ [lhs, rhs], ∀ name ∈ t.symbols, name ≠ x →
      store'.get? scope' name = store.get? scope name)
    (hargs : ∀ t ∈ [lhs, rhs], ∀ name ∈ t.argumentSymbols,
      store'.get? scope' name = store.get? scope name) :
    solveFor store' limit scope' lhs rhs x = solveFor store limit scope lhs rhs x := by
  have hform : ∀ t ∈ [lhs, rhs], LinearForm.ofOperand store' limit scope' x t =
      LinearForm.ofOperand store limit scope x t := fun t ht =>
    LinearForm.ofOperand_congr hcalls x t (hsymbols t ht) (hargs t ht)
  rw [solveFor, solveFor, hform lhs (by simp), hform rhs (by simp)]

-- A solution is isolated from the forms of both sides.
theorem solveFor_eq_ok {α : Type} [Arithmetic α] {store : Store α} {limit : Nat} {scope : Scope α}
    {lhs rhs : Operand α} {x : String} {value : α} :
    solveFor store limit scope lhs rhs x = .ok value ↔
      ∃ l r, LinearForm.ofOperand store limit scope x lhs = .ok l ∧
        LinearForm.ofOperand store limit scope x rhs = .ok r ∧ LinearForm.isolate l r = .ok value := by
  simp only [solveFor, bind_eq_ok, mapError_eq_ok]
  constructor
  · rintro ⟨l, hl, r, hr, h⟩
    exact ⟨l, r, hl, hr, h⟩
  · rintro ⟨l, r, hl, hr, h⟩
    exact ⟨l, hl, r, hr, h⟩

-- An equation is without the unknown when both sides have forms with the same slope.
theorem solveFor_eq_noVariable {α : Type} [Arithmetic α] {store : Store α} {limit : Nat}
    {scope : Scope α} {lhs rhs : Operand α} {x : String}
    (h : solveFor store limit scope lhs rhs x = .error (.fault .noVariable)) :
    ∃ l r, LinearForm.ofOperand store limit scope x lhs = .ok l ∧
      LinearForm.ofOperand store limit scope x rhs = .ok r ∧
      Arithmetic.isZero (l.slope - r.slope) = true := by
  rcases bind_eq_error.mp h with h | ⟨l, hl, h⟩
  · exact absurd h (LinearForm.ofOperand_ne_noVariable store limit scope x lhs)
  · rcases bind_eq_error.mp h with h | ⟨r, hr, h⟩
    · exact absurd h (LinearForm.ofOperand_ne_noVariable store limit scope x rhs)
    · refine ⟨l, r, hl, hr, ?_⟩
      cases hslope : Arithmetic.isZero (l.slope - r.slope) with
      | true => rfl
      | false => simp [LinearForm.isolate, hslope, Except.mapError] at h

end Reckon
