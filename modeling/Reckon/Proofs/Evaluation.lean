import Reckon.Evaluation
import Reckon.Proofs.Operand.Symbols
import Reckon.Proofs.Outcome

namespace Reckon.Evaluation

variable {α : Type} [Arithmetic α]

-- The rest of a chain is applied to the value of the operand that starts it.
theorem chain_eq (apply : String → Function α → List α → Scope α → Result α) (store : Store α)
    (scope : Scope α) : (t : Operand α) → (pending : List (Pending α)) →
      chain apply store scope t pending =
        chain apply store scope t [] >>= fun value => applyAll value pending
  | .number value, pending => by simp [chain, applyAll]
  | .symbol name, pending => by
    simp only [chain]
    cases store.get? scope name with
    | none => rfl
    | some value => simp [applyAll]
  | .term operation lhs rhs, pending => by
    rw [chain, chain, chain_eq apply store scope lhs, chain_eq apply store scope lhs [_], bind_assoc]
    congr 1
    funext value
    simp [applyAll]
  | .call name args, pending => by
    simp only [chain]
    cases store.function? scope.root name with
    | none => rfl
    | some f => simp [applyAll]

section Equations

variable (store : Store α) (limit : Nat) (scope : Scope α)

-- The values of arguments, from left to right.
def evaluateAll (args : List (Operand α)) : Result (List α) :=
  arguments (apply store limit) store scope args

theorem evaluate_number (value : α) : evaluate store limit scope (.number value) = .ok value := rfl

theorem evaluate_symbol (name : String) : evaluate store limit scope (.symbol name) =
    match store.get? scope name with
    | some value => .ok value
    | none => .error (.fault (.unknownSymbol name)) := by
  rw [evaluate, chain]
  cases store.get? scope name <;> rfl

theorem evaluate_term (operation : Operation) (lhs rhs : Operand α) :
    evaluate store limit scope (.term operation lhs rhs) = do
      let l ← evaluate store limit scope lhs
      let r ← evaluate store limit scope rhs
      return operation.apply l r := by
  rw [evaluate, chain, chain_eq]
  rfl

theorem evaluate_term_of_ok (operation : Operation) {lhs rhs : Operand α} {a b : α}
    (ha : evaluate store limit scope lhs = .ok a) (hb : evaluate store limit scope rhs = .ok b) :
    evaluate store limit scope (.term operation lhs rhs) = .ok (operation.apply a b) := by
  rw [evaluate_term, ha, hb]
  rfl

theorem evaluate_call (name : String) (args : List (Operand α)) :
    evaluate store limit scope (.call name args) =
      (match store.function? scope.root name with
      | none => .error (.fault (.unknownFunction name))
      | some f => do
        checkCount name f args.length
        let values ← evaluateAll store limit scope args
        apply store limit name f values scope) := by
  rw [evaluate, chain]
  cases store.function? scope.root name with
  | none => rfl
  | some f => simp [applyAll, evaluateAll]

theorem evaluateAll_cons (arg : Operand α) (args : List (Operand α)) :
    evaluateAll store limit scope (arg :: args) = do
      let value ← evaluate store limit scope arg
      let values ← evaluateAll store limit scope args
      return value :: values := rfl

end Equations

-- The same calls have the same outcome in two environments.
def SameCalls (limit : Nat) (store store' : Store α) (scope scope' : Scope α) : Prop :=
  (∀ name, store'.function? scope'.root name = store.function? scope.root name) ∧
  ∀ name f values, store.function? scope.root name = some f →
    apply store' limit name f values scope' = apply store limit name f values scope

section Congruence

variable {limit : Nat} {store store' : Store α} {scope scope' : Scope α}

mutual

-- The value depends on the symbols that are written in the operand and on what its calls give.
theorem evaluate_congr (hcalls : SameCalls limit store store' scope scope') :
    (t : Operand α) → (∀ name ∈ t.symbols, store'.get? scope' name = store.get? scope name) →
      evaluate store' limit scope' t = evaluate store limit scope t
  | .number _, _ => rfl
  | .symbol name, hsymbols => by
    rw [evaluate_symbol, evaluate_symbol, hsymbols name (by simp [Operand.symbols])]
  | .term operation lhs rhs, hsymbols => by
    simp only [Operand.symbols, List.mem_append, or_imp, forall_and] at hsymbols
    rw [evaluate_term, evaluate_term, evaluate_congr hcalls lhs hsymbols.1,
      evaluate_congr hcalls rhs hsymbols.2]
  | .call name args, hsymbols => by
    rw [evaluate_call, evaluate_call, hcalls.1 name, evaluateAll_congr hcalls args hsymbols]
    cases hf : store.function? scope.root name with
    | none => rfl
    | some f => simp only [hcalls.2 name f _ hf]

theorem evaluateAll_congr (hcalls : SameCalls limit store store' scope scope') :
    (args : List (Operand α)) →
      (∀ name ∈ Operand.symbolsOfAll args, store'.get? scope' name = store.get? scope name) →
        evaluateAll store' limit scope' args = evaluateAll store limit scope args
  | [], _ => rfl
  | arg :: args, hsymbols => by
    simp only [Operand.symbolsOfAll, List.mem_append, or_imp, forall_and] at hsymbols
    rw [evaluateAll_cons, evaluateAll_cons, evaluate_congr hcalls arg hsymbols.1,
      evaluateAll_congr hcalls args hsymbols.2]

end

end Congruence

end Reckon.Evaluation
