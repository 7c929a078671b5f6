import Reckon.Proofs.Equation
import Reckon.Proofs.Evaluation.Closure

namespace Reckon

variable {α : Type}

namespace Operand

-- The operand at the lower end of the left edge.
def leftmost : Operand α → Operand α
  | term _ lhs _ => lhs.leftmost
  | t => t

-- The operations on the left edge with their right operands, the innermost first.
def leftEdge : Operand α → List (Operation × Operand α)
  | term operation lhs rhs => lhs.leftEdge ++ [(operation, rhs)]
  | _ => []

end Operand

namespace Evaluation

variable [Arithmetic α]

section

-- How a function is applied to the values of its arguments.
variable (call : String → Function α → List α → Scope α → Result α)
variable (store : Store α) (scope : Scope α)

mutual

-- The value of an operand by recursion over the tree.
def byParts : Operand α → Result α
  | .number value => .ok value
  | .symbol name =>
    match store.get? scope name with
    | some value => .ok value
    | none => .error (.fault (.unknownSymbol name))
  | .term operation lhs rhs => do
    let l ← byParts lhs
    let r ← byParts rhs
    return operation.apply l r
  | .call name args =>
    match store.function? scope.root name with
    | none => .error (.fault (.unknownFunction name))
    | some f =>
      if f.arity = args.length then do
        let values ← allByParts args
        call name f values scope
      else .error (.fault (.wrongCount name f.arity args.length))

def allByParts : List (Operand α) → Result (List α)
  | [] => .ok []
  | arg :: args => do
    let value ← byParts arg
    let values ← allByParts args
    return value :: values

end

end

-- Applies a function whose body is evaluated by recursion over the tree.
def callByParts (store : Store α) :
    (limit : Nat) → String → Function α → List α → (caller : Scope α) → Result α
  | limit, name, f, values, caller =>
    if f.arity = values.length then
      match f, values with
      | .builtin b, value :: _ => .ok (Arithmetic.apply b value)
      | .builtin _, [] => .error (.fault (.wrongCount name 1 0))
      | .custom params body captured, values =>
        match limit with
        | 0 => .error .runaway
        | limit + 1 =>
          let callee := calleeScope params captured values caller
          byParts (callByParts store limit) store callee body
    else .error (.fault (.wrongCount name f.arity values.length))

section Recursion

variable {store : Store α} {limit : Nat} {scope : Scope α}

omit [Arithmetic α] in
theorem checkCount_bind {β : Type} (name : String) (f : Function α) (count : Nat)
    (rest : Unit → Result β) : (checkCount name f count >>= rest) =
      if f.arity = count then rest () else .error (.fault (.wrongCount name f.arity count)) := by
  rw [checkCount]
  split <;> rfl

mutual

-- Induction on the operand: a term has been turned into a bind of its two sides, and a call asks for
-- its arguments only.
theorem byParts_eq {call : String → Function α → List α → Scope α → Result α}
    (hcall : ∀ name f values, call name f values scope = apply store limit name f values scope) :
    (t : Operand α) → byParts call store scope t = evaluate store limit scope t
  | .number _ => rfl
  | .symbol name => by
    rw [evaluate_symbol]
    cases hget : store.get? scope name <;> simp [byParts, hget]
  | .term operation lhs rhs => by
    rw [byParts, evaluate_term, byParts_eq hcall lhs, byParts_eq hcall rhs]
  | .call name args => by
    rw [byParts, evaluate_call]
    cases store.function? scope.root name with
    | none => rfl
    | some f =>
      simp only [checkCount_bind, allByParts_eq hcall args, hcall]

theorem allByParts_eq {call : String → Function α → List α → Scope α → Result α}
    (hcall : ∀ name f values, call name f values scope = apply store limit name f values scope) :
    (args : List (Operand α)) →
      allByParts call store scope args = evaluateAll store limit scope args
  | [] => rfl
  | arg :: args => by
    rw [allByParts, evaluateAll_cons, byParts_eq hcall arg, allByParts_eq hcall args]

end

-- Induction on how deeply calls may nest: the body has one level less.
theorem callByParts_eq (limit : Nat) (name : String) (f : Function α) (values : List α)
    (caller : Scope α) :
    callByParts store limit name f values caller = apply store limit name f values caller := by
  induction limit generalizing name f values caller with
  | zero =>
    cases f with
    | builtin b =>
      rw [callByParts.eq_def, apply_builtin, checkCount_bind]
      cases values <;> rfl
    | custom params body captured => rw [callByParts, apply_zero, checkCount_bind]
  | succ limit ih =>
    cases f with
    | builtin b =>
      rw [callByParts.eq_def, apply_builtin, checkCount_bind]
      cases values <;> rfl
    | custom params body captured =>
      rw [callByParts, apply_succ, checkCount_bind, byParts_eq fun name f values => ih name f values _]

end Recursion

end Evaluation

namespace LinearForm

variable [Arithmetic α]

section

variable (store : Store α) (limit : Nat) (scope : Scope α) (x : String)

-- The form of an operand by recursion over the tree.
def byParts : Operand α → Result (LinearForm α)
  | .number value => .ok (constant value)
  | .symbol name =>
    if name = x then .ok unknown
    else match store.get? scope name with
      | some value => .ok (constant value)
      | none => .error (.fault (.unknownVariable name))
  | .term operation lhs rhs => do
    let l ← byParts lhs
    let r ← byParts rhs
    (combine operation l r).mapError .fault
  | .call name args => do
    let value ← (Evaluation.byParts (Evaluation.callByParts store limit) store scope
      (.call name args)).mapError (Halt.map .operand)
    return constant value

end

variable {store : Store α} {limit : Nat} {scope : Scope α} {x : String}

theorem byParts_eq : (t : Operand α) →
    byParts store limit scope x t = ofOperand store limit scope x t
  | .number _ => rfl
  | .symbol name => by
    by_cases hx : name = x
    · rw [byParts, if_pos hx, hx, ofOperand_unknown]
    · rw [ofOperand_symbol _ _ _ _ hx]
      cases hget : store.get? scope name <;> simp [byParts, hx, hget]
  | .term operation lhs rhs => by
    rw [byParts, ofOperand_term, byParts_eq lhs, byParts_eq rhs]
  | .call name args => by
    rw [byParts, ofOperand_call,
      Evaluation.byParts_eq fun name f values => Evaluation.callByParts_eq limit name f values scope]
    rfl

end LinearForm

-- What takes a term apart into its two sides takes a chain apart into its leftmost operand and one
-- step for each operation. Induction on the left edge, which ends at the step that is made last.
theorem Operand.eq_foldlM_leftEdge {ε β : Type} {f : Operand α → Except ε β}
    {join : Operation → β → β → Except ε β}
    (hterm : ∀ operation lhs rhs, f (.term operation lhs rhs) = do
      let l ← f lhs
      let r ← f rhs
      join operation l r) :
    (t : Operand α) → f t = f t.leftmost >>= fun first =>
      t.leftEdge.foldlM (fun l step => f step.2 >>= join step.1 l) first
  | .number _ => by simp [leftmost, leftEdge]
  | .symbol _ => by simp [leftmost, leftEdge]
  | .term operation lhs rhs => by
    rw [hterm, eq_foldlM_leftEdge hterm lhs, leftmost, leftEdge, bind_assoc]
    simp [List.foldlM_append]
  | .call _ _ => by simp [leftmost, leftEdge]

-- Evaluation and the solver go once along the left edge of an operand, and have the outcome of plain
-- recursion: the same value or form, or the same first error.
theorem loops_eq_recursion [Arithmetic α] (store : Store α) (limit : Nat) (scope : Scope α)
    (t : Operand α) :
    (Evaluation.evaluate store limit scope t =
        Evaluation.evaluate store limit scope t.leftmost >>= fun first =>
          t.leftEdge.foldlM (fun l (operation, rhs) => do
            let r ← Evaluation.evaluate store limit scope rhs
            return operation.apply l r) first) ∧
    Evaluation.evaluate store limit scope t =
      Evaluation.byParts (Evaluation.callByParts store limit) store scope t ∧
    ∀ x,
      (LinearForm.ofOperand store limit scope x t =
        LinearForm.ofOperand store limit scope x t.leftmost >>= fun first =>
          t.leftEdge.foldlM (fun l (operation, rhs) => do
            let r ← LinearForm.ofOperand store limit scope x rhs
            (LinearForm.combine operation l r).mapError .fault) first) ∧
      LinearForm.ofOperand store limit scope x t = LinearForm.byParts store limit scope x t := by
  refine ⟨?_, ?_, fun x => ⟨?_, ?_⟩⟩
  · exact Operand.eq_foldlM_leftEdge (Evaluation.evaluate_term store limit scope) t
  · exact (Evaluation.byParts_eq (fun name f values =>
      Evaluation.callByParts_eq limit name f values scope) t).symm
  · exact Operand.eq_foldlM_leftEdge (LinearForm.ofOperand_term store limit scope x) t
  · exact (LinearForm.byParts_eq t).symm

end Reckon
