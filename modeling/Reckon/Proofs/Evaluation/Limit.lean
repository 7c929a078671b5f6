import Reckon.Proofs.Evaluation.Closure

namespace Reckon.Evaluation

variable {α : Type}

variable [Arithmetic α] {store : Store α} {limit limit' : Nat}

-- The calls that are made in a scope.
def CallsProlong (store : Store α) (limit limit' : Nat) (scope : Scope α) : Prop :=
  ∀ name f values,
    Prolongs .runaway (apply store limit name f values scope)
      (apply store limit' name f values scope)

mutual

theorem evaluate_prolongs {scope : Scope α} (hcalls : CallsProlong store limit limit' scope) :
    (t : Operand α) →
      Prolongs .runaway (evaluate store limit scope t) (evaluate store limit' scope t)
  | .number _ => .refl _
  | .symbol name => by
    rw [evaluate_symbol, evaluate_symbol]
    exact .refl _
  | .term operation lhs rhs => by
    rw [evaluate_term, evaluate_term]
    exact (evaluate_prolongs hcalls lhs).bind fun _ =>
      (evaluate_prolongs hcalls rhs).bind fun _ => .refl _
  | .call name args => by
    rw [evaluate_call, evaluate_call]
    cases store.function? scope.root name with
    | none => exact .refl _
    | some f =>
      exact .bind (.refl _) fun _ =>
        (evaluateAll_prolongs hcalls args).bind fun values => hcalls name f values

theorem evaluateAll_prolongs {scope : Scope α} (hcalls : CallsProlong store limit limit' scope) :
    (args : List (Operand α)) →
      Prolongs .runaway (evaluateAll store limit scope args) (evaluateAll store limit' scope args)
  | [] => .refl _
  | arg :: args => by
    rw [evaluateAll_cons, evaluateAll_cons]
    exact (evaluate_prolongs hcalls arg).bind fun _ =>
      (evaluateAll_prolongs hcalls args).bind fun _ => .refl _

end

-- Induction on the smaller limit: both calls enter the same body, which has one level less left.
theorem apply_prolongs (h : limit ≤ limit') (name : String) (f : Function α) (values : List α)
    (caller : Scope α) :
    Prolongs .runaway (apply store limit name f values caller)
      (apply store limit' name f values caller) := by
  induction limit generalizing limit' name f values caller with
  | zero =>
    cases f with
    | builtin b =>
      rw [apply_builtin, apply_builtin]
      exact .refl _
    | custom params body captured =>
      rw [apply_zero]
      cases hcount : checkCount name (.custom params body captured) values.length with
      | ok _ => exact .inl rfl
      | error halt =>
        cases limit' with
        | zero => rw [apply_zero, hcount]; exact .refl _
        | succ limit' => rw [apply_succ, hcount]; exact .refl _
  | succ limit ih =>
    obtain ⟨larger, rfl⟩ : ∃ larger, limit' = larger + 1 := ⟨limit' - 1, by omega⟩
    cases f with
    | builtin b =>
      rw [apply_builtin, apply_builtin]
      exact .refl _
    | custom params body captured =>
      rw [apply_succ, apply_succ]
      refine .bind (.refl _) fun _ => ?_
      have hbody : limit ≤ larger := by omega
      exact evaluate_prolongs (fun name f values => ih hbody name f values _) body

-- What has ended under one limit ends in the same way under all larger ones.
theorem evaluate_of_le (h : limit ≤ limit') {scope : Scope α} {t : Operand α}
    (hends : evaluate store limit scope t ≠ .error .runaway) :
    evaluate store limit' scope t = evaluate store limit scope t :=
  (evaluate_prolongs (fun name f values => apply_prolongs h name f values scope) t).resolve_left
    hends

theorem evaluateAll_of_le (h : limit ≤ limit') {scope : Scope α} {args : List (Operand α)}
    {values : List α} (hvalues : evaluateAll store limit scope args = .ok values) :
    evaluateAll store limit' scope args = .ok values := by
  have hprolongs :
      Prolongs .runaway (evaluateAll store limit scope args) (evaluateAll store limit' scope args) :=
    evaluateAll_prolongs (fun name f values => apply_prolongs h name f values scope) args
  rcases hprolongs with hrunaway | hsame
  · rw [hvalues] at hrunaway
    cases hrunaway
  · rw [hsame, hvalues]

-- How a computation ends that may go as deep as it needs: as it does under some limit, or never.
def EndsIn (computation : Nat → Result α) : Result α → Prop
  | .error .runaway => ∀ limit, computation limit = .error .runaway
  | outcome => ∃ limit, computation limit = outcome

-- A computation that no larger limit changes once it has ended.
def Steady (computation : Nat → Result α) : Prop :=
  ∀ limit limit', limit ≤ limit' → computation limit ≠ .error .runaway →
    computation limit' = computation limit

theorem steady_evaluate (store : Store α) (scope : Scope α) (t : Operand α) :
    Steady fun limit => evaluate store limit scope t := fun _ _ h hends => evaluate_of_le h hends

omit [Arithmetic α] in
theorem endsIn_iff_of_ne_runaway {r : Nat → Result α} {outcome : Result α}
    (h : outcome ≠ .error .runaway) : EndsIn r outcome ↔ ∃ limit, r limit = outcome := by
  cases outcome with
  | ok value => rfl
  | error halt =>
    cases halt with
    | fault error => rfl
    | runaway => exact absurd rfl h

omit [Arithmetic α] in
-- Two computations end alike if from some limit on they are the same but for `k` levels.
theorem endsIn_congr {r r' : Nat → Result α} (hr : Steady r) (hr' : Steady r') {m k : Nat}
    (hsame : ∀ limit, m ≤ limit → r (limit + k) = r' limit) (outcome : Result α) :
    EndsIn r outcome ↔ EndsIn r' outcome := by
  have hforth : ∀ {outcome limit}, outcome ≠ .error .runaway → r limit = outcome →
      r' (m + limit) = outcome := by
    intro outcome limit hne h
    rw [← hsame _ (Nat.le_add_right m limit), hr limit _ (by omega) (h ▸ hne), h]
  have hback : ∀ {outcome limit}, outcome ≠ .error .runaway → r' limit = outcome →
      r (m + limit + k) = outcome := by
    intro outcome limit hne h
    rw [hsame _ (Nat.le_add_right m limit), hr' limit _ (by omega) (h ▸ hne), h]
  by_cases hne : outcome = .error .runaway
  · subst hne
    constructor
    · intro h limit
      by_contra hends
      exact hends ((hback hends rfl).symm.trans (h _))
    · intro h limit
      by_contra hends
      exact hends ((hforth hends rfl).symm.trans (h _))
  · rw [endsIn_iff_of_ne_runaway hne, endsIn_iff_of_ne_runaway hne]
    exact ⟨fun ⟨_, h⟩ => ⟨_, hforth hne h⟩, fun ⟨_, h⟩ => ⟨_, hback hne h⟩⟩

end Reckon.Evaluation
