import Reckon.Proofs.Evaluation.Bound
import Reckon.Proofs.Evaluation.Limit

namespace Reckon

variable {α : Type}

-- Where each name is bound once, the first value for it is the only one.
theorem Bindings.get?_ofList_of_nodup {β : Type} {entries : List (String × β)}
    (h : (entries.map Prod.fst).Nodup) (name : String) :
    (ofList entries).get? name = entries.lookup name := by
  cases hget : (ofList entries).get? name with
  | none =>
    have hname : name ∉ entries.map Prod.fst := by
      rw [← isSome_get?_ofList, hget]
      simp
    symm
    rw [List.lookup_eq_none_iff]
    intro entry hentry
    simpa using fun he : name = entry.1 => hname (he ▸ List.mem_map_of_mem hentry)
  | some value =>
    obtain ⟨before, after, rfl⟩ := List.append_of_mem (mem_of_get?_ofList hget)
    rw [List.map_append, List.map_cons, List.nodup_append] at h
    symm
    rw [List.lookup_eq_some_iff]
    refine ⟨before, after, rfl, fun entry hentry => ?_⟩
    simpa using (h.2.2 _ (List.mem_map_of_mem hentry) _ (List.mem_cons_self ..)).symm

namespace Operand

mutual

-- Writes values in place of the symbols that have one. Names of functions are left alone.
def substitute (values : String → Option α) : Operand α → Operand α
  | number value => number value
  | symbol name =>
    match values name with
    | some value => number value
    | none => symbol name
  | term operation lhs rhs => term operation (lhs.substitute values) (rhs.substitute values)
  | call name args => call name (substituteAll values args)

def substituteAll (values : String → Option α) : List (Operand α) → List (Operand α)
  | [] => []
  | arg :: args => arg.substitute values :: substituteAll values args

end

-- Each parameter is replaced by the value in the same place.
def instantiate (params : List String) (values : List α) (t : Operand α) : Operand α :=
  t.substitute fun name => (params.zip values).lookup name

theorem length_substituteAll (values : String → Option α) (args : List (Operand α)) :
    (substituteAll values args).length = args.length := by
  induction args with
  | nil => rfl
  | cons arg args ih => rw [substituteAll, List.length_cons, List.length_cons, ih]

end Operand

namespace Evaluation

variable [Arithmetic α] {store : Store α} {limit : Nat} {scope : Scope α}

theorem length_of_evaluateAll {args : List (Operand α)} {values : List α}
    (h : evaluateAll store limit scope args = .ok values) : values.length = args.length := by
  induction args generalizing values with
  | nil =>
    obtain rfl := Except.ok.inj h
    rfl
  | cons arg args ih =>
    rw [evaluateAll_cons] at h
    obtain ⟨value, -, h⟩ := bind_eq_ok.mp h
    obtain ⟨rest, hrest, h⟩ := bind_eq_ok.mp h
    obtain rfl := Except.ok.inj h
    rw [List.length_cons, List.length_cons, ih hrest]

mutual

-- A frame of bindings can be written into the operand. Induction on the operand: calls see the root
-- only, which is the same with the frame and without it.
theorem evaluate_push (frame : Bindings α) : (t : Operand α) →
    evaluate store limit (scope.push frame) t =
      evaluate store limit scope (t.substitute frame.get?)
  | .number _ => rfl
  | .symbol name => by
    rw [evaluate_symbol, get?_push, Operand.substitute]
    cases frame.get? name with
    | none => exact (evaluate_symbol ..).symm
    | some value => rfl
  | .term operation lhs rhs => by
    rw [Operand.substitute, evaluate_term, evaluate_term, evaluate_push frame lhs,
      evaluate_push frame rhs]
  | .call name args => by
    have hroot : (scope.push frame).root = scope.root := rfl
    rw [Operand.substitute, evaluate_call, evaluate_call, hroot, Operand.length_substituteAll,
      evaluateAll_push frame args]
    simp only [apply_caller limit _ _ _ hroot]

theorem evaluateAll_push (frame : Bindings α) : (args : List (Operand α)) →
    evaluateAll store limit (scope.push frame) args =
      evaluateAll store limit scope (Operand.substituteAll frame.get? args)
  | [] => rfl
  | arg :: args => by
    rw [Operand.substituteAll, evaluateAll_cons, evaluateAll_cons, evaluate_push frame arg,
      evaluateAll_push frame args]

end

section Call

variable {name : String} {params : List String} {body : Operand α} {captured : Option (Scope α)}
  {args : List (Operand α)} {values : List α}

-- One level of calls is used up by the call itself.
theorem evaluate_call_succ
    (hf : store.function? scope.root name = some (.custom params body captured))
    (hparams : params.Nodup) (hcount : args.length = params.length)
    (hvalues : evaluateAll store (limit + 1) scope args = .ok values) :
    evaluate store (limit + 1) scope (.call name args) =
      evaluate store limit (captured.getD scope.topLevel)
        (body.instantiate params values) := by
  have hlength : params.length = values.length := by rw [length_of_evaluateAll hvalues, hcount]
  have hkeys : ((params.zip values).map Prod.fst).Nodup := by
    rwa [List.map_fst_zip hlength.le]
  have hframe : (Bindings.ofList (params.zip values)).get? =
      fun name => (params.zip values).lookup name :=
    funext fun _ => Bindings.get?_ofList_of_nodup hkeys _
  have hcheck : ∀ count, params.length = count →
      checkCount name (.custom params body captured : Function α) count = .ok () :=
    fun count h => if_pos h
  rw [evaluate_call, hf]
  simp only [hcheck _ hcount.symm, hvalues, ok_bind]
  rw [apply_succ, hcheck _ hlength, ok_bind, calleeScope, evaluate_push, hframe, Operand.instantiate]

end Call

end Evaluation

-- A call has the outcome of the body with the values of the arguments in place of the parameters, in
-- the scope that the function captured or at the top level; the call itself takes up one level. So
-- two calls with the same values have the same outcome, whatever is bound over the root where they
-- are made.
theorem call_eq_instantiate [Arithmetic α] {store : Store α} {scope : Scope α} {name : String}
    {params : List String} {body : Operand α} {captured : Option (Scope α)}
    (hf : store.function? scope.root name = some (.custom params body captured))
    (hparams : params.Nodup) {args : List (Operand α)} (hcount : args.length = params.length)
    {m : Nat} {values : List α}
    (hvalues : Evaluation.evaluateAll store m scope args = .ok values) :
    let parent := captured.getD scope.topLevel
    let call := fun limit => Evaluation.evaluate store limit scope (.call name args)
    let replaced := fun limit =>
      Evaluation.evaluate store limit parent (body.instantiate params values)
    (∀ limit, m ≤ limit + 1 → call (limit + 1) = replaced limit) ∧
    (∀ outcome, Evaluation.EndsIn call outcome ↔ Evaluation.EndsIn replaced outcome) ∧
    ∀ scope' args' m', scope'.root = scope.root → args'.length = params.length →
      Evaluation.evaluateAll store m' scope' args' = .ok values → ∀ outcome,
        Evaluation.EndsIn (fun limit => Evaluation.evaluate store limit scope' (.call name args'))
          outcome ↔ Evaluation.EndsIn call outcome := by
  intro parent call replaced
  have hcall : ∀ scope' args' m', scope'.root = scope.root → args'.length = params.length →
      Evaluation.evaluateAll store m' scope' args' = .ok values → ∀ limit, m' ≤ limit + 1 →
        Evaluation.evaluate store (limit + 1) scope' (.call name args') = replaced limit := by
    intro scope' args' m' hroot hcount' hvalues' limit hlimit
    have hparent : captured.getD scope'.topLevel = parent := by
      rw [Scope.topLevel, hroot, ← Scope.topLevel]
    rw [← hroot] at hf
    rw [Evaluation.evaluate_call_succ hf hparams hcount'
      (Evaluation.evaluateAll_of_le hlimit hvalues'), hparent]
  have hends : ∀ scope' args' m', scope'.root = scope.root → args'.length = params.length →
      Evaluation.evaluateAll store m' scope' args' = .ok values → ∀ outcome,
        Evaluation.EndsIn (fun limit => Evaluation.evaluate store limit scope' (.call name args'))
          outcome ↔ Evaluation.EndsIn replaced outcome := by
    intro scope' args' m' hroot hcount' hvalues'
    have hsame : ∀ limit, m' ≤ limit →
        Evaluation.evaluate store (limit + 1) scope' (.call name args') = replaced limit :=
      fun limit hlimit => hcall scope' args' m' hroot hcount' hvalues' limit (by omega)
    exact Evaluation.endsIn_congr (Evaluation.steady_evaluate store scope' (.call name args'))
      (Evaluation.steady_evaluate store parent _) hsame
  refine ⟨hcall scope args m rfl hcount hvalues, hends scope args m rfl hcount hvalues, ?_⟩
  intro scope' args' m' hroot hcount' hvalues' outcome
  rw [hends scope' args' m' hroot hcount' hvalues', hends scope args m rfl hcount hvalues]

-- A function that has captured nothing and reads the variable `a` of the root.
def increase : Store Float :=
  ⟨[⟨.ofList [("a", ⟨1.0, false⟩)], 0⟩],
    [.ofList [("f", .custom ["x"] (.term .add (.symbol "x") (.symbol "a")) none)]]⟩

-- Where `x` is 5 and `a` is 7, the argument `a` is 7, but the body adds the 1 of the root.
theorem call_eq_instantiate_increase :
    let scope := (Scope.ofRoot 0).push (.ofList [("x", 5.0), ("a", 7.0)])
    Evaluation.EndsIn (fun limit => Evaluation.evaluate increase limit scope
      (.call "f" [.symbol "a"])) (.ok (7.0 + 1.0)) ∧
    ∀ outcome, Evaluation.EndsIn (fun limit => Evaluation.evaluate increase limit (.ofRoot 0)
      (.call "f" [.number 7.0])) outcome ↔
        Evaluation.EndsIn (fun limit => Evaluation.evaluate increase limit scope
          (.call "f" [.symbol "a"])) outcome := by
  intro scope
  have hf : increase.function? scope.root "f" =
      some (.custom ["x"] (.term .add (.symbol "x") (.symbol "a")) none) := rfl
  have hargs : Evaluation.evaluateAll increase 0 scope [.symbol "a"] = .ok [7.0] := rfl
  obtain ⟨-, hends, hcaller⟩ := call_eq_instantiate hf (by decide) rfl hargs
  exact ⟨(hends _).mpr ⟨0, rfl⟩, hcaller (.ofRoot 0) [.number 7.0] 0 rfl rfl rfl⟩

end Reckon
