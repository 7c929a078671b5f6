import Reckon.Proofs.Session

namespace Reckon.Session

-- The session after a statement that has been carried out with calls nested up to a limit.
def Footprint (s : Session Float) (limit : Nat) : Statement Float → Session Float → Prop
  | .expression _, s' => s' = s
  | .solve _ _ _, s' => s' = s
  | .plot _, s' => s' = s
  | .assignment target t, s' =>
    ∃ value, s.evaluate limit t = .ok value ∧ s.Assigned target value s'
  | .definition name params body, s' => s.Defined name params body s'

theorem perform_of_error {α : Type} [Arithmetic α] {s : Session α} {limit : Nat}
    {statement : Statement α} {halt : Halt StatementError}
    (h : (s.perform limit statement).result = .error halt) :
    (s.perform limit statement).session = s := by
  cases statement with
  | expression t => rfl
  | plot name => rfl
  | solve lhs rhs x => exact solve_session s limit lhs rhs x
  | definition name params body => cases h
  | assignment target t =>
    rcases assign_cases s limit target t with ⟨hsession, -⟩ | ⟨value, store, -, -, hassign⟩
    · exact hsession
    · rw [perform, hassign] at h
      cases h

theorem perform_of_ok {s : Session Float} (hs : s.Valid) {limit : Nat}
    {statement : Statement Float} {outcome : Outcome Float}
    (h : (s.perform limit statement).result = .ok outcome) :
    s.Footprint limit statement (s.perform limit statement).session := by
  cases statement with
  | expression t => rfl
  | plot name => rfl
  | solve lhs rhs x => exact solve_session s limit lhs rhs x
  | definition name params body => exact defined_define hs name params body
  | assignment target t =>
    rcases assign_cases s limit target t with
      ⟨-, halt, hresult⟩ | ⟨value, store, heval, hput, hassign⟩
    · rw [perform, hresult] at h
      cases h
    · rw [perform, hassign]
      exact ⟨value, heval, assigned_of_put hs hput⟩

-- However deeply calls may nest, a line that fails changes nothing. One that succeeds changes
-- nothing either, or it binds its target to the value of its right side, or it defines its function
-- over a copy of the variables.
theorem execute_footprint (s : Session Float) (limit : Nat) (line : String) :
    (∀ halt, (s.execute limit line).result = .error halt → (s.execute limit line).session = s) ∧
    (s.Valid → ∀ outcome, (s.execute limit line).result = .ok outcome →
      ∃ statement, Statement.parse line.toList = .ok statement ∧
        s.Footprint limit statement (s.execute limit line).session) := by
  cases hparse : Statement.parse line.toList with
  | error error =>
    rw [execute_of_error hparse]
    refine ⟨fun _ _ => rfl, fun _ outcome h => ?_⟩
    cases h
  | ok statement =>
    rw [session_execute hparse, result_execute hparse]
    exact ⟨fun _ => perform_of_error, fun hs _ h => ⟨statement, rfl, perform_of_ok hs h⟩⟩

-- In a fresh session `y` has no value, so that it cannot be assigned to `x`. The body of a
-- function may call what is not defined.
theorem execute_footprint_fresh :
    fresh.Valid ∧
    ((fresh.execute 9 "x := y").result = .error (.fault (.evaluation (.unknownSymbol "y"))) ∧
      (fresh.execute 9 "x := y").session = fresh) ∧
    (fresh.execute 9 "f(x) := g(x)").result = .ok .void ∧
    fresh.Defined "f" ["x"] (.call "g" [.symbol "x"])
      (fresh.execute 9 "f(x) := g(x)").session := by
  have hvalid : fresh.Valid := valid_new constants
  have hassignment : Statement.parse "x := y".toList = .ok (.assignment "x" (.symbol "y")) := by
    cbv
  have hunknown : fresh.store.get? fresh.scope "y" = none := by
    simp [fresh, new, constants, Store.get?, Store.create, Scope.local?, Store.binding?,
      Bindings.ofList, scope, Scope.ofRoot, Store.empty]
  have hfailure : (fresh.execute 9 "x := y").result =
      .error (.fault (.evaluation (.unknownSymbol "y"))) := by
    rw [result_execute hassignment, perform, assign, evaluate, Evaluation.evaluate,
      Evaluation.chain, hunknown]
    rfl
  have hdefinition : Statement.parse "f(x) := g(x)".toList =
      .ok (.definition "f" ["x"] (.call "g" [.symbol "x"])) := by cbv
  have hsuccess : (fresh.execute 9 "f(x) := g(x)").result = .ok .void := by
    rw [result_execute hdefinition]
    rfl
  obtain ⟨statement, hstatement, hfootprint⟩ :=
    (execute_footprint fresh 9 "f(x) := g(x)").2 hvalid .void hsuccess
  obtain rfl := Except.ok.inj (hstatement.symm.trans hdefinition)
  exact ⟨hvalid, ⟨hfailure, (execute_footprint fresh 9 "x := y").1 _ hfailure⟩, hsuccess,
    hfootprint⟩

end Reckon.Session
