import Reckon.Proofs.Grammar.Assignment
import Reckon.Proofs.Session.Footprint
import Reckon.Proofs.Session.Termination

namespace Reckon.Session

section Steps

variable {s s' : Session Float} {name : String} {value : Float}

theorem Regular.isConstant_eq_false (hs : s.Regular) (h : name ∉ constants.map Prod.fst) :
    s.store.isConstant s.root name = false :=
  Bool.eq_false_iff.mpr fun hconstant => h ((hs.roots s.root hs.valid.root).constant name hconstant)

-- The name that has been assigned to is read back.
theorem Assigned.evaluate_symbol (h : s.Assigned name value s') (limit : Nat) :
    s'.evaluate limit (.symbol name) = .ok value := by
  have hbinding : s'.store.binding? s'.root name = some ⟨value, false⟩ := by
    rw [h.binding?, if_pos ⟨h.root, rfl⟩]
  have hget : s'.store.get? s'.scope name = some value := by
    simp [Store.get?, scope, Scope.ofRoot, Scope.local?, hbinding]
  rw [evaluate, Evaluation.evaluate_symbol, hget]

-- A line that reads the text of an operand gives its value, or fails as its evaluation does.
theorem result_execute_of_ok {text : String} {x : Operand Float} {limit : Nat}
    (hparse : Statement.parse text.toList = .ok (.expression x))
    (h : s.evaluate limit x = .ok value) :
    (s.execute limit text).result = .ok (.number value) := by
  rw [result_execute hparse, perform, h]
  rfl

theorem result_execute_of_error {text : String} {x : Operand Float} {limit : Nat}
    {halt : Halt EvaluationError} (hparse : Statement.parse text.toList = .ok (.expression x))
    (h : s.evaluate limit x = .error halt) :
    (s.execute limit text).result = .error (halt.map .evaluation) := by
  rw [result_execute hparse, perform, h]
  rfl

-- An assignment to a name that is no constant fails only where its right side has no value.
theorem assign_of_ok (hs : s.Valid) (hconstant : s.store.isConstant s.root name = false)
    {limit : Nat} {x : Operand Float} (h : s.evaluate limit x = .ok value) :
    (s.assign limit name x).result = .ok .void ∧
      s.Assigned name value (s.assign limit name x).session := by
  obtain ⟨store, hput⟩ : ∃ store, s.store.put s.root name value = .ok store :=
    ⟨_, Store.put_eq_ok.mpr ⟨hconstant, rfl⟩⟩
  rw [assign, h]
  dsimp only
  rw [hput]
  exact ⟨rfl, assigned_of_put hs hput⟩

theorem assign_of_error {limit : Nat} {x : Operand Float} {halt : Halt EvaluationError}
    (h : s.evaluate limit x = .error halt) :
    s.assign limit name x = s.unchanged (.error (halt.map .evaluation)) [] := by
  rw [assign, h]

end Steps

-- A line that assigns a text is read as the assignment of the operand that the text is read as.
-- The name then has the value that the text would have given. If the text would have failed, the
-- line fails in the same way, and the name stays what it was. This is so however deeply calls may
-- nest.
theorem assignment_round_trip (limits : Nat → Nat) (lines : List String) {name text : String}
    {x : Operand Float} (hname : Token.isName name = true)
    (hconstant : name ∉ constants.map Prod.fst)
    (hparse : Statement.parse text.toList = .ok (.expression x))
    (hlength : name.length + 4 + text.length ≤ 10000) :
    let s := fresh.replay limits lines
    let line := name ++ " := " ++ text
    Statement.parse line.toList = .ok (.assignment name x) ∧
    ∀ limit limit',
      (∀ value, (s.execute limit text).result = .ok (.number value) →
        (s.execute limit line).result = .ok .void ∧
          ((s.execute limit line).session.execute limit' name).result = .ok (.number value)) ∧
      ∀ halt, (s.execute limit text).result = .error halt →
        (s.execute limit line).result = .error halt ∧
          ((s.execute limit line).session.execute limit' name).result =
            (s.execute limit' name).result := by
  intro s line
  have hline : Statement.parse line.toList = .ok (.assignment name x) := by
    have h := Statement.parse_assignment hname hparse (by rwa [String.length_toList])
    simpa [line] using h
  have hsymbol : Statement.parse name.toList = .ok (.expression (.symbol name)) :=
    Statement.parse_name hname (by simp only [Limits.standard]; omega)
  have hs : s.Regular := regular_replay limits lines
  refine ⟨hline, fun limit limit' => ?_⟩
  rw [session_execute hline, result_execute hline, perform]
  cases hvalue : s.evaluate limit x with
  | ok value =>
    obtain ⟨hvoid, hassigned⟩ := assign_of_ok hs.valid (hs.isConstant_eq_false hconstant) hvalue
    have hread := result_execute_of_ok hsymbol (hassigned.evaluate_symbol limit')
    rw [result_execute_of_ok hparse hvalue]
    refine ⟨fun v hv => ⟨hvoid, hread.trans hv⟩, fun halt h => ?_⟩
    cases h
  | error halt =>
    rw [result_execute_of_error hparse hvalue, assign_of_error hvalue]
    refine ⟨fun v hv => ?_, fun h he => ⟨he, rfl⟩⟩
    cases hv

-- The text of a difference is assigned to `a`, and that of a call of what is not defined.
theorem assignment_round_trip_difference :
    (fresh.execute 9 "pi - e").result = .ok (.number (3.141592653589793 - 2.718281828459045)) ∧
    ((fresh.execute 9 "a := pi - e").session.execute 0 "a").result =
      .ok (.number (3.141592653589793 - 2.718281828459045)) ∧
    (fresh.execute 9 "f(e)").result = .error (.fault (.evaluation (.unknownFunction "f"))) ∧
    (fresh.execute 9 "a := f(e)").result =
      .error (.fault (.evaluation (.unknownFunction "f"))) := by
  have hdifference : Statement.parse "pi - e".toList =
      .ok (.expression (.term .sub (.symbol "pi") (.symbol "e"))) := by cbv
  have hcall : Statement.parse "f(e)".toList =
      .ok (.expression (.call "f" [.symbol "e"])) := by cbv
  have hvalue : (fresh.execute 9 "pi - e").result =
      .ok (.number (3.141592653589793 - 2.718281828459045)) := by
    rw [result_execute hdifference]
    rfl
  have hhalt : (fresh.execute 9 "f(e)").result =
      .error (.fault (.evaluation (.unknownFunction "f"))) := by
    rw [result_execute hcall]
    rfl
  have hname : Token.isName "a" = true := by decide
  have hconstant : "a" ∉ constants.map Prod.fst := by decide
  obtain ⟨-, hassigned⟩ :=
    assignment_round_trip (fun _ => 9) [] hname hconstant hdifference (by decide)
  obtain ⟨-, hfailed⟩ :=
    assignment_round_trip (fun _ => 9) [] hname hconstant hcall (by decide)
  exact ⟨hvalue, ((hassigned 9 0).1 _ hvalue).2, hhalt, ((hfailed 9 0).2 _ hhalt).1⟩

end Reckon.Session
