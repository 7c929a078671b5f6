import Reckon.Proofs.Equation
import Reckon.Proofs.Evaluation.Limit
import Reckon.Proofs.Session

namespace Reckon

variable {α : Type} [Arithmetic α]

theorem LinearForm.ofOperand_prolongs {limit limit' : Nat} (h : limit ≤ limit') (store : Store α)
    (scope : Scope α) (x : String) (t : Operand α) :
    Prolongs .runaway (ofOperand store limit scope x t) (ofOperand store limit' scope x t) := by
  cases t with
  | number value => exact .refl _
  | symbol name =>
    rw [ofOperand, ofOperand, chain, chain]
    exact .refl _
  | term operation lhs rhs =>
    rw [ofOperand_term, ofOperand_term]
    exact (ofOperand_prolongs h store scope x lhs).bind fun _ =>
      (ofOperand_prolongs h store scope x rhs).bind fun _ => .refl _
  | call name args =>
    rw [ofOperand_call, ofOperand_call]
    have hcall : Prolongs .runaway (Evaluation.evaluate store limit scope (.call name args))
        (Evaluation.evaluate store limit' scope (.call name args)) :=
      Evaluation.evaluate_prolongs
        (fun name f values => Evaluation.apply_prolongs h name f values scope) (.call name args)
    exact (hcall.mapError (Halt.map EquationError.operand)).bind fun _ => .refl _

namespace Session

section Perform

variable {s : Session α} {limit limit' : Nat} {statement : Statement α}

-- A statement that is not cut off does the same where calls may nest more deeply.
theorem perform_of_le (h : limit ≤ limit')
    (hends : (s.perform limit statement).result ≠ .error .runaway) :
    s.perform limit' statement = s.perform limit statement := by
  have hevaluate : ∀ t, s.evaluate limit t = .error .runaway ∨
      s.evaluate limit' t = s.evaluate limit t := fun t =>
    Evaluation.evaluate_prolongs
      (fun name f values => Evaluation.apply_prolongs h name f values s.scope) t
  cases statement with
  | expression t =>
    rcases hevaluate t with hcut | hsame
    · exact absurd (by simp [perform, unchanged, hcut, Halt.map]) hends
    · simp only [perform, hsame]
  | assignment target t =>
    rcases hevaluate t with hcut | hsame
    · exact absurd (by simp [perform, assign, unchanged, hcut, Halt.map]) hends
    · simp only [perform, assign, hsame]
  | solve lhs rhs x =>
    rcases LinearForm.ofOperand_prolongs h s.store s.scope x lhs with hcut | hleft
    · exact absurd (by simp [perform, solve, unchanged, hcut, Halt.map]) hends
    · cases hl : LinearForm.ofOperand s.store limit s.scope x lhs with
      | error halt => simp only [perform, solve, hleft, hl]
      | ok left =>
        rcases LinearForm.ofOperand_prolongs h s.store s.scope x rhs with hcut | hright
        · exact absurd (by simp [perform, solve, unchanged, hl, hcut, Halt.map]) hends
        · simp only [perform, solve, hleft, hright]
  | definition name params body => rfl
  | plot name => rfl

-- One that is cut off does nothing.
theorem perform_of_runaway (hcut : (s.perform limit statement).result = .error .runaway) :
    s.perform limit statement = s.unchanged (.error .runaway) [] := by
  cases statement with
  | expression t => exact congrArg (s.unchanged · []) hcut
  | assignment target t =>
    rw [perform, assign] at hcut ⊢
    cases heval : s.evaluate limit t with
    | error halt =>
      rw [heval] at hcut
      exact congrArg (s.unchanged · []) hcut
    | ok value =>
      rw [heval] at hcut
      cases hput : s.store.put s.root target value <;> simp [hput, unchanged] at hcut
  | solve lhs rhs x =>
    rw [perform, solve] at hcut ⊢
    dsimp only at hcut ⊢
    cases hl : LinearForm.ofOperand s.store limit s.scope x lhs with
    | error halt =>
      rw [hl] at hcut
      exact congrArg (s.unchanged · []) hcut
    | ok left =>
      cases hr : LinearForm.ofOperand s.store limit s.scope x rhs with
      | error halt =>
        rw [hl, hr] at hcut
        exact congrArg (s.unchanged · []) hcut
      | ok right =>
        rw [hl, hr] at hcut
        cases hisolate : LinearForm.isolate left right <;> simp [hisolate, unchanged] at hcut
  | definition name params body => simp [perform, define] at hcut
  | plot name => simp [perform, unchanged] at hcut

end Perform

section Run

variable {s : Session Float} {limit limit' : Nat} {line : String}

theorem result_run (s : Session Float) (limit : Nat) (line : String) :
    (s.run limit line).result = (s.execute limit line).result := by
  dsimp only [run]
  split <;> rfl

theorem session_run (s : Session Float) (limit : Nat) (line : String) :
    (s.run limit line).session = (s.execute limit line).session := by
  dsimp only [run]
  split <;> rfl

theorem execute_of_le (h : limit ≤ limit')
    (hends : (s.execute limit line).result ≠ .error .runaway) :
    s.execute limit' line = s.execute limit line := by
  cases hparse : Statement.parse line.toList with
  | error error => rw [execute_of_error hparse, execute_of_error hparse]
  | ok statement =>
    rw [result_execute hparse] at hends
    simp only [execute, hparse, perform_of_le h hends]

theorem run_of_le (h : limit ≤ limit') (hends : (s.run limit line).result ≠ .error .runaway) :
    s.run limit' line = s.run limit line := by
  rw [result_run] at hends
  rw [run, run, execute_of_le h hends]

-- What is told about a line that is cut off.
theorem run_of_runaway (hcut : (s.run limit line).result = .error .runaway) :
    ∃ statement, Statement.parse line.toList = .ok statement ∧
      s.run limit line = ⟨s, .error .runaway, [.parsed line statement, .overrun line]⟩ := by
  rw [result_run] at hcut
  cases hparse : Statement.parse line.toList with
  | error error => simp [execute_of_error hparse, unchanged] at hcut
  | ok statement =>
    rw [result_execute hparse] at hcut
    refine ⟨statement, rfl, ?_⟩
    simp only [run, execute, hparse, perform_of_runaway hcut, unchanged, List.singleton_append]

-- A plot is only asked for.
theorem perform_of_plot {statement : Statement Float} {name : String}
    (h : (s.perform limit statement).result = .ok (.plot name)) : statement = .plot name := by
  cases statement with
  | expression t =>
    cases heval : s.evaluate limit t <;> simp [perform, unchanged, heval] at h
  | assignment target t =>
    rcases assign_cases s limit target t with ⟨-, halt, hresult⟩ | ⟨value, store, -, -, hassign⟩
    · simp [perform, hresult] at h
    · simp [perform, hassign] at h
  | solve lhs rhs x =>
    rw [perform, result_solve] at h
    cases hsolve : solveFor s.store limit s.scope lhs rhs x <;> simp [hsolve] at h
  | definition name params body => simp [perform, define] at h
  | plot name =>
    simp only [perform, unchanged, Except.ok.injEq, Outcome.plot.injEq] at h
    rw [h]

theorem parse_of_plot {name : String} (h : (s.run limit line).result = .ok (.plot name)) :
    Statement.parse line.toList = .ok (.plot name) := by
  rw [result_run] at h
  cases hparse : Statement.parse line.toList with
  | error error => simp [execute_of_error hparse, unchanged] at h
  | ok statement =>
    rw [result_execute hparse] at h
    rw [perform_of_plot h]

theorem run_plot {name : String} (hparse : Statement.parse line.toList = .ok (.plot name))
    (s : Session Float) (limit : Nat) :
    s.run limit line = ⟨s, .ok (.plot name), [.parsed line (.plot name)]⟩ := by
  simp only [run, execute, hparse, perform, unchanged]

end Run

end Session

end Reckon
