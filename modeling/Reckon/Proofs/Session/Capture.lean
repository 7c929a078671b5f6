import Reckon.Proofs.Equation
import Reckon.Proofs.Evaluation.Closure
import Reckon.Proofs.Session

namespace Reckon.Session

-- The closures of all functions keep apart from the variables of the session.
def Separate {α : Type} (s : Session α) : Prop := s.store.Separate s.root

section Invariant

variable {α : Type} {s s' : Session α}

theorem separate_new (constants : List (String × α)) : (new constants).Separate := by
  intro root name params body captured hf
  have hcustom := function?_new hf
  simp [Function.isCustom] at hcustom

theorem Assigned.separate {target : String} {value : α} (h : s.Assigned target value s')
    (hs : s.Separate) : s'.Separate := by
  intro root name params body captured hf
  rw [h.function?] at hf
  rw [h.root]
  exact hs root name params body captured hf

theorem Defined.separate {name : String} {params : List String} {body : Operand α}
    (h : s.Defined name params body s') (hvalid : s.Valid) (hs : s.Separate) : s'.Separate := by
  intro root n ps b captured hf
  rw [h.root]
  rcases h.function?_of_some hvalid hf with hnew | ⟨j, hj⟩
  · injection hnew with _ _ hcaptured
    exact ⟨_, hcaptured, Nat.ne_of_gt hvalid.root⟩
  · exact hs j n ps b captured hj

-- Assigning to a variable changes nothing that a closure reads.
theorem Assigned.sameClosures {target : String} {value : α} (h : s.Assigned target value s')
    (hs : s.Separate) : Evaluation.SameClosures s.store s'.store :=
  Evaluation.sameClosures_of_separate hs h.function? fun i n hi => by
    rw [h.binding?, if_neg fun he => hi he.1]

theorem Assigned.get?_of_ne {target : String} {value : α} (h : s.Assigned target value s')
    {n : String} (hn : n ≠ target) : s'.store.get? s'.scope n = s.store.get? s.scope n := by
  have hbinding : s'.store.binding? s.root n = s.store.binding? s.root n := by
    rw [h.binding?, if_neg fun he => hn he.2]
  simp only [Store.get?, scope, Scope.ofRoot, h.root, hbinding]

end Invariant

theorem separate_replay (limits : Nat → Nat) (lines : List String) :
    (fresh.replay limits lines).Valid ∧ (fresh.replay limits lines).Separate := by
  refine replay_induction (p := fun s => s.Valid ∧ s.Separate) ?_ limits lines
    ⟨valid_new constants, separate_new constants⟩
  rintro s limit line ⟨hvalid, hs⟩
  refine ⟨hvalid.execute limit line, ?_⟩
  rcases execute_cases hvalid limit line with h | ⟨target, value, h⟩ | ⟨name, params, body, h⟩
  · rwa [h]
  · exact h.separate hs
  · exact h.separate hvalid hs

section Reading

variable {α : Type} [Arithmetic α] {s s' : Session α}

-- A statement that gives a value or a solution.
def Reads : Statement α → Prop
  | .expression _ => True
  | .solve _ _ _ => True
  | _ => False

-- An assignment to a name is not seen where the name is not written.
theorem Assigned.result_perform {target : String} {value : α} (h : s.Assigned target value s')
    (hs : s.Separate) (limit : Nat) {statement : Statement α} (hreads : Reads statement)
    (htarget : ∀ t ∈ statement.operands, target ∉ t.symbols) :
    (s'.perform limit statement).result = (s.perform limit statement).result := by
  have hcalls : Evaluation.SameCalls limit s.store s'.store s.scope s'.scope :=
    (h.sameClosures hs).sameCalls limit h.root
  have hget : ∀ t ∈ statement.operands, ∀ name ∈ t.symbols,
      s'.store.get? s'.scope name = s.store.get? s.scope name := by
    intro t ht name hname
    apply h.get?_of_ne
    rintro rfl
    exact htarget t ht hname
  cases statement with
  | expression t =>
    have hvalue : s'.evaluate limit t = s.evaluate limit t :=
      Evaluation.evaluate_congr hcalls t (hget t (by simp [Statement.operands]))
    simp only [perform, unchanged, hvalue]
  | solve lhs rhs x =>
    have hsolution : solveFor s'.store limit s'.scope lhs rhs x =
        solveFor s.store limit s.scope lhs rhs x :=
      solveFor_congr hcalls (fun t ht name hname _ => hget t ht name hname)
        fun t ht name hname => hget t ht name (t.argumentSymbols_subset hname)
    rw [perform, perform, result_solve, result_solve, hsolution]
  | assignment target t => exact hreads.elim
  | definition name params body => exact hreads.elim
  | plot name => exact hreads.elim

end Reading

-- One assignment keeps the invariant and what every line gives that does not write its target.
theorem result_execute_assignment {s : Session Float} (hvalid : s.Valid) (hs : s.Separate)
    {line l : String} {statement : Statement Float} {target : String} {t : Operand Float}
    (hparse : Statement.parse line.toList = .ok statement) (hreads : Reads statement)
    (hl : Statement.parse l.toList = .ok (.assignment target t))
    (htarget : ∀ u ∈ statement.operands, target ∉ u.symbols) (limit limit' : Nat) :
    (s.execute limit' l).session.Separate ∧
      ((s.execute limit' l).session.execute limit line).result =
        (s.execute limit line).result := by
  rw [session_execute hl, result_execute hparse, result_execute hparse, perform]
  rcases assign_session hvalid limit' target t with h | ⟨value, h⟩
  · rw [h]
    exact ⟨hs, rfl⟩
  · exact ⟨h.separate hs, h.result_perform hs limit hreads htarget⟩

-- Lines that assign to names that are not written in a line do not change what the line gives, be
-- it a value, an error or a runaway recursion. This is so in all sessions that lines lead to,
-- whatever the functions read that the line calls, and however deeply calls may nest in any of the
-- lines.
theorem result_replay_assignments (limits limits' : Nat → Nat) (lines assignments : List String)
    {line : String} {statement : Statement Float}
    (hparse : Statement.parse line.toList = .ok statement) (hreads : Reads statement)
    (hassignments : ∀ l ∈ assignments, ∃ target t,
      Statement.parse l.toList = .ok (.assignment target t) ∧
        ∀ u ∈ statement.operands, target ∉ u.symbols) (limit : Nat) :
    (((fresh.replay limits lines).replay limits' assignments).execute limit line).result =
      ((fresh.replay limits lines).execute limit line).result := by
  obtain ⟨hvalid, hs⟩ := separate_replay limits lines
  generalize fresh.replay limits lines = s at hvalid hs
  induction assignments generalizing s limits' with
  | nil => rfl
  | cons l ls ih =>
    obtain ⟨target, t, hl, htarget⟩ := hassignments l (List.mem_cons_self ..)
    obtain ⟨hs', hresult⟩ :=
      result_execute_assignment hvalid hs hparse hreads hl htarget limit (limits' 0)
    rw [← hresult]
    exact ih (fun i => limits' (i + 1)) (fun l' hl' => hassignments l' (List.mem_cons_of_mem l hl'))
      (s.execute (limits' 0) l).session (hvalid.execute (limits' 0) l) hs'

-- The body of `f` reads `a`, and goes on to read the value that `a` had when `f` was defined. No
-- call may nest in the lines that assign.
theorem result_replay_assignments_captured :
    (((fresh.replay (fun _ => 9) ["a := e", "f(x) := x + a"]).replay (fun _ => 0)
        ["a := pi", "b := a"]).execute 1 "f(e) - f(pi)").result =
      ((fresh.replay (fun _ => 9) ["a := e", "f(x) := x + a"]).execute 1 "f(e) - f(pi)").result := by
  have hparse : Statement.parse "f(e) - f(pi)".toList = .ok (.expression
      (.term .sub (.call "f" [.symbol "e"]) (.call "f" [.symbol "pi"]))) := by cbv
  have ha : Statement.parse "a := pi".toList = .ok (.assignment "a" (.symbol "pi")) := by cbv
  have hb : Statement.parse "b := a".toList = .ok (.assignment "b" (.symbol "a")) := by cbv
  refine result_replay_assignments _ _ _ _ hparse trivial (fun l hl => ?_) 1
  rcases List.mem_cons.mp hl with rfl | hl
  · exact ⟨"a", _, ha, by simp [Statement.operands, Operand.symbols, Operand.symbolsOfAll]⟩
  · obtain rfl := List.mem_singleton.mp hl
    exact ⟨"b", _, hb, by simp [Statement.operands, Operand.symbols, Operand.symbolsOfAll]⟩

end Reckon.Session
