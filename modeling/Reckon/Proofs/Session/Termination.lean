import Reckon.Proofs.Evaluation.CallGraph
import Reckon.Proofs.Evaluation.Limit
import Reckon.Proofs.Session.Regular

namespace Reckon.Session

theorem Regular.uniform {s : Session Float} (hs : s.Regular) : s.store.Uniform s.root := by
  intro name params body closure hf
  obtain ⟨-, -, root, hroot, hcaptured⟩ := hs.functions name _ hf
  obtain rfl := Option.some.inj hcaptured
  exact hs.function?_eq hroot

-- Where calls lead into no circle, an evaluation ends in a value or an error, and as many levels
-- of calls as there are functions with bodies are enough for it. An operand that has a value leads
-- into no circle. What has ended under one limit ends in the same way under every larger one.
theorem evaluate_ends (limits : Nat → Nat) (lines : List String) (t : Operand Float) :
    let s := fresh.replay limits lines
    ((∀ name ∈ t.calls, ¬s.store.Circular s.root name) →
      ∀ limit, (s.store.defined s.root).length ≤ limit → s.evaluate limit t ≠ .error .runaway) ∧
    (∀ limit value, s.evaluate limit t = .ok value →
      ∀ name ∈ t.calls, ¬s.store.Circular s.root name) ∧
    ∀ limit limit', limit ≤ limit' → s.evaluate limit t ≠ .error .runaway →
      s.evaluate limit' t = s.evaluate limit t := by
  intro s
  have huniform := (regular_replay limits lines).uniform
  have hscope : Evaluation.Finds s.store s.root s.scope := fun _ => rfl
  exact ⟨fun h limit => Evaluation.evaluate_ne_runaway_of_not_circular huniform hscope h,
    fun limit value => Evaluation.not_circular_of_evaluate huniform hscope,
    fun limit limit' h => Evaluation.evaluate_of_le h⟩

-- A call of `f` comes to an end until `g`, which it calls, is defined anew by a call of `f`.
theorem evaluate_ends_circle :
    (∀ limit, 2 ≤ limit →
      (fresh.replay (fun _ => 9) ["g(x) := x * x", "f(x) := g(g(x))"]).evaluate limit
        (.call "f" [.symbol "pi"]) ≠ .error .runaway) ∧
    ∀ limit value,
      (fresh.replay (fun _ => 9) ["g(x) := x * x", "f(x) := g(g(x))", "g(x) := f(x)"]).evaluate
        limit (.call "f" [.symbol "pi"]) ≠ .ok value := by
  have hg : Statement.parse "g(x) := x * x".toList =
      .ok (.definition "g" ["x"] (.term .mul (.symbol "x") (.symbol "x"))) := by cbv
  have hf : Statement.parse "f(x) := g(g(x))".toList =
      .ok (.definition "f" ["x"] (.call "g" [.call "g" [.symbol "x"]])) := by cbv
  have hcircle : Statement.parse "g(x) := f(x)".toList =
      .ok (.definition "g" ["x"] (.call "f" [.symbol "x"])) := by cbv
  constructor
  · intro limit hlimit
    have hvalue : ∃ value,
        (fresh.replay (fun _ => 9) ["g(x) := x * x", "f(x) := g(g(x))"]).evaluate 2
          (.call "f" [.symbol "pi"]) = .ok value := by
      simp only [replay, session_execute hg, session_execute hf]
      exact ⟨_, rfl⟩
    obtain ⟨value, hvalue⟩ := hvalue
    have hends := evaluate_ends (fun _ => 9) ["g(x) := x * x", "f(x) := g(g(x))"]
      (.call "f" [.symbol "pi"])
    rw [hends.2.2 2 limit hlimit (by simp [hvalue]), hvalue]
    simp
  · have hends := evaluate_ends (fun _ => 9)
      ["g(x) := x * x", "f(x) := g(g(x))", "g(x) := f(x)"] (.call "f" [.symbol "pi"])
    simp only [replay, session_execute hg, session_execute hf,
      session_execute hcircle] at hends ⊢
    intro limit value hvalue
    refine hends.2.1 limit value hvalue "f" (by simp [Operand.calls]) ⟨"f", .refl, ?_⟩
    exact .tail (.single ⟨_, _, _, rfl, List.mem_cons_self ..⟩)
      ⟨_, _, _, rfl, List.mem_cons_self ..⟩

end Reckon.Session
