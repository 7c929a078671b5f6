import Reckon.Plot.Graph
import Reckon.Proofs.Session.Capture

namespace Reckon

variable {α : Type}

namespace Graph

theorem ofName_eq_ok {store store' : Store α} {root : Nat} {name : String} {g : Graph α} :
    ofName store root name = .ok (g, store') ↔
      ∃ f, store.function? root name = some f ∧ f.arity = 1 ∧
        g = ⟨name, f, store.roots.length⟩ ∧ store' = (store.snapshot root).2 := by
  unfold ofName
  cases store.function? root name with
  | none => simp
  | some f =>
    by_cases harity : f.arity = 1
    · simp [harity, Store.snapshot, eq_comm]
    · simp [harity]

-- No name has both faults.
theorem ofName_eq_error {store : Store α} {root : Nat} {name : String} {error : GraphError} :
    ofName store root name = .error error ↔
      (store.function? root name = none ∧ error = .unknownFunction name) ∨
      ∃ f, store.function? root name = some f ∧ f.arity ≠ 1 ∧
        error = .unsupportedArity name f.arity := by
  unfold ofName
  cases store.function? root name with
  | none => simp [eq_comm]
  | some f =>
    by_cases harity : f.arity = 1
    · simp [harity]
    · simp only [harity, ite_false, Except.error.injEq, reduceCtorEq, false_and, false_or,
        Option.some.injEq]
      constructor
      · rintro rfl
        exact ⟨f, rfl, harity, rfl⟩
      · rintro ⟨_, rfl, -, rfl⟩
        rfl

variable [Arithmetic α]

-- What a graph makes of an evaluation: errors are gaps.
def Answers (answer : Except (Halt Empty) (Option α)) (result : Evaluation.Result α) : Prop :=
  (∀ y, answer = .ok (some y) ↔ result = .ok y) ∧
  (answer = .ok none ↔ ∃ error, result = .error (.fault error)) ∧
  (answer = .error .runaway ↔ result = .error .runaway)

theorem value?_answers (g : Graph α) (store : Store α) (limit : Nat) (x : α) :
    Answers (g.value? store limit x)
      (Evaluation.apply store limit g.name g.function [x] (.ofRoot g.root)) := by
  unfold value? Answers
  cases Evaluation.apply store limit g.name g.function [x] (.ofRoot g.root) with
  | ok y => simp
  | error halt => cases halt <;> simp

-- A graph whose function carries its closure does not see what is changed outside of closures.
theorem value?_of_sameClosures {g : Graph α} {store store' : Store α} {root : Nat} {name : String}
    (h : Evaluation.SameClosures store store')
    (hf : store.function? root name = some g.function) (limit : Nat) (x : α) :
    g.value? store' limit x = g.value? store limit x := by
  rw [value?, value?, h.apply_eq limit root name g.function hf g.name [x] (.ofRoot g.root)]

end Graph

namespace Evaluation

variable [Arithmetic α] {store : Store α} {limit root : Nat} {scope : Scope α} {name : String}
  {f : Function α}

theorem evaluate_call_one (hf : store.function? scope.root name = some f) (harity : f.arity = 1)
    (x : α) :
    evaluate store limit scope (.call name [.number x]) = apply store limit name f [x] scope := by
  have hargs : evaluateAll store limit scope [.number x] = .ok [x] := rfl
  rw [evaluate_call, hf]
  simp [checkCount, harity, hargs]

omit [Arithmetic α] in
-- The roots that were there before a snapshot hold what they held.
theorem sameOn_snapshot (hvalid : store.Valid) (root : Nat) :
    SameOn (· < store.roots.length) store (store.snapshot root).2 where
  function? := fun _ hi name => Store.function?_snapshot hi name
  binding? := fun _ hi name => Store.binding?_snapshot hi name
  closed := fun i _ name params body closure => hvalid.closure i name params body closure

end Evaluation

namespace Session

section Steps

variable {s s' : Session α}

-- A session in which a snapshot of the variables is kept.
def withSnapshot (s : Session α) : Session α := ⟨(s.store.snapshot s.root).2, s.root⟩

theorem Valid.withSnapshot (hs : s.Valid) : s.withSnapshot.Valid where
  store :=
    { table := fun i t ht => by
        obtain ⟨j, hj⟩ := Store.tableIndex?_of_snapshot hs.root ht
        exact hs.store.table j t hj
      closure := fun i name params body closure hf => by
        obtain ⟨j, hj⟩ := Store.function?_of_snapshot hs.root hf
        rw [Session.withSnapshot, Store.length_snapshot hs.root]
        exact Nat.lt_succ_of_lt (hs.store.closure j name params body closure hj) }
  root := by
    rw [Session.withSnapshot, Store.length_snapshot hs.root]
    exact Nat.lt_succ_of_lt hs.root

theorem Separate.withSnapshot (hs : s.Separate) (hvalid : s.Valid) : s.withSnapshot.Separate := by
  intro i name params body captured hf
  obtain ⟨j, hj⟩ := Store.function?_of_snapshot hvalid.root hf
  exact hs j name params body captured hj

theorem Separate.sameClosures_self (hs : s.Separate) :
    Evaluation.SameClosures s.store s.store :=
  Evaluation.sameClosures_of_separate hs (fun _ _ => rfl) fun _ _ _ => rfl

variable [Arithmetic α]

-- Applying a function over the snapshot is calling it in the session.
theorem apply_withSnapshot (hvalid : s.Valid) (hs : s.Separate) {name : String} {f : Function α}
    (hf : s.store.function? s.root name = some f) (limit : Nat) (values : List α)
    (caller : Scope α) :
    Evaluation.apply s.withSnapshot.store limit name f values caller =
      Evaluation.apply s.store limit name f values s.scope := by
  have hruns : Evaluation.RunsOn (· < s.store.roots.length) f caller := by
    rintro params body captured rfl
    obtain ⟨closure, rfl, -⟩ := hs s.root name params body captured hf
    exact hvalid.store.closure s.root name params body closure hf
  rw [withSnapshot,
    (Evaluation.sameOn_snapshot hvalid.store s.root).apply_eq limit name values hruns]
  exact hs.sameClosures_self.apply_eq limit s.root name f hf name values s.scope caller

-- A statement that defines no function assigns a variable or changes nothing.
theorem perform_of_not_definition (hs : s.Valid) (limit : Nat) {statement : Statement α}
    (h : ∀ name params body, statement ≠ .definition name params body) :
    (s.perform limit statement).session = s ∨
      ∃ target value, s.Assigned target value (s.perform limit statement).session := by
  cases statement with
  | expression t => exact .inl rfl
  | plot name => exact .inl rfl
  | solve lhs rhs x => exact .inl (solve_session s limit lhs rhs x)
  | definition name params body => exact absurd rfl (h name params body)
  | assignment target t => exact (assign_session hs limit target t).imp_right fun h => ⟨target, h⟩

theorem Assigned.value? {target : String} {value : α} (h : s.Assigned target value s')
    (hs : s.Separate) {g : Graph α} {name : String}
    (hf : s.store.function? s.root name = some g.function) (limit : Nat) (x : α) :
    g.value? s'.store limit x = g.value? s.store limit x :=
  Graph.value?_of_sameClosures (h.sameClosures hs) hf limit x

end Steps

-- A line that defines no function.
def DefinesNothing (line : String) : Prop :=
  ∀ name params body, Statement.parse line.toList ≠ .ok (.definition name params body)

-- A graph of a function of the session keeps its values while no function is defined.
theorem value?_replay {later : List String} (hlater : ∀ line ∈ later, DefinesNothing line)
    {g : Graph Float} {name : String} (limits : Nat → Nat) (limit : Nat) (x : Float) :
    ∀ s : Session Float, s.Valid → s.Separate →
      s.store.function? s.root name = some g.function →
        g.value? (s.replay limits later).store limit x = g.value? s.store limit x := by
  induction later generalizing limits with
  | nil => exact fun _ _ _ _ => rfl
  | cons line later ih =>
    intro s hvalid hs hf
    obtain ⟨hline, hlater⟩ := List.forall_mem_cons.mp hlater
    have hstep : (s.execute (limits 0) line).session = s ∨
        ∃ target value, s.Assigned target value (s.execute (limits 0) line).session := by
      cases hparse : Statement.parse line.toList with
      | error error => exact .inl (by rw [execute_of_error hparse, unchanged])
      | ok statement =>
        rw [session_execute hparse]
        refine perform_of_not_definition hvalid (limits 0) fun n params body he => ?_
        exact hline n params body (he ▸ hparse)
    rw [replay]
    rcases hstep with hsame | ⟨target, value, hassigned⟩
    · rw [hsame]
      exact ih hlater _ s hvalid hs hf
    · rw [← hassigned.value? hs hf limit x]
      refine ih hlater _ _ (hassigned.valid hvalid) (hassigned.separate hs) ?_
      rw [hassigned.function?, hassigned.root]
      exact hf

-- A name has a graph if it names a function of one argument. The values of the graph are those of
-- calls of the function in the session that the graph was made in, with gaps where such a call
-- ends in an error, and they stay the same until a function is defined.
theorem graph_samples (limits : Nat → Nat) (lines : List String) (name : String) :
    let s := fresh.replay limits lines
    let graph := Graph.ofName s.store s.root name
    ((∃ error, graph = .error error ∧ error.code = "UNKNOWN_FUNCTION") ↔
      s.store.function? s.root name = none) ∧
    ((∃ error, graph = .error error ∧ error.code = "UNSUPPORTED_ARITY") ↔
      ∃ f, s.store.function? s.root name = some f ∧ f.arity ≠ 1) ∧
    (∀ f, s.store.function? s.root name = some f → f.arity = 1 → ∃ g store, graph = .ok (g, store)) ∧
    ∀ g store, graph = .ok (g, store) → ∀ limit x,
      Graph.Answers (g.value? store limit x) (s.evaluate limit (.call name [.number x])) ∧
      ∀ limits' later, (∀ line ∈ later, DefinesNothing line) →
        g.value? ((⟨store, s.root⟩ : Session Float).replay limits' later).store limit x =
          g.value? store limit x := by
  intro s graph
  obtain ⟨hvalid, hs⟩ : s.Valid ∧ s.Separate := separate_replay limits lines
  refine ⟨?_, ?_, ?_, ?_⟩
  · constructor
    · rintro ⟨error, hgraph, hcode⟩
      rcases Graph.ofName_eq_error.mp hgraph with ⟨hnone, -⟩ | ⟨f, -, -, rfl⟩
      · exact hnone
      · exact absurd hcode (by simp [GraphError.code])
    · exact fun hnone => ⟨_, Graph.ofName_eq_error.mpr (.inl ⟨hnone, rfl⟩), rfl⟩
  · constructor
    · rintro ⟨error, hgraph, hcode⟩
      rcases Graph.ofName_eq_error.mp hgraph with ⟨-, rfl⟩ | ⟨f, hf, harity, -⟩
      · exact absurd hcode (by simp [GraphError.code])
      · exact ⟨f, hf, harity⟩
    · rintro ⟨f, hf, harity⟩
      exact ⟨_, Graph.ofName_eq_error.mpr (.inr ⟨f, hf, harity, rfl⟩), rfl⟩
  · exact fun f hf harity => ⟨_, _, Graph.ofName_eq_ok.mpr ⟨f, hf, harity, rfl, rfl⟩⟩
  · intro g store hgraph limit x
    obtain ⟨f, hf, harity, rfl, rfl⟩ := Graph.ofName_eq_ok.mp hgraph
    have hcall : s.evaluate limit (.call name [.number x]) =
        Evaluation.apply s.store limit name f [x] s.scope :=
      Evaluation.evaluate_call_one hf harity x
    constructor
    · rw [hcall, ← apply_withSnapshot hvalid hs hf limit [x] (.ofRoot s.store.roots.length)]
      exact Graph.value?_answers _ _ _ _
    · intro limits' later hlater
      have hkept : s.withSnapshot.store.function? s.root name = some f :=
        (Store.function?_snapshot hvalid.root name).trans hf
      exact value?_replay hlater limits' limit x s.withSnapshot hvalid.withSnapshot
        (hs.withSnapshot hvalid) hkept

-- A new `a` changes the session's own variable, but not what a graph of `f` gives.
theorem graph_samples_kept :
    let s := fresh.replay (fun _ => 9) ["a := pi", "f(x) := x - a"]
    ∃ g store, Graph.ofName s.store s.root "f" = .ok (g, store) ∧
      (∀ limit x, g.value? store (limit + 1) x = .ok (some (x - 3.141592653589793))) ∧
      ∀ limit x, g.value?
          ((⟨store, s.root⟩ : Session Float).replay (fun _ => 0) ["a := e"]).store limit x =
        g.value? store limit x := by
  have ha : Statement.parse "a := pi".toList = .ok (.assignment "a" (.symbol "pi")) := by cbv
  have hf : Statement.parse "f(x) := x - a".toList =
      .ok (.definition "f" ["x"] (.term .sub (.symbol "x") (.symbol "a"))) := by cbv
  have he : Statement.parse "a := e".toList = .ok (.assignment "a" (.symbol "e")) := by cbv
  have hlater : ∀ line ∈ ["a := e"], DefinesNothing line := by
    intro line hline name params body h
    obtain rfl := List.mem_singleton.mp hline
    cases he.symm.trans h
  obtain ⟨-, -, hgraph, hvalues⟩ :=
    graph_samples (fun _ => 9) ["a := pi", "f(x) := x - a"] "f"
  simp only [replay, session_execute ha, session_execute hf] at hgraph hvalues ⊢
  obtain ⟨g, store, h⟩ := hgraph _ rfl rfl
  refine ⟨g, store, h, fun limit x => ?_, fun limit x =>
    (hvalues g store h limit x).2 (fun _ => 0) ["a := e"] hlater⟩
  exact ((hvalues g store h (limit + 1) x).1.1 _).mpr rfl

end Session

end Reckon
