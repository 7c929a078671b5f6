import Reckon.Session
import Reckon.Proofs.Outcome
import Reckon.Proofs.Store

namespace Reckon

-- Every root uses a table of the store, and every closure lies over a root of the store.
structure Store.Valid {α : Type} (store : Store α) : Prop where
  table : ∀ root t, store.tableIndex? root = some t → t < store.tables.length
  closure : ∀ root name params body closure,
    store.function? root name = some (.custom params body (some closure)) →
      closure.root < store.roots.length

namespace Session

variable {α : Type}

structure Valid (s : Session α) : Prop where
  store : s.store.Valid
  root : s.root < s.store.roots.length

-- One variable of the session's root has been bound, and nothing else is different.
structure Assigned (s : Session α) (target : String) (value : α) (s' : Session α) : Prop where
  root : s'.root = s.root
  length : s'.store.roots.length = s.store.roots.length
  binding? : ∀ i n, s'.store.binding? i n =
    if i = s.root ∧ n = target then some ⟨value, false⟩ else s.store.binding? i n
  tableIndex? : ∀ i, s'.store.tableIndex? i = s.store.tableIndex? i
  tables : s'.store.tables = s.store.tables

-- One function has been put into the table of the session. Its closure is a new root, which holds
-- what the root of the session holds.
structure Defined (s : Session α) (name : String) (params : List String) (body : Operand α)
    (s' : Session α) : Prop where
  root : s'.root = s.root
  length : s'.store.roots.length = s.store.roots.length + 1
  kept : ∀ i < s.store.roots.length, s'.store.roots[i]? = s.store.roots[i]?
  closure : s'.store.roots[s.store.roots.length]? = s.store.roots[s.root]?
  tables : s'.store.tables.length = s.store.tables.length
  function? : ∀ i < s.store.roots.length, ∀ n, s'.store.function? i n =
    if s.store.tableIndex? i = s.store.tableIndex? s.root ∧ n = name then
      some (.custom params body (some (.ofRoot s.store.roots.length)))
    else s.store.function? i n

section Steps

variable {s s' : Session α} {target name : String} {params : List String} {body : Operand α}
  {value : α}

theorem Assigned.function? (h : s.Assigned target value s') (i : Nat) (n : String) :
    s'.store.function? i n = s.store.function? i n := by
  rw [Store.function?_eq, Store.function?_eq, h.tableIndex?, h.tables]

theorem Assigned.valid (h : s.Assigned target value s') (hs : s.Valid) : s'.Valid where
  store :=
    { table := fun i t ht => by
        rw [h.tableIndex?] at ht
        rw [h.tables]
        exact hs.store.table i t ht
      closure := fun i n params body closure hf => by
        rw [h.function?] at hf
        rw [h.length]
        exact hs.store.closure i n params body closure hf }
  root := by
    rw [h.root, h.length]
    exact hs.root

-- Every root of the session after a definition was there before, or is a copy of one that was.
theorem Defined.tableIndex?_of_some (h : s.Defined name params body s') {i t : Nat}
    (ht : s'.store.tableIndex? i = some t) : ∃ j, s.store.tableIndex? j = some t := by
  rcases Nat.lt_trichotomy i s.store.roots.length with hi | hi | hi
  · refine ⟨i, ?_⟩
    rwa [Store.tableIndex?, h.kept i hi] at ht
  · refine ⟨s.root, ?_⟩
    rwa [Store.tableIndex?, hi, h.closure] at ht
  · have hnone : s'.store.roots[i]? = none := by
      rw [List.getElem?_eq_none_iff, h.length]
      omega
    simp [Store.tableIndex?, hnone] at ht

theorem Defined.closure_function? (h : s.Defined name params body s') (hs : s.Valid) (n : String) :
    s'.store.function? s.store.roots.length n = s'.store.function? s.root n := by
  rw [Store.function?_eq, Store.function?_eq, Store.tableIndex?, Store.tableIndex?, h.closure,
    h.kept _ hs.root]

-- What can be called after a definition is the new function or could be called before.
theorem Defined.function?_of_some (h : s.Defined name params body s') (hs : s.Valid) {i : Nat}
    {n : String} {f : Function α} (hf : s'.store.function? i n = some f) :
    f = .custom params body (some (.ofRoot s.store.roots.length)) ∨
      ∃ j, s.store.function? j n = some f := by
  have hold : ∀ j < s.store.roots.length, s'.store.function? j n = some f →
      f = .custom params body (some (.ofRoot s.store.roots.length)) ∨
        s.store.function? j n = some f := by
    intro j hj hf
    rw [h.function? j hj] at hf
    split at hf
    · exact .inl (Option.some.inj hf).symm
    · exact .inr hf
  rcases Nat.lt_trichotomy i s.store.roots.length with hi | hi | hi
  · exact (hold i hi hf).imp_right fun hj => ⟨i, hj⟩
  · rw [hi, h.closure_function? hs] at hf
    exact (hold s.root hs.root hf).imp_right fun hj => ⟨s.root, hj⟩
  · have hnone : s'.store.roots[i]? = none := by
      rw [List.getElem?_eq_none_iff, h.length]
      omega
    simp [Store.function?_eq, Store.tableIndex?, hnone] at hf

theorem Defined.valid (h : s.Defined name params body s') (hs : s.Valid) : s'.Valid where
  store :=
    { table := fun i t ht => by
        obtain ⟨j, hj⟩ := h.tableIndex?_of_some ht
        rw [h.tables]
        exact hs.store.table j t hj
      closure := fun i n params body closure hf => by
        rw [h.length]
        rcases h.function?_of_some hs hf with hnew | ⟨j, hj⟩
        · injection hnew with _ _ hclosure
          obtain rfl : closure = .ofRoot s.store.roots.length := Option.some.inj hclosure
          exact Nat.lt_succ_self _
        · exact Nat.lt_succ_of_lt (hs.store.closure j n params body closure hj) }
  root := by
    rw [h.root, h.length]
    exact Nat.lt_succ_of_lt hs.root

end Steps

theorem assigned_of_put {s : Session α} (hs : s.Valid) {target : String} {value : α}
    {store : Store α} (hput : s.store.put s.root target value = .ok store) :
    s.Assigned target value ⟨store, s.root⟩ where
  root := rfl
  length := Store.length_put hput
  binding? := Store.binding?_put hput hs.root
  tableIndex? := Store.tableIndex?_put hput
  tables := Store.tables_put hput

theorem defined_define {s : Session α} (hs : s.Valid) (name : String) (params : List String)
    (body : Operand α) : s.Defined name params body (s.define name params body).session := by
  obtain ⟨t, ht⟩ := Store.exists_tableIndex? hs.root
  have htable : (s.store.snapshot s.root).2.tableIndex? s.root = some t := by
    rw [Store.tableIndex?_snapshot hs.root, ht]
  exact {
    root := rfl
    length := by
      simp only [define, Store.roots_putFunction]
      exact Store.length_snapshot hs.root
    kept := fun i hi => by
      simp only [define, Store.roots_putFunction]
      exact Store.getElem?_snapshot hi
    closure := by
      simp only [define, Store.roots_putFunction]
      exact Store.getElem?_snapshot_self hs.root
    tables := Store.length_tables_putFunction _ _ _ _
    function? := fun i hi n => by
      simp only [define]
      rw [Store.function?_putFunction htable (hs.store.table _ _ ht),
        Store.tableIndex?_snapshot hi, Store.tableIndex?_snapshot hs.root,
        Store.function?_snapshot hi]
      rfl }

section Performing

variable [Arithmetic α]

-- An assignment is carried out as a whole, or it fails and leaves the session as it is.
theorem assign_cases (s : Session α) (limit : Nat) (target : String) (t : Operand α) :
    ((s.assign limit target t).session = s ∧
      ∃ halt, (s.assign limit target t).result = .error halt) ∨
    ∃ value store, s.evaluate limit t = .ok value ∧
      s.store.put s.root target value = .ok store ∧
      s.assign limit target t = ⟨⟨store, s.root⟩, .ok .void, [.assigned target value]⟩ := by
  unfold assign
  cases heval : s.evaluate limit t with
  | error halt => exact Or.inl ⟨rfl, _, rfl⟩
  | ok value =>
    dsimp only
    cases hput : s.store.put s.root target value with
    | error error => exact Or.inl ⟨rfl, _, rfl⟩
    | ok store => exact Or.inr ⟨value, store, rfl, hput, rfl⟩

theorem solve_session (s : Session α) (limit : Nat) (lhs rhs : Operand α) (x : String) :
    (s.solve limit lhs rhs x).session = s := by
  unfold solve
  dsimp only
  split
  · rfl
  · split <;> rfl

theorem assign_session {s : Session α} (hs : s.Valid) (limit : Nat) (target : String)
    (t : Operand α) : (s.assign limit target t).session = s ∨
      ∃ value, s.Assigned target value (s.assign limit target t).session := by
  rcases assign_cases s limit target t with ⟨hsession, -⟩ | ⟨value, store, -, hput, hassign⟩
  · exact Or.inl hsession
  · rw [hassign]
    exact Or.inr ⟨value, assigned_of_put hs hput⟩

-- What is told about an equation is what `solveFor` makes of it.
theorem result_solve (s : Session α) (limit : Nat) (lhs rhs : Operand α) (x : String) :
    (s.solve limit lhs rhs x).result =
      match solveFor s.store limit s.scope lhs rhs x with
      | .error halt => .error (halt.map .equation)
      | .ok value => .ok (.solved x value) := by
  unfold solve solveFor
  dsimp only
  cases LinearForm.ofOperand s.store limit s.scope x lhs with
  | error halt => rfl
  | ok left =>
    cases LinearForm.ofOperand s.store limit s.scope x rhs with
    | error halt => rfl
    | ok right =>
      simp only [unchanged, ok_bind]
      cases LinearForm.isolate left right <;> rfl

-- All that a statement can do to a session.
theorem perform_cases {s : Session α} (hs : s.Valid) (limit : Nat) (statement : Statement α) :
    (s.perform limit statement).session = s ∨
    (∃ target value, s.Assigned target value (s.perform limit statement).session) ∨
    ∃ name params body, s.Defined name params body (s.perform limit statement).session := by
  cases statement with
  | expression t => exact Or.inl rfl
  | plot name => exact Or.inl rfl
  | solve lhs rhs x => exact Or.inl (solve_session s limit lhs rhs x)
  | definition name params body =>
    exact Or.inr (Or.inr ⟨name, params, body, defined_define hs name params body⟩)
  | assignment target t =>
    exact (assign_session hs limit target t).imp_right fun h => Or.inl ⟨target, h⟩

end Performing

section Executing

variable {s : Session Float} {limit : Nat} {line : String}

theorem execute_of_error {error : SyntaxError} (h : Statement.parse line.toList = .error error) :
    s.execute limit line = s.unchanged (.error (.fault (.malformed error))) [] := by
  rw [execute, h]

theorem session_execute {statement : Statement Float}
    (h : Statement.parse line.toList = .ok statement) :
    (s.execute limit line).session = (s.perform limit statement).session := by
  rw [execute, h]

theorem result_execute {statement : Statement Float}
    (h : Statement.parse line.toList = .ok statement) :
    (s.execute limit line).result = (s.perform limit statement).result := by
  rw [execute, h]

theorem execute_cases (hs : s.Valid) (limit : Nat) (line : String) :
    (s.execute limit line).session = s ∨
    (∃ target value, s.Assigned target value (s.execute limit line).session) ∨
    ∃ name params body, s.Defined name params body (s.execute limit line).session := by
  cases hparse : Statement.parse line.toList with
  | error error => exact Or.inl (by rw [execute_of_error hparse, unchanged])
  | ok statement =>
    rw [session_execute hparse]
    exact perform_cases hs limit statement

theorem Valid.execute (hs : s.Valid) (limit : Nat) (line : String) :
    (s.execute limit line).session.Valid := by
  rcases execute_cases hs limit line with h | ⟨target, value, h⟩ | ⟨name, params, body, h⟩
  · rwa [h]
  · exact h.valid hs
  · exact h.valid hs

end Executing

-- The session after a number of lines. How deeply calls may nest need not be the same for all of
-- them: each line has a limit of its own.
def replay (s : Session Float) (limits : Nat → Nat) : List String → Session Float
  | [] => s
  | line :: lines =>
    (s.execute (limits 0) line).session.replay (fun i => limits (i + 1)) lines

-- What every line preserves holds after all lines.
theorem replay_induction {p : Session Float → Prop}
    (hstep : ∀ s limit line, p s → p (s.execute limit line).session) {s : Session Float}
    (limits : Nat → Nat) (lines : List String) (hs : p s) : p (s.replay limits lines) := by
  induction lines generalizing s limits with
  | nil => exact hs
  | cons line lines ih => exact ih _ (hstep s (limits 0) line hs)

theorem function?_new {constants : List (String × α)} {root : Nat} {name : String}
    {f : Function α} (h : (new constants).store.function? root name = some f) :
    f.isCustom = false := by
  rw [Store.function?_eq] at h
  obtain ⟨t, ht, h⟩ := Option.bind_eq_some_iff.mp h
  obtain ⟨table, htable, h⟩ := Option.bind_eq_some_iff.mp h
  obtain rfl : table = Function.builtins :=
    List.mem_singleton.mp (List.mem_of_getElem? htable)
  exact Store.isCustom_of_builtins h

theorem valid_new (constants : List (String × α)) : (new constants).Valid where
  store :=
    { table := fun root t ht => by
        obtain ⟨r, hr, rfl⟩ := Option.map_eq_some_iff.mp ht
        rw [List.mem_singleton.mp (List.mem_of_getElem? hr)]
        exact Nat.zero_lt_one
      closure := fun root name params body closure hf => by
        have hcustom := function?_new hf
        simp [Function.isCustom] at hcustom }
  root := Nat.zero_lt_one

end Session

end Reckon
