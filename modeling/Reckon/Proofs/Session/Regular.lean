import Reckon.Proofs.Grammar.Names
import Reckon.Proofs.Session

namespace Reckon

-- A root that binds the constants of a calculator, nothing else as a constant, and names only.
structure Store.Regular (store : Store Float) (root : Nat) : Prop where
  constants : ∀ entry ∈ Session.constants, store.binding? root entry.1 = some ⟨entry.2, true⟩
  constant : ∀ name, store.isConstant root name = true → name ∈ Session.constants.map Prod.fst
  names : ∀ name v, store.binding? root name = some v → Token.isName name = true

-- A built-in function, or one that has been defined with a closure over one of the roots.
def Function.Regular (count : Nat) : Function Float → Prop
  | .builtin _ => True
  | .custom params body captured =>
    Definable params body ∧ ∃ root < count, captured = some (.ofRoot root)

theorem Function.Regular.weaken {m n : Nat} (hmn : m ≤ n) {f : Function Float}
    (hf : f.Regular m) : f.Regular n := by
  cases f with
  | builtin b => trivial
  | custom params body captured =>
    obtain ⟨hdefinable, root, hroot, hcaptured⟩ := hf
    exact ⟨hdefinable, root, Nat.lt_of_lt_of_le hroot hmn, hcaptured⟩

theorem Store.Regular.congr {store store' : Store Float} {i j : Nat} (h : store.Regular j)
    (hbinding : ∀ n, store'.binding? i n = store.binding? j n) : store'.Regular i where
  constants := fun entry hentry => (hbinding _).trans (h.constants entry hentry)
  constant := fun n hn => h.constant n (by rwa [Store.isConstant, hbinding] at hn)
  names := fun n v hn => h.names n v (hbinding n ▸ hn)

namespace Session

structure Regular (s : Session Float) : Prop where
  valid : s.Valid
  roots : ∀ i < s.store.roots.length, s.store.Regular i
  table : ∀ i < s.store.roots.length, s.store.tableIndex? i = s.store.tableIndex? s.root
  functions : ∀ name f, s.store.function? s.root name = some f →
    Token.isName name = true ∧ f.Regular s.store.roots.length

section Steps

variable {s s' : Session Float} {target name : String} {params : List String}
  {body : Operand Float} {value : Float}

theorem Regular.function?_eq (hs : s.Regular) {i : Nat} (hi : i < s.store.roots.length)
    (n : String) : s.store.function? i n = s.store.function? s.root n := by
  rw [Store.function?_eq, Store.function?_eq, hs.table i hi]

-- What is assigned to is no constant, so that the constants stay.
theorem Assigned.regular (h : s.Assigned target value s') (hs : s.Regular)
    (htarget : Token.isName target = true)
    (hconstant : s.store.isConstant s.root target = false) : s'.Regular where
  valid := h.valid hs.valid
  roots := fun i hi => by
    have hroot := hs.roots i (h.length ▸ hi)
    refine ⟨fun entry hentry => ?_, fun n hn => ?_, fun n v hn => ?_⟩
    · rw [h.binding?, if_neg]
      · exact hroot.constants entry hentry
      · rintro ⟨rfl, rfl⟩
        rw [Store.isConstant, hroot.constants entry hentry] at hconstant
        cases hconstant
    · rw [Store.isConstant, h.binding?] at hn
      split at hn
      · cases hn
      · exact hroot.constant n hn
    · rw [h.binding?] at hn
      split at hn
      · rename_i htarget'
        rw [htarget'.2, htarget]
      · exact hroot.names n v hn
  table := fun i hi => by
    rw [h.tableIndex?, h.tableIndex?, h.root]
    exact hs.table i (h.length ▸ hi)
  functions := fun n f hf => by
    rw [h.function?, h.root] at hf
    rw [h.length]
    exact hs.functions n f hf

theorem Defined.exists_root (h : s.Defined name params body s') (hs : s.Valid) {i : Nat}
    (hi : i < s'.store.roots.length) :
    ∃ j < s.store.roots.length, s'.store.roots[i]? = s.store.roots[j]? := by
  rw [h.length] at hi
  rcases Nat.lt_succ_iff_lt_or_eq.mp hi with hi | rfl
  · exact ⟨i, hi, h.kept i hi⟩
  · exact ⟨s.root, hs.root, h.closure⟩

-- The closure of a new function is a copy of the root of the session, and uses its table.
theorem Defined.regular (h : s.Defined name params body s') (hs : s.Regular)
    (hname : Token.isName name = true) (hdefinable : Definable params body) : s'.Regular where
  valid := h.valid hs.valid
  roots := fun i hi => by
    obtain ⟨j, hj, hroot⟩ := h.exists_root hs.valid hi
    exact (hs.roots j hj).congr fun n => by rw [Store.binding?, Store.binding?, hroot]
  table := fun i hi => by
    obtain ⟨j, hj, hroot⟩ := h.exists_root hs.valid hi
    rw [Store.tableIndex?, hroot, h.root, Store.tableIndex?, h.kept _ hs.valid.root]
    exact hs.table j hj
  functions := fun n f hf => by
    rw [h.root, h.function? _ hs.valid.root] at hf
    rw [h.length]
    split at hf
    · rename_i hn
      obtain rfl := Option.some.inj hf
      exact ⟨hn.2 ▸ hname, hdefinable, _, Nat.lt_succ_self _, rfl⟩
    · obtain ⟨hname', hf'⟩ := hs.functions n f hf
      exact ⟨hname', hf'.weaken (Nat.le_succ _)⟩

theorem Regular.perform (hs : s.Regular) (limit : Nat) {statement : Statement Float}
    (hbinds : statement.Binds) : (s.perform limit statement).session.Regular := by
  cases statement with
  | expression t => exact hs
  | plot name => exact hs
  | solve lhs rhs x =>
    rw [Session.perform, solve_session]
    exact hs
  | definition name params body =>
    exact (defined_define hs.valid name params body).regular hs hbinds.1 hbinds.2
  | assignment target t =>
    rw [Session.perform]
    rcases assign_cases s limit target t with ⟨hsession, -⟩ | ⟨value, store, -, hput, hassign⟩
    · rwa [hsession]
    · rw [hassign]
      exact (assigned_of_put hs.valid hput).regular hs hbinds (Store.put_eq_ok.mp hput).1

theorem Regular.execute (hs : s.Regular) (limit : Nat) (line : String) :
    (s.execute limit line).session.Regular := by
  cases hparse : Statement.parse line.toList with
  | error error => rwa [execute_of_error hparse, unchanged]
  | ok statement =>
    rw [session_execute hparse]
    exact hs.perform limit (Statement.binds_of_parse hparse)

end Steps

theorem isName_of_constant : ∀ name ∈ constants.map Prod.fst, Token.isName name = true := by
  decide

theorem isName_of_builtin (b : Builtin) : Token.isName b.name = true := by
  cases b <;> decide

theorem regular_fresh : fresh.Regular where
  valid := valid_new constants
  roots := fun i hi => by
    obtain rfl := Nat.lt_one_iff.mp hi
    have hnames : ∀ n v, fresh.store.binding? 0 n = some v → n ∈ constants.map Prod.fst := by
      intro n v hv
      obtain ⟨entry, hentry, he⟩ := List.mem_map.mp (Bindings.mem_of_get?_ofList hv)
      exact List.mem_map.mpr ⟨entry, hentry, congrArg Prod.fst he⟩
    refine ⟨?_, fun n hn => ?_, fun n v hn => isName_of_constant n (hnames n v hn)⟩
    · simp only [constants, List.forall_mem_cons]
      exact ⟨rfl, rfl, rfl, by simp⟩
    · cases hv : fresh.store.binding? 0 n with
      | none => simp [Store.isConstant, hv] at hn
      | some v => exact hnames n v hv
  table := fun i hi => by
    rw [Nat.lt_one_iff.mp hi]
    rfl
  functions := fun name f hf => by
    have hmem : (name, f) ∈ Builtin.all.map fun b => (b.name, (.builtin b : Function Float)) :=
      Bindings.mem_of_get?_ofList hf
    obtain ⟨b, -, hb⟩ := List.mem_map.mp hmem
    obtain ⟨rfl, rfl⟩ := Prod.mk.inj hb
    exact ⟨isName_of_builtin b, trivial⟩

theorem regular_replay (limits : Nat → Nat) (lines : List String) :
    (fresh.replay limits lines).Regular :=
  replay_induction (fun _ limit line hs => hs.execute limit line) limits lines regular_fresh

-- Whatever lines have been executed, the session and the closures in its table keep the constants
-- and bind names only. Each function that has been defined is one that a line can define, and its
-- closure finds the functions that the session finds.
theorem replay_regular (limits : Nat → Nat) (lines : List String) :
    let s := fresh.replay limits lines
    s.store.Regular s.root ∧
    ∀ name f, s.store.function? s.root name = some f →
      Token.isName name = true ∧
      ∀ params body captured, f = .custom params body captured → Definable params body ∧
        ∃ root, captured = some (.ofRoot root) ∧ s.store.Regular root ∧
          ∀ n, s.store.function? root n = s.store.function? s.root n := by
  intro s
  have hs : s.Regular := regular_replay limits lines
  refine ⟨hs.roots _ hs.valid.root, fun name f hf => ?_⟩
  obtain ⟨hname, hregular⟩ := hs.functions name f hf
  refine ⟨hname, ?_⟩
  rintro params body captured rfl
  obtain ⟨hdefinable, root, hroot, hcaptured⟩ := hregular
  exact ⟨hdefinable, root, hcaptured, hs.roots root hroot, hs.function?_eq hroot⟩

end Session

end Reckon
