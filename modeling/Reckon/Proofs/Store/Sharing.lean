import Mathlib.Logic.Relation
import Reckon.Proofs.Store

namespace Reckon

variable {α : Type}

-- What can be done with environments and the scopes over them.
inductive Change (α : Type) where
  | create (constants : List (String × α))
  | put (root : Nat) (name : String) (value : α)
  | putFunction (root : Nat) (name : String) (f : Function α)
  | snapshot (root : Nat)
  | enclose (parent : Nat) (frame : Bindings α)

-- A store and the environments in it. The links between these are kept here; the store itself knows
-- nothing of them.
structure Web (α : Type) where
  store : Store α
  -- the environments and the scopes over them, in the order in which they were made
  scopes : List (Scope α)
  -- each snapshot, behind the root that it was taken of
  links : List (Nat × Nat)

namespace Web

def empty : Web α := ⟨.empty, [], []⟩

-- Nothing happens to what does not exist, nor where a constant would be bound again.
def step (w : Web α) : Change α → Web α
  | .create constants =>
    let (root, store) := w.store.create constants
    { w with store, scopes := w.scopes ++ [.ofRoot root] }
  | .put root name value =>
    match w.store.put root name value with
    | .ok store => { w with store }
    | .error _ => w
  | .putFunction root name f => { w with store := w.store.putFunction root name f }
  | .snapshot root =>
    if root < w.store.roots.length then
      let (copy, store) := w.store.snapshot root
      { store, scopes := w.scopes ++ [.ofRoot copy], links := (root, copy) :: w.links }
    else w
  | .enclose parent frame =>
    { w with scopes := w.scopes ++ (w.scopes[parent]?.map (·.push frame)).toList }

def run (changes : List (Change α)) : Web α := changes.foldl step empty

-- Roots are connected by snapshots of each other, taken in either direction.
def Connected (w : Web α) : Nat → Nat → Prop := Relation.EqvGen fun i j => (i, j) ∈ w.links

-- Roots use the same table exactly if they are connected.
structure Linked (w : Web α) : Prop where
  table : ∀ i t, w.store.tableIndex? i = some t → t < w.store.tables.length
  scope : ∀ scope ∈ w.scopes, scope.root < w.store.roots.length
  link : ∀ i j, (i, j) ∈ w.links → i < w.store.roots.length ∧ j < w.store.roots.length
  shared : ∀ i < w.store.roots.length, ∀ j < w.store.roots.length,
    (w.store.tableIndex? i = w.store.tableIndex? j ↔ w.Connected i j)

variable {w : Web α}

theorem linked_empty : (empty : Web α).Linked where
  table := fun i t h => by simp [empty, Store.empty, Store.tableIndex?] at h
  scope := fun scope h => by simp [empty] at h
  link := fun i j h => by simp [empty] at h
  shared := fun i hi => by simp [empty, Store.empty] at hi

theorem Linked.connected_bound (hw : w.Linked) {i j : Nat} (h : w.Connected i j) :
    i = j ∨ (i < w.store.roots.length ∧ j < w.store.roots.length) := by
  induction h with
  | rel i j hlink => exact .inr (hw.link i j hlink)
  | refl i => exact .inl rfl
  | symm i j _ ih => exact ih.imp Eq.symm And.symm
  | trans i j k _ _ ih ih' => omega

-- Changes that leave the roots in their places and at their tables.
theorem Linked.of_store (hw : w.Linked) {store : Store α}
    (hroots : store.roots.length = w.store.roots.length)
    (hindex : ∀ i, store.tableIndex? i = w.store.tableIndex? i)
    (htables : store.tables.length = w.store.tables.length) : { w with store }.Linked where
  table := fun i t h => htables ▸ hw.table i t (hindex i ▸ h)
  scope := fun scope h => hroots ▸ hw.scope scope h
  link := fun i j h => hroots ▸ hw.link i j h
  shared := fun i hi j hj => by
    rw [hindex, hindex]
    exact hw.shared i (hroots ▸ hi) j (hroots ▸ hj)

-- Changes that add one root. It must be connected to those roots whose table it uses, and all
-- others must stay connected as they were.
theorem Linked.grow {w' : Web α} {n : Nat} (hw : w.Linked) (hn : w.store.roots.length = n)
    (hroots : w'.store.roots.length = n + 1)
    (htables : w.store.tables.length ≤ w'.store.tables.length)
    (hold : ∀ i < n, w'.store.tableIndex? i = w.store.tableIndex? i)
    (hself : ∀ t, w'.store.tableIndex? n = some t → t < w'.store.tables.length)
    (hscopes : w'.scopes = w.scopes ++ [.ofRoot n])
    (hlinks : ∀ i j, (i, j) ∈ w'.links → (i, j) ∈ w.links ∨ (i < n ∧ j = n))
    (hconnected : ∀ i < n, ∀ j < n, (w'.Connected i j ↔ w.Connected i j))
    (hnew : ∀ i < n, (w'.store.tableIndex? i = w'.store.tableIndex? n ↔ w'.Connected i n)) :
    w'.Linked where
  table := fun i t h => by
    rcases Nat.lt_trichotomy i n with hi | rfl | hi
    · exact Nat.lt_of_lt_of_le (hw.table i t (hold i hi ▸ h)) htables
    · exact hself t h
    · rw [Store.tableIndex?, List.getElem?_eq_none (by omega)] at h
      simp at h
  scope := fun scope h => by
    rw [hscopes, List.mem_append, List.mem_singleton] at h
    rcases h with h | rfl
    · have hbound := hw.scope scope h
      omega
    · exact hroots ▸ Nat.lt_succ_self n
  link := fun i j h => by
    rcases hlinks i j h with h | h
    · have hbound := hw.link i j h
      omega
    · omega
  shared := fun i hi j hj => by
    rw [hroots] at hi hj
    rcases Nat.lt_succ_iff_lt_or_eq.mp hi with hi | rfl <;>
      rcases Nat.lt_succ_iff_lt_or_eq.mp hj with hj | rfl
    · rw [hold i hi, hold j hj, hconnected i hi j hj]
      exact hw.shared i (hn ▸ hi) j (hn ▸ hj)
    · exact hnew i hi
    · rw [eq_comm, hnew j hj]
      exact ⟨.symm _ _, .symm _ _⟩
    · exact iff_of_true rfl (.refl _)

-- A new environment has a table that no other environment uses.
theorem Linked.create (hw : w.Linked) (constants : List (String × α)) :
    (w.step (.create constants)).Linked := by
  have hold : ∀ i < w.store.roots.length,
      (w.store.create constants).2.tableIndex? i = w.store.tableIndex? i := fun i hi => by
    simp only [Store.create, Store.tableIndex?, List.getElem?_append_left hi]
  have hself : (w.store.create constants).2.tableIndex? w.store.roots.length =
      some w.store.tables.length := by simp [Store.create, Store.tableIndex?]
  have htables : (w.store.create constants).2.tables.length = w.store.tables.length + 1 := by
    simp [Store.create]
  refine hw.grow rfl (by simp [step, Store.create]) (htables ▸ Nat.le_succ _) hold
    (fun t h => ?_) rfl (fun i j h => .inl h) (fun i _ j _ => Iff.rfl) (fun i hi => ?_)
  · obtain rfl := Option.some.inj (hself.symm.trans h)
    exact htables ▸ Nat.lt_succ_self _
  · refine iff_of_false (fun h => ?_) fun h => ?_
    · have ht := (hold i hi).symm.trans (h.trans hself)
      exact Nat.lt_irrefl _ (hw.table i _ ht)
    · have hbound := hw.connected_bound h
      omega

section Snapshot

variable {root : Nat}

-- What is connected after a snapshot was connected before, with the copy in the place of what it
-- was taken of.
theorem Linked.connected_of_snapshot (hw : w.Linked) (hroot : root < w.store.roots.length)
    {i j : Nat} (h : (w.step (.snapshot root)).Connected i j) :
    w.Connected (if i = w.store.roots.length then root else i)
      (if j = w.store.roots.length then root else j) := by
  induction h with
  | rel i j hlink =>
    simp only [step, if_pos hroot, List.mem_cons] at hlink
    rcases hlink with hlink | hlink
    · obtain ⟨rfl, rfl⟩ := Prod.mk.inj hlink
      rw [if_neg (Nat.ne_of_lt hroot), Store.snapshot, if_pos rfl]
      exact .refl _
    · obtain ⟨hi, hj⟩ := hw.link i j hlink
      rw [if_neg (Nat.ne_of_lt hi), if_neg (Nat.ne_of_lt hj)]
      exact .rel _ _ hlink
  | refl i => exact .refl _
  | symm i j _ ih => exact .symm _ _ ih
  | trans i j k _ _ ih ih' => exact .trans _ _ _ ih ih'

theorem connected_snapshot_of (hroot : root < w.store.roots.length) {i j : Nat}
    (h : w.Connected i j) : (w.step (.snapshot root)).Connected i j := by
  refine Relation.EqvGen.mono (fun i j hlink => ?_) _ _ h
  rw [step, if_pos hroot]
  exact List.mem_cons_of_mem _ hlink

-- A snapshot uses the table of what it was taken of, and so of all that this is connected to.
theorem Linked.snapshot (hw : w.Linked) (hroot : root < w.store.roots.length) :
    (w.step (.snapshot root)).Linked := by
  have hstep : w.step (.snapshot root) =
      { store := (w.store.snapshot root).2
        scopes := w.scopes ++ [.ofRoot w.store.roots.length]
        links := (root, w.store.roots.length) :: w.links } := by
    rw [step, if_pos hroot]
    rfl
  have hold : ∀ i < w.store.roots.length,
      (w.step (.snapshot root)).store.tableIndex? i = w.store.tableIndex? i := fun i hi => by
    rw [hstep, Store.tableIndex?_snapshot hi]
  have hself : (w.step (.snapshot root)).store.tableIndex? w.store.roots.length =
      w.store.tableIndex? root := by
    rw [hstep, Store.tableIndex?, Store.getElem?_snapshot_self hroot, Store.tableIndex?]
  have hcopy : (w.step (.snapshot root)).Connected root w.store.roots.length :=
    .rel _ _ (by simp [hstep])
  refine hw.grow rfl (by rw [hstep, Store.length_snapshot hroot])
    (by rw [hstep]; exact Nat.le_refl _) hold (fun t h => ?_) (by rw [hstep]) (fun i j h => ?_)
    (fun i hi j hj => ⟨fun h => ?_, connected_snapshot_of hroot⟩) (fun i hi => ?_)
  · rw [hstep]
    exact hw.table root t (hself ▸ h)
  · rw [hstep, List.mem_cons, Prod.mk.injEq] at h
    rcases h with ⟨rfl, rfl⟩ | h
    · exact .inr ⟨hroot, rfl⟩
    · exact .inl h
  · have hold := hw.connected_of_snapshot hroot h
    rwa [if_neg (Nat.ne_of_lt hi), if_neg (Nat.ne_of_lt hj)] at hold
  · rw [hold i hi, hself, hw.shared i hi root hroot]
    refine ⟨fun h => .trans _ _ _ (connected_snapshot_of hroot h) hcopy, fun h => ?_⟩
    have hold := hw.connected_of_snapshot hroot h
    rwa [if_neg (Nat.ne_of_lt hi), if_pos rfl] at hold

end Snapshot

theorem Linked.step (hw : w.Linked) (change : Change α) : (w.step change).Linked := by
  cases change with
  | create constants => exact hw.create constants
  | put root name value =>
    rw [Web.step]
    cases hput : w.store.put root name value with
    | error error => exact hw
    | ok store =>
      exact hw.of_store (Store.length_put hput) (Store.tableIndex?_put hput)
        (congrArg List.length (Store.tables_put hput))
  | putFunction root name f =>
    exact hw.of_store (congrArg List.length (Store.roots_putFunction w.store root name f))
      (Store.tableIndex?_putFunction w.store root name f)
      (Store.length_tables_putFunction w.store root name f)
  | snapshot root =>
    by_cases hroot : root < w.store.roots.length
    · exact hw.snapshot hroot
    · rwa [Web.step, if_neg hroot]
  | enclose parent frame =>
    refine { hw with scope := fun scope h => ?_ }
    simp only [Web.step, List.mem_append, Option.mem_toList, Option.map_eq_some_iff] at h
    rcases h with h | ⟨parentScope, hparent, rfl⟩
    · exact hw.scope scope h
    · exact hw.scope parentScope (List.mem_of_getElem? hparent)

theorem linked_run (changes : List (Change α)) : (run changes).Linked := by
  suffices h : ∀ w : Web α, w.Linked → (changes.foldl Web.step w).Linked from h _ linked_empty
  induction changes with
  | nil => exact fun w hw => hw
  | cons change changes ih => exact fun w hw => ih _ (hw.step change)

-- A name has been assigned to in a root. It is read there and through the scopes over this root
-- that do not bind it themselves, and nothing else reads differently.
structure Assigned (w : Web α) (root : Nat) (name : String) (value : α) (w' : Web α) : Prop where
  scopes : w'.scopes = w.scopes
  get? : ∀ scope ∈ w.scopes, ∀ n, w'.store.get? scope n =
    if scope.root = root ∧ n = name ∧ scope.local? n = none then some value
    else w.store.get? scope n
  isConstant : ∀ scope ∈ w.scopes, ∀ n,
    w'.store.isConstant scope.root n = w.store.isConstant scope.root n
  function? : ∀ scope ∈ w.scopes, ∀ n,
    w'.store.function? scope.root n = w.store.function? scope.root n

open Classical in
-- A function has been put into the table of a root. It is found through the scopes over all roots
-- that are connected to this one, and nothing else is found differently.
structure Defined (w : Web α) (root : Nat) (name : String) (f : Function α) (w' : Web α) :
    Prop where
  scopes : w'.scopes = w.scopes
  get? : ∀ scope ∈ w.scopes, ∀ n, w'.store.get? scope n = w.store.get? scope n
  isConstant : ∀ scope ∈ w.scopes, ∀ n,
    w'.store.isConstant scope.root n = w.store.isConstant scope.root n
  function? : ∀ scope ∈ w.scopes, ∀ n, w'.store.function? scope.root n =
    if w.Connected scope.root root ∧ n = name then some f else w.store.function? scope.root n

theorem assigned_put {root : Nat} (hroot : root < w.store.roots.length) {name : String}
    {value : α} {store : Store α} (hput : w.store.put root name value = .ok store) :
    w.Assigned root name value (w.step (.put root name value)) := by
  have hbinding := Store.binding?_put hput hroot
  rw [Web.step, hput]
  refine ⟨rfl, fun scope _ n => ?_, fun scope _ n => ?_, fun scope _ n => ?_⟩
  · simp only [Store.get?, hbinding]
    by_cases hn : scope.root = root ∧ n = name
    · cases scope.local? n <;> simp [hn]
    · rw [if_neg hn, if_neg fun h => hn ⟨h.1, h.2.1⟩]
  · simp only [Store.isConstant, hbinding]
    split
    · rename_i hn
      -- what has been bound was no constant, or it could not have been bound
      have hfalse := (Store.put_eq_ok.mp hput).1
      rw [Store.isConstant] at hfalse
      rw [hn.1, hn.2, hfalse]
      rfl
    · rfl
  · exact Store.function?_put hput scope.root n

theorem Linked.defined_putFunction (hw : w.Linked) {root : Nat}
    (hroot : root < w.store.roots.length) (name : String) (f : Function α) :
    w.Defined root name f (w.step (.putFunction root name f)) := by
  have hroots := Store.roots_putFunction w.store root name f
  obtain ⟨t, ht⟩ := Store.exists_tableIndex? hroot
  refine ⟨rfl, fun scope _ n => ?_, fun scope _ n => ?_, fun scope hscope n => ?_⟩
  · simp only [Web.step, Store.get?, Store.binding?, hroots]
  · simp only [Web.step, Store.isConstant, Store.binding?, hroots]
  · have hconnected := hw.shared scope.root (hw.scope scope hscope) root hroot
    rw [Web.step, Store.function?_putFunction ht (hw.table root t ht)]
    congr 1
    exact propext (and_congr_left' hconnected)

-- However environments have been made, copied and written to before, an assignment is seen in one
-- of them and a function in all that are connected. Only constants cannot be assigned to, and then
-- nothing happens.
theorem run_footprint (changes : List (Change α)) {root : Nat}
    (hroot : Scope.ofRoot root ∈ (run changes).scopes) (name : String) :
    (∀ value, (run changes).store.isConstant root name = false →
      (∃ store, (run changes).store.put root name value = .ok store) ∧
        (run changes).Assigned root name value ((run changes).step (.put root name value))) ∧
    (∀ value, (run changes).store.isConstant root name = true →
      (run changes).store.put root name value = .error (.constant name) ∧
        (run changes).step (.put root name value) = run changes) ∧
    ∀ f, (run changes).Defined root name f ((run changes).step (.putFunction root name f)) := by
  have hw := linked_run changes
  have hbound : root < (run changes).store.roots.length := hw.scope _ hroot
  refine ⟨fun value hconstant => ?_, fun value hconstant => ?_,
    fun f => hw.defined_putFunction hbound name f⟩
  · obtain ⟨store, hput⟩ : ∃ store, (run changes).store.put root name value = .ok store :=
      ⟨_, Store.put_eq_ok.mpr ⟨hconstant, rfl⟩⟩
    exact ⟨⟨store, hput⟩, assigned_put hbound hput⟩
  · have hput : (run changes).store.put root name value = .error (.constant name) := by
      rw [Store.put, if_pos hconstant]
    exact ⟨hput, by rw [Web.step, hput]⟩

-- The second environment and the third are copies of the first and of the second. The last one has
-- nothing to do with them.
def copies : List (Change Nat) :=
  [.create [("pi", 3)], .put 0 "a" 1, .snapshot 0, .enclose 1 (.ofList [("a", 5)]), .snapshot 1,
    .create [("pi", 3)]]

-- The copy in the middle is assigned to: `a` keeps its value in what it was copied from, in its own
-- copy, and in the scope that binds `a`.
theorem run_footprint_copies :
    Scope.ofRoot 1 ∈ (run copies).scopes ∧
    (run copies).store.isConstant 1 "a" = false ∧
    (run copies).Assigned 1 "a" 2 ((run copies).step (.put 1 "a" 2)) ∧
    (run copies).store.isConstant 1 "pi" = true ∧
    (run copies).step (.put 1 "pi" 4) = run copies ∧
    (run copies).Defined 1 "a" (.builtin .sqrt)
      ((run copies).step (.putFunction 1 "a" (.builtin .sqrt))) ∧
    (run copies).scopes.map (((run copies).step (.put 1 "a" 2)).store.get? · "a") =
      [some 1, some 2, some 5, some 1, none] := by
  have hroot : Scope.ofRoot 1 ∈ (run copies).scopes := List.mem_of_getElem? (i := 1) rfl
  obtain ⟨hassign, -, hdefine⟩ := run_footprint copies hroot "a"
  obtain ⟨-, hrefuse, -⟩ := run_footprint copies hroot "pi"
  exact ⟨hroot, rfl, (hassign 2 rfl).2, rfl, (hrefuse 4 rfl).2, hdefine _, rfl⟩

end Web

end Reckon
