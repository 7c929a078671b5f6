import Reckon.Environment

namespace Reckon.Store

variable {α : Type} {store store' : Store α} {root : Nat} {name : String}

-- Roots with the same table index share their functions.
def tableIndex? (store : Store α) (root : Nat) : Option Nat :=
  store.roots[root]?.map Root.tableIndex

theorem exists_tableIndex? (h : root < store.roots.length) :
    ∃ t, store.tableIndex? root = some t :=
  ⟨_, by rw [tableIndex?, List.getElem?_eq_getElem h, Option.map_some]⟩

theorem function?_eq (store : Store α) (root : Nat) (name : String) :
    store.function? root name =
      (store.tableIndex? root).bind fun i => store.tables[i]?.bind fun t => t.get? name := by
  unfold function? table? tableIndex?
  cases store.roots[root]? with
  | none => rfl
  | some r => rfl

-- The table that an environment starts with holds no function with a body.
theorem isCustom_of_builtins {f : Function α} (h : Function.builtins.get? name = some f) :
    f.isCustom = false := by
  have hmem := Bindings.mem_of_get?_ofList h
  obtain ⟨b, -, he⟩ := List.mem_map.mp hmem
  rw [← (Prod.mk.inj he).2]
  rfl

-- Assigning

theorem put_eq_ok {value : α} : store.put root name value = .ok store' ↔
    store.isConstant root name = false ∧ store' = { store with
      roots := store.roots.modify root fun r =>
        { r with values := r.values.insert name ⟨value, false⟩ } } := by
  unfold put
  cases store.isConstant root name with
  | true => simp
  | false => simp [eq_comm]

section Put

variable {value : α} (h : store.put root name value = .ok store')
include h

theorem tables_put : store'.tables = store.tables := by
  rw [(put_eq_ok.mp h).2]

theorem length_put : store'.roots.length = store.roots.length := by
  rw [(put_eq_ok.mp h).2]
  exact List.length_modify _ _ _

theorem tableIndex?_put (i : Nat) : store'.tableIndex? i = store.tableIndex? i := by
  rw [(put_eq_ok.mp h).2]
  simp only [tableIndex?, List.getElem?_modify]
  cases store.roots[i]? with
  | none => rfl
  | some r => by_cases hi : root = i <;> simp [hi]

theorem function?_put (i : Nat) (n : String) : store'.function? i n = store.function? i n := by
  rw [function?_eq, function?_eq, tableIndex?_put h, tables_put h]

-- An assignment is seen in its own root and under its own name only.
theorem binding?_put (hroot : root < store.roots.length) (i : Nat) (n : String) :
    store'.binding? i n =
      if i = root ∧ n = name then some ⟨value, false⟩ else store.binding? i n := by
  rw [(put_eq_ok.mp h).2]
  simp only [binding?, List.getElem?_modify]
  by_cases hi : root = i
  · subst hi
    have hget : store.roots[root]? = some store.roots[root] := List.getElem?_eq_getElem hroot
    simp [hget, eq_comm]
  · have hne : ¬(i = root ∧ n = name) := fun he => hi he.1.symm
    simp [hi, hne]

end Put

-- Defining

theorem getElem?_snapshot {i : Nat} (hi : i < store.roots.length) :
    (store.snapshot root).2.roots[i]? = store.roots[i]? :=
  List.getElem?_append_left hi

theorem getElem?_snapshot_self (hroot : root < store.roots.length) :
    (store.snapshot root).2.roots[store.roots.length]? = store.roots[root]? := by
  have hget : store.roots[root]? = some store.roots[root] := List.getElem?_eq_getElem hroot
  simp [snapshot, hget]

theorem tableIndex?_snapshot {i : Nat} (hi : i < store.roots.length) :
    (store.snapshot root).2.tableIndex? i = store.tableIndex? i := by
  rw [tableIndex?, tableIndex?, getElem?_snapshot hi]

theorem function?_snapshot {i : Nat} (hi : i < store.roots.length) (n : String) :
    (store.snapshot root).2.function? i n = store.function? i n := by
  rw [function?_eq, function?_eq, tableIndex?_snapshot hi]
  rfl

theorem binding?_snapshot {i : Nat} (hi : i < store.roots.length) (n : String) :
    (store.snapshot root).2.binding? i n = store.binding? i n := by
  rw [binding?, binding?, getElem?_snapshot hi]

theorem length_snapshot (hroot : root < store.roots.length) :
    (store.snapshot root).2.roots.length = store.roots.length + 1 := by
  have hget : store.roots[root]? = some store.roots[root] := List.getElem?_eq_getElem hroot
  simp [snapshot, hget]

-- A snapshot brings no table and no function that was not there before.
theorem tableIndex?_of_snapshot (hroot : root < store.roots.length) {i t : Nat}
    (h : (store.snapshot root).2.tableIndex? i = some t) : ∃ j, store.tableIndex? j = some t := by
  rcases Nat.lt_trichotomy i store.roots.length with hi | rfl | hi
  · exact ⟨i, tableIndex?_snapshot hi ▸ h⟩
  · rw [tableIndex?, getElem?_snapshot_self hroot] at h
    exact ⟨root, h⟩
  · have hnone : (store.snapshot root).2.roots[i]? = none := by
      rw [List.getElem?_eq_none_iff, length_snapshot hroot]
      omega
    simp [tableIndex?, hnone] at h

theorem function?_of_snapshot (hroot : root < store.roots.length) {i : Nat} {n : String}
    {f : Function α} (h : (store.snapshot root).2.function? i n = some f) :
    ∃ j, store.function? j n = some f := by
  rw [function?_eq] at h
  obtain ⟨t, ht, hf⟩ := Option.bind_eq_some_iff.mp h
  obtain ⟨j, hj⟩ := tableIndex?_of_snapshot hroot ht
  exact ⟨j, by rw [function?_eq, hj]; exact hf⟩

theorem roots_putFunction (store : Store α) (root : Nat) (name : String) (f : Function α) :
    (store.putFunction root name f).roots = store.roots := by
  unfold putFunction
  cases store.roots[root]? <;> rfl

theorem tableIndex?_putFunction (store : Store α) (root : Nat) (name : String) (f : Function α)
    (i : Nat) : (store.putFunction root name f).tableIndex? i = store.tableIndex? i := by
  rw [tableIndex?, tableIndex?, roots_putFunction]

theorem length_tables_putFunction (store : Store α) (root : Nat) (name : String)
    (f : Function α) : (store.putFunction root name f).tables.length = store.tables.length := by
  unfold putFunction
  cases store.roots[root]? with
  | none => rfl
  | some r => exact List.length_modify _ _ _

-- A function is seen from all roots that share the table, under its own name only.
theorem function?_putFunction {t : Nat} (htable : store.tableIndex? root = some t)
    (ht : t < store.tables.length) (f : Function α) (i : Nat) (n : String) :
    (store.putFunction root name f).function? i n =
      if store.tableIndex? i = store.tableIndex? root ∧ n = name then some f
      else store.function? i n := by
  rw [function?_eq, function?_eq, tableIndex?_putFunction, htable]
  obtain ⟨r, hr, rfl⟩ : ∃ r, store.roots[root]? = some r ∧ r.tableIndex = t := by
    simpa [tableIndex?] using htable
  cases hi : store.tableIndex? i with
  | none => simp
  | some j =>
    by_cases hj : j = r.tableIndex
    · subst hj
      simp [putFunction, hr, List.getElem?_eq_getElem ht, eq_comm]
    · have hne : r.tableIndex ≠ j := fun he => hj he.symm
      simp [putFunction, hr, hj, hne]

-- Every function with a body carries a closure, and none of the closures lies over the root.
def Separate (store : Store α) (root : Nat) : Prop :=
  ∀ i n params body captured, store.function? i n = some (.custom params body captured) →
    ∃ closure, captured = some closure ∧ closure.root ≠ root

end Reckon.Store
