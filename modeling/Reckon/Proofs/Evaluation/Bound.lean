import Reckon.Proofs.Evaluation.Closure

namespace Reckon.Evaluation

variable {α : Type} {store store' : Store α} {scope scope' : Scope α} {x : String} {value : α}

-- A name is given a value as the parameter of a call, or as a variable of a root that no closure
-- lies over.
inductive Bound (x : String) (value : α) (store : Store α) :
    Scope α → Store α → Scope α → Prop where
  | parameter (scope : Scope α) :
    Bound x value store scope store (scope.push (.ofList [(x, value)]))
  | assigned {root : Nat} {store' : Store α} (hroot : root < store.roots.length)
    (hs : store.Separate root) (hput : store.put root x value = .ok store') :
    Bound x value store (.ofRoot root) store' (.ofRoot root)

theorem get?_push (store : Store α) (scope : Scope α) (frame : Bindings α) (name : String) :
    store.get? (scope.push frame) name = (frame.get? name).or (store.get? scope name) := by
  simp only [Store.get?, Scope.local?, Scope.push, List.findSome?_cons]
  cases frame.get? name <;> rfl

theorem get?_ofRoot (store : Store α) (root : Nat) (name : String) :
    store.get? (.ofRoot root) name = (store.binding? root name).map Variable.value := rfl

theorem Bound.get?_self (h : Bound x value store scope store' scope') :
    store'.get? scope' x = some value := by
  cases h with
  | parameter => simp [get?_push, Bindings.ofList]
  | assigned hroot _ hput =>
    rw [get?_ofRoot, Store.binding?_put hput hroot, if_pos ⟨rfl, rfl⟩]
    rfl

theorem Bound.get?_of_ne (h : Bound x value store scope store' scope') {name : String}
    (hname : name ≠ x) : store'.get? scope' name = store.get? scope name := by
  cases h with
  | parameter => simp [get?_push, Bindings.ofList, hname.symm]
  | assigned hroot _ hput =>
    rw [get?_ofRoot, get?_ofRoot, Store.binding?_put hput hroot, if_neg fun he => hname he.2]

-- No call is told apart by the name that has been bound.
theorem Bound.sameCalls [Arithmetic α] (h : Bound x value store scope store' scope')
    (limit : Nat) : SameCalls limit store store' scope scope' := by
  cases h with
  | parameter => exact sameCalls_of_root rfl
  | @assigned root _ hroot hs hput =>
    have hclosures : SameClosures store store' :=
      sameClosures_of_separate hs (Store.function?_put hput) fun i n hi => by
        rw [Store.binding?_put hput hroot, if_neg fun he => hi he.1]
    exact hclosures.sameCalls limit rfl

end Reckon.Evaluation
