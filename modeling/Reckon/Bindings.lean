namespace Reckon

-- Names bound to values, in the order in which the names were first bound. Binding a name again
-- changes its value and not its place.
structure Bindings (β : Type) where
  entries : List (String × β)
deriving Repr, BEq, DecidableEq

namespace Bindings

variable {β : Type}

def empty : Bindings β := ⟨[]⟩

def lookup (name : String) : List (String × β) → Option β
  | [] => none
  | (key, value) :: entries => if key = name then some value else lookup name entries

def get? (b : Bindings β) (name : String) : Option β := lookup name b.entries

def replace (name : String) (value : β) : List (String × β) → List (String × β)
  | [] => [(name, value)]
  | (key, old) :: entries =>
    if key = name then (name, value) :: entries else (key, old) :: replace name value entries

def insert (b : Bindings β) (name : String) (value : β) : Bindings β :=
  ⟨replace name value b.entries⟩

-- Of several values for one name the last counts.
def ofList (entries : List (String × β)) : Bindings β :=
  entries.foldl (fun b entry => b.insert entry.1 entry.2) empty

-- The entries by name, in the order of code points.
def sorted (b : Bindings β) : List (String × β) :=
  b.entries.mergeSort fun x y => decide (x.1 ≤ y.1)

@[simp]
theorem get?_empty (name : String) : (empty : Bindings β).get? name = none := rfl

private theorem lookup_replace (name key : String) (value : β) (entries : List (String × β)) :
    lookup key (replace name value entries) =
      if name = key then some value else lookup key entries := by
  induction entries with
  | nil => simp [replace, lookup]
  | cons entry entries ih =>
    obtain ⟨first, old⟩ := entry
    by_cases h : first = name
    · subst h
      by_cases hk : first = key <;> simp [replace, lookup, hk]
    · by_cases hk : first = key
      · subst hk
        have hn : name ≠ first := fun e => h e.symm
        simp [replace, lookup, h, hn]
      · simp [replace, lookup, h, hk, ih]

-- Binding a name changes what that name means and nothing else.
@[simp]
theorem get?_insert (b : Bindings β) (name key : String) (value : β) :
    (b.insert name value).get? key = if name = key then some value else b.get? key :=
  lookup_replace name key value b.entries

private theorem get?_foldl_insert (name : String) (value : β) (entries : List (String × β)) :
    ∀ b : Bindings β,
      (entries.foldl (fun b entry => b.insert entry.1 entry.2) b).get? name = some value →
        (name, value) ∈ entries ∨ b.get? name = some value := by
  induction entries with
  | nil => exact fun b hb => Or.inr hb
  | cons entry entries ih =>
    intro b hb
    rcases ih _ hb with hmem | hget
    · exact Or.inl (List.mem_cons_of_mem _ hmem)
    · rw [get?_insert] at hget
      by_cases hname : entry.1 = name
      · rw [if_pos hname] at hget
        obtain rfl : entry.2 = value := Option.some.inj hget
        exact Or.inl (by simp [← hname])
      · rw [if_neg hname] at hget
        exact Or.inr hget

-- Bindings that are made from a list hold nothing else.
theorem mem_of_get?_ofList {entries : List (String × β)} {name : String} {value : β}
    (h : (ofList entries).get? name = some value) : (name, value) ∈ entries := by
  rcases get?_foldl_insert name value entries empty h with hmem | hget
  · exact hmem
  · simp at hget

private theorem isSome_get?_foldl_insert (name : String) (entries : List (String × β)) :
    ∀ b : Bindings β,
      ((entries.foldl (fun b entry => b.insert entry.1 entry.2) b).get? name).isSome = true ↔
        name ∈ entries.map Prod.fst ∨ (b.get? name).isSome = true := by
  induction entries with
  | nil => simp
  | cons entry entries ih =>
    intro b
    rw [List.foldl_cons, ih, get?_insert, List.map_cons, List.mem_cons]
    by_cases h : entry.1 = name
    · simp [h]
    · simp [h, Ne.symm h]

theorem isSome_get?_ofList {entries : List (String × β)} {name : String} :
    ((ofList entries).get? name).isSome = true ↔ name ∈ entries.map Prod.fst := by
  rw [ofList, isSome_get?_foldl_insert]
  simp

end Bindings

end Reckon
