import Reckon.Proofs.Evaluation.Closure
import Mathlib.Data.Finset.Card
import Mathlib.Logic.Relation

namespace Reckon

theorem Bindings.mem_of_lookup {β : Type} {name : String} {value : β}
    {entries : List (String × β)} (h : lookup name entries = some value) :
    (name, value) ∈ entries := by
  induction entries with
  | nil => cases h
  | cons entry entries ih =>
    rw [lookup] at h
    split at h
    · rename_i hname
      obtain rfl := Option.some.inj h
      exact hname ▸ List.mem_cons_self ..
    · exact List.mem_cons_of_mem _ (ih h)

variable {α : Type}

namespace Operand

mutual

-- The names of the functions that are called in an operand.
def calls : Operand α → List String
  | number _ => []
  | symbol _ => []
  | term _ lhs rhs => lhs.calls ++ rhs.calls
  | call name args => name :: callsOfAll args

def callsOfAll : List (Operand α) → List String
  | [] => []
  | arg :: args => arg.calls ++ callsOfAll args

end

end Operand

namespace Store

-- One function calls another if its body, as it is now, holds a call of it.
def Calls (store : Store α) (root : Nat) (f g : String) : Prop :=
  ∃ params body captured, store.function? root f = some (.custom params body captured) ∧
    g ∈ body.calls

-- From the function one can get by calls to one that is called by itself, directly or not.
def Circular (store : Store α) (root : Nat) (name : String) : Prop :=
  ∃ f, Relation.ReflTransGen (store.Calls root) name f ∧ Relation.TransGen (store.Calls root) f f

-- The functions of a root that have bodies, by name.
def defined (store : Store α) (root : Nat) : List String :=
  ((store.sortedFunctions root).filter fun (_, f) => f.isCustom).map Prod.fst

variable {store : Store α} {root : Nat} {f g name : String}

theorem Circular.of_calls (hcalls : store.Calls root f g) (hg : store.Circular root g) :
    store.Circular root f := by
  obtain ⟨h, hpath, hcircle⟩ := hg
  exact ⟨h, hpath.head hcalls, hcircle⟩

-- A circle can be entered one call further on.
theorem Circular.exists_calls (hf : store.Circular root f) :
    ∃ g, store.Calls root f g ∧ store.Circular root g := by
  obtain ⟨h, hpath, hcircle⟩ := hf
  cases hpath using Relation.ReflTransGen.head_induction_on with
  | refl =>
    obtain ⟨g, hcalls, hback⟩ := Relation.TransGen.head'_iff.mp hcircle
    exact ⟨g, hcalls, f, hback, hcircle⟩
  | head hcalls hrest => exact ⟨_, hcalls, h, hrest, hcircle⟩

theorem mem_defined {fn : Function α} (h : store.function? root name = some fn)
    (hcustom : fn.isCustom = true) : name ∈ store.defined root := by
  obtain ⟨table, htable, hget⟩ := Option.bind_eq_some_iff.mp h
  have hmem : (name, fn) ∈ store.sortedFunctions root := by
    rw [sortedFunctions, htable]
    exact List.mem_mergeSort.mpr (Bindings.mem_of_lookup hget)
  exact List.mem_map.mpr ⟨(name, fn), List.mem_filter.mpr ⟨hmem, hcustom⟩, rfl⟩

open Classical in
-- The functions with bodies that calls lead to from a function.
noncomputable def descendants (store : Store α) (root : Nat) (name : String) : Finset String :=
  (store.defined root).toFinset.filter fun g => Relation.TransGen (store.Calls root) name g

theorem mem_descendants : g ∈ store.descendants root f ↔
    g ∈ store.defined root ∧ Relation.TransGen (store.Calls root) f g := by
  simp [descendants]

theorem not_transGen_self (hf : ¬store.Circular root f) :
    ¬Relation.TransGen (store.Calls root) f f := fun h => hf ⟨f, .refl, h⟩

-- A call leaves at least the function that is called behind.
theorem card_descendants_lt (hcalls : store.Calls root f g) (hg : ¬store.Circular root g)
    (hmem : g ∈ store.defined root) :
    (store.descendants root g).card < (store.descendants root f).card := by
  apply Finset.card_lt_card
  refine Finset.ssubset_iff_of_subset (fun h hh => ?_) |>.mpr ⟨g, ?_, ?_⟩
  · obtain ⟨hdefined, hpath⟩ := mem_descendants.mp hh
    exact mem_descendants.mpr ⟨hdefined, hpath.head hcalls⟩
  · exact mem_descendants.mpr ⟨hmem, .single hcalls⟩
  · exact fun h => not_transGen_self hg (mem_descendants.mp h).2

theorem card_descendants_lt_length (hf : ¬store.Circular root f)
    (hmem : f ∈ store.defined root) :
    (store.descendants root f).card < (store.defined root).length := by
  refine Nat.lt_of_lt_of_le (Finset.card_lt_card ?_) (List.toFinset_card_le _)
  refine Finset.ssubset_iff_of_subset (fun h hh => ?_) |>.mpr ⟨f, ?_, ?_⟩
  · exact List.mem_toFinset.mpr (mem_descendants.mp hh).1
  · exact List.mem_toFinset.mpr hmem
  · exact fun h => not_transGen_self hf (mem_descendants.mp h).2

-- Every closure finds the functions that the root finds.
def Uniform (store : Store α) (root : Nat) : Prop :=
  ∀ name params body closure, store.function? root name = some (.custom params body (some closure)) →
    ∀ n, store.function? closure.root n = store.function? root n

end Store

namespace Evaluation

variable [Arithmetic α] {store : Store α} {limit root : Nat} {scope : Scope α}

-- A scope from which the functions of a root are called.
def Finds (store : Store α) (root : Nat) (scope : Scope α) : Prop :=
  ∀ name, store.function? scope.root name = store.function? root name

omit [Arithmetic α] in
theorem Finds.callee (hscope : Finds store root scope) (huniform : store.Uniform root)
    {name : String} {params : List String} {body : Operand α} {captured : Option (Scope α)}
    (hf : store.function? root name = some (.custom params body captured)) (values : List α) :
    Finds store root (calleeScope params captured values scope) := by
  cases captured with
  | none => exact hscope
  | some closure => exact huniform name params body closure hf

mutual

-- No call is skipped: if an operand has a value, all its calls have one.
theorem exists_apply_of_evaluate : (t : Operand α) → {value : α} →
    evaluate store limit scope t = .ok value → ∀ name ∈ t.calls,
      ∃ f values result, store.function? scope.root name = some f ∧
        apply store limit name f values scope = .ok result
  | .number _, _, _ => by simp [Operand.calls]
  | .symbol _, _, _ => by simp [Operand.calls]
  | .term operation lhs rhs, value, h => by
    rw [evaluate_term] at h
    obtain ⟨l, hl, h⟩ := bind_eq_ok.mp h
    obtain ⟨r, hr, -⟩ := bind_eq_ok.mp h
    intro name hname
    rcases List.mem_append.mp hname with hname | hname
    · exact exists_apply_of_evaluate lhs hl name hname
    · exact exists_apply_of_evaluate rhs hr name hname
  | .call name args, value, h => by
    rw [evaluate_call] at h
    cases hf : store.function? scope.root name with
    | none =>
      rw [hf] at h
      cases h
    | some f =>
      rw [hf] at h
      obtain ⟨_, -, h⟩ := bind_eq_ok.mp h
      obtain ⟨values, hvalues, h⟩ := bind_eq_ok.mp h
      intro n hn
      rcases List.mem_cons.mp hn with rfl | hn
      · exact ⟨f, values, value, hf, h⟩
      · exact exists_apply_of_evaluateAll args hvalues n hn

theorem exists_apply_of_evaluateAll : (args : List (Operand α)) → {values : List α} →
    evaluateAll store limit scope args = .ok values → ∀ name ∈ Operand.callsOfAll args,
      ∃ f values result, store.function? scope.root name = some f ∧
        apply store limit name f values scope = .ok result
  | [], _, _ => by simp [Operand.callsOfAll]
  | arg :: args, _, h => by
    rw [evaluateAll_cons] at h
    obtain ⟨value, hvalue, h⟩ := bind_eq_ok.mp h
    obtain ⟨values, hvalues, -⟩ := bind_eq_ok.mp h
    intro name hname
    rcases List.mem_append.mp hname with hname | hname
    · exact exists_apply_of_evaluate arg hvalue name hname
    · exact exists_apply_of_evaluateAll args hvalues name hname

end

-- Induction on how deeply calls may nest: the body goes on round the circle with one level less.
theorem apply_ne_ok_of_circular (huniform : store.Uniform root) {name : String} {f : Function α}
    (hf : store.function? root name = some f) (hcircular : store.Circular root name)
    (values : List α) (hscope : Finds store root scope) (result : α) :
    apply store limit name f values scope ≠ .ok result := by
  induction limit generalizing name f values scope result with
  | zero =>
    obtain ⟨g, ⟨params, body, captured, hcustom, -⟩, -⟩ := hcircular.exists_calls
    obtain rfl := Option.some.inj (hf.symm.trans hcustom)
    rw [apply_zero]
    intro h
    obtain ⟨_, -, h⟩ := bind_eq_ok.mp h
    cases h
  | succ limit ih =>
    obtain ⟨g, ⟨params, body, captured, hcustom, hg⟩, hcircle⟩ := hcircular.exists_calls
    obtain rfl := Option.some.inj (hf.symm.trans hcustom)
    rw [apply_succ]
    intro h
    obtain ⟨_, -, hbody⟩ := bind_eq_ok.mp h
    have hcallee := hscope.callee huniform hf values
    obtain ⟨g', values', result', hg', happly⟩ := exists_apply_of_evaluate body hbody g hg
    rw [hcallee] at hg'
    exact ih hg' hcircle values' hcallee result' happly

-- What calls a function from which calls lead round in a circle has no value.
theorem not_circular_of_evaluate (huniform : store.Uniform root) (hscope : Finds store root scope)
    {t : Operand α} {value : α} (h : evaluate store limit scope t = .ok value) :
    ∀ name ∈ t.calls, ¬store.Circular root name := by
  intro name hname hcircular
  obtain ⟨f, values, result, hf, happly⟩ := exists_apply_of_evaluate t h name hname
  rw [hscope] at hf
  exact apply_ne_ok_of_circular huniform hf hcircular values hscope result happly

omit [Arithmetic α] in
theorem checkCount_ne_runaway (name : String) (f : Function α) (count : Nat) :
    checkCount name f count ≠ .error .runaway := by
  rw [checkCount]
  split <;> simp

theorem apply_builtin_ne_runaway (name : String) (b : Builtin) (values : List α)
    (caller : Scope α) : apply store limit name (.builtin b) values caller ≠ .error .runaway := by
  rw [apply_builtin, Ne, bind_eq_error]
  rintro (hcount | ⟨_, -, h⟩)
  · exact checkCount_ne_runaway _ _ _ hcount
  · cases values <;> cases h

mutual

-- An evaluation is cut off in one of its calls.
theorem evaluate_ne_runaway : (t : Operand α) →
    (∀ name ∈ t.calls, ∀ f values, store.function? scope.root name = some f →
      apply store limit name f values scope ≠ .error .runaway) →
    evaluate store limit scope t ≠ .error .runaway
  | .number _, _ => by simp [evaluate_number]
  | .symbol name, _ => by
    rw [evaluate_symbol]
    cases store.get? scope name <;> simp
  | .term operation lhs rhs, hcalls => by
    simp only [Operand.calls, List.mem_append, or_imp, forall_and] at hcalls
    rw [evaluate_term, Ne, bind_eq_error]
    rintro (hl | ⟨l, -, h⟩)
    · exact evaluate_ne_runaway lhs hcalls.1 hl
    · rcases bind_eq_error.mp h with hr | ⟨r, -, h⟩
      · exact evaluate_ne_runaway rhs hcalls.2 hr
      · cases h
  | .call name args, hcalls => by
    obtain ⟨hname, hargs⟩ := List.forall_mem_cons.mp hcalls
    rw [evaluate_call]
    cases hf : store.function? scope.root name with
    | none => simp
    | some f =>
      rw [Ne, bind_eq_error]
      rintro (hcount | ⟨_, -, h⟩)
      · exact checkCount_ne_runaway _ _ _ hcount
      · rcases bind_eq_error.mp h with hvalues | ⟨values, -, h⟩
        · exact evaluateAll_ne_runaway args hargs hvalues
        · exact hname f values hf h

theorem evaluateAll_ne_runaway : (args : List (Operand α)) →
    (∀ name ∈ Operand.callsOfAll args, ∀ f values, store.function? scope.root name = some f →
      apply store limit name f values scope ≠ .error .runaway) →
    evaluateAll store limit scope args ≠ .error .runaway
  | [], _ => by simp [evaluateAll, arguments]
  | arg :: args, hcalls => by
    simp only [Operand.callsOfAll, List.mem_append, or_imp, forall_and] at hcalls
    rw [evaluateAll_cons, Ne, bind_eq_error]
    rintro (hvalue | ⟨value, -, h⟩)
    · exact evaluate_ne_runaway arg hcalls.1 hvalue
    · rcases bind_eq_error.mp h with hvalues | ⟨values, -, h⟩
      · exact evaluateAll_ne_runaway args hcalls.2 hvalues
      · cases h

end

-- Induction on how deeply calls may nest: each call has fewer functions before it than the one it
-- is made in.
theorem apply_ne_runaway (huniform : store.Uniform root) {name : String} {f : Function α}
    (hf : store.function? root name = some f) (hcircular : ¬store.Circular root name)
    (hlimit : f.isCustom = true → (store.descendants root name).card < limit)
    (values : List α) (hscope : Finds store root scope) :
    apply store limit name f values scope ≠ .error .runaway := by
  induction limit generalizing name f values scope with
  | zero =>
    cases f with
    | builtin b => exact apply_builtin_ne_runaway name b values scope
    | custom params body captured => exact absurd (hlimit rfl) (Nat.not_lt_zero _)
  | succ limit ih =>
    cases f with
    | builtin b => exact apply_builtin_ne_runaway name b values scope
    | custom params body captured =>
      rw [apply_succ, Ne, bind_eq_error]
      rintro (hcount | ⟨_, -, hbody⟩)
      · exact checkCount_ne_runaway _ _ _ hcount
      · have hcallee := hscope.callee huniform hf values
        refine evaluate_ne_runaway body (fun g hg f' values' hf' => ?_) hbody
        rw [hcallee] at hf'
        have hcalls : store.Calls root name g := ⟨params, body, captured, hf, hg⟩
        have hg' : ¬store.Circular root g := fun h => hcircular (h.of_calls hcalls)
        refine ih hf' hg' (fun hcustom => ?_) values' hcallee
        have hless := Store.card_descendants_lt hcalls hg' (Store.mem_defined hf' hcustom)
        have hname := hlimit rfl
        omega

-- Where no circle is entered, calls nest at most as deeply as there are functions with bodies.
theorem evaluate_ne_runaway_of_not_circular (huniform : store.Uniform root)
    (hscope : Finds store root scope) {t : Operand α}
    (h : ∀ name ∈ t.calls, ¬store.Circular root name)
    (hlimit : (store.defined root).length ≤ limit) :
    evaluate store limit scope t ≠ .error .runaway := by
  refine evaluate_ne_runaway t fun name hname f values hf => ?_
  rw [hscope] at hf
  refine apply_ne_runaway huniform hf (h name hname) (fun hcustom => ?_) values hscope
  have hless := Store.card_descendants_lt_length (h name hname) (Store.mem_defined hf hcustom)
  omega

end Evaluation

end Reckon
