import Reckon.Plot.Graph
import Reckon.Proofs.Evaluation.Bound

namespace Reckon

variable {α β : Type}

namespace Operand

mutual

-- What is left of an operand without its numbers.
def shape : Operand α → Operand Unit
  | number _ => .number ()
  | symbol name => .symbol name
  | term operation lhs rhs => .term operation lhs.shape rhs.shape
  | call name args => .call name (shapes args)

def shapes : List (Operand α) → List (Operand Unit)
  | [] => []
  | arg :: args => arg.shape :: shapes args

end

theorem length_shapes (args : List (Operand α)) : (shapes args).length = args.length := by
  induction args with
  | nil => rfl
  | cons arg args ih => rw [shapes, List.length_cons, ih, List.length_cons]

theorem shape_eq_number {u : Operand α} : u.shape = .number () ↔ ∃ value, u = .number value := by
  cases u <;> simp [shape]

theorem shape_eq_symbol {u : Operand α} {name : String} :
    u.shape = .symbol name ↔ u = .symbol name := by
  cases u <;> simp [shape]

theorem shape_eq_term {u : Operand α} {operation : Operation} {l r : Operand Unit} :
    u.shape = .term operation l r ↔
      ∃ lhs rhs, u = .term operation lhs rhs ∧ lhs.shape = l ∧ rhs.shape = r := by
  cases u <;> simp [shape]

theorem shape_eq_call {u : Operand α} {name : String} {as : List (Operand Unit)} :
    u.shape = .call name as ↔ ∃ args, u = .call name args ∧ shapes args = as := by
  cases u <;> simp [shape]

theorem shapes_eq_nil {us : List (Operand α)} : shapes us = [] ↔ us = [] := by
  cases us <;> simp [shapes]

theorem shapes_eq_cons {us : List (Operand α)} {a : Operand Unit} {as : List (Operand Unit)} :
    shapes us = a :: as ↔ ∃ arg args, us = arg :: args ∧ arg.shape = a ∧ shapes args = as := by
  cases us <;> simp [shapes]

end Operand

-- Scopes that bind the same names over roots that are alike.
structure Scope.Alike (rel : Nat → Nat → Prop) (scope : Scope α) (scope' : Scope β) : Prop where
  root : rel scope.root scope'.root
  local? : ∀ name, (scope'.local? name).isSome = (scope.local? name).isSome

-- Functions that differ in the numbers of their bodies and in what their closures hold.
inductive Function.Alike (rel : Nat → Nat → Prop) : Function α → Function β → Prop where
  | builtin (b : Builtin) : Alike rel (.builtin b) (.builtin b)
  | custom (params : List String) {body : Operand α} {body' : Operand β}
    {captured : Option (Scope α)} {captured' : Option (Scope β)} (hbody : body'.shape = body.shape)
    (hcaptured : Option.Rel (Scope.Alike rel) captured captured') :
    Alike rel (.custom params body captured) (.custom params body' captured')

-- Stores whose roots bind the same names and find functions that are alike, where `rel` tells
-- which roots belong together.
structure Store.Alike (rel : Nat → Nat → Prop) (store : Store α) (store' : Store β) : Prop where
  binding? : ∀ i j, rel i j → ∀ name,
    (store'.binding? j name).isSome = (store.binding? i name).isSome
  function? : ∀ i j, rel i j → ∀ name,
    Option.Rel (Function.Alike rel) (store.function? i name) (store'.function? j name)

variable {rel : Nat → Nat → Prop} {store : Store α} {store' : Store β}

theorem Function.Alike.arity_eq {f : Function α} {f' : Function β} (h : f.Alike rel f') :
    f'.arity = f.arity := by
  cases h <;> rfl

namespace Scope

variable {scope : Scope α} {scope' : Scope β}

theorem Alike.topLevel (h : scope.Alike rel scope') : scope.topLevel.Alike rel scope'.topLevel :=
  ⟨h.root, fun _ => rfl⟩

theorem Alike.get? (h : scope.Alike rel scope') (hstores : store.Alike rel store')
    (name : String) : (store'.get? scope' name).isSome = (store.get? scope name).isSome := by
  simp [Store.get?, h.local?, hstores.binding? _ _ h.root]

theorem Alike.push (h : scope.Alike rel scope') {frame : Bindings α} {frame' : Bindings β}
    (hframe : ∀ name, (frame'.get? name).isSome = (frame.get? name).isSome) :
    (scope.push frame).Alike rel (scope'.push frame') where
  root := h.root
  local? := fun name => by
    have hname := hframe name
    have hlocal := h.local? name
    simp only [Scope.local?, Scope.push, List.findSome?_cons] at hlocal ⊢
    cases hv : frame.get? name <;> cases hv' : frame'.get? name <;> simp_all

-- The scopes in which two bodies are evaluated.
theorem Alike.callee (h : scope.Alike rel scope') {params : List String}
    {captured : Option (Scope α)} {captured' : Option (Scope β)}
    (hcaptured : Option.Rel (Scope.Alike rel) captured captured') {values : List α}
    {values' : List β} (hcount : params.length = values.length)
    (hcount' : params.length = values'.length) :
    (Evaluation.calleeScope params captured values scope).Alike rel
      (Evaluation.calleeScope params captured' values' scope') := by
  have hparent : (captured.getD scope.topLevel).Alike rel (captured'.getD scope'.topLevel) := by
    cases hcaptured with
    | some hclosure => exact hclosure
    | none => exact h.topLevel
  refine hparent.push fun name => ?_
  rw [Bool.eq_iff_iff, Bindings.isSome_get?_ofList, Bindings.isSome_get?_ofList,
    List.map_fst_zip (Nat.le_of_eq hcount), List.map_fst_zip (Nat.le_of_eq hcount')]

end Scope

namespace Evaluation

-- Both evaluations have a value, or both end in the same way without one.
abbrev SameEnd : Result α → Result β → Prop := SameOutcome fun _ _ => True

theorem sameOutcome_checkCount {f : Function α} {f' : Function β} (h : f.Alike rel f')
    (name : String) (count : Nat) : SameOutcome (fun _ _ => f.arity = count)
      (checkCount name f count) (checkCount name f' count) := by
  rw [checkCount, checkCount, h.arity_eq]
  split
  · exact .ok ‹_›
  · exact .error _

variable [Arithmetic α] [Arithmetic β] {limit : Nat} {scope : Scope α} {scope' : Scope β}

-- Calls of functions that are alike end in the same way.
def CallsAlike (rel : Nat → Nat → Prop) (store : Store α) (store' : Store β) (limit : Nat) : Prop :=
  ∀ name (f : Function α) (f' : Function β) (values : List α) (values' : List β) (caller : Scope α)
    (caller' : Scope β), f.Alike rel f' → values'.length = values.length →
      caller.Alike rel caller' →
        SameEnd (apply store limit name f values caller)
          (apply store' limit name f' values' caller')

mutual

-- No case looks at a value: a symbol is asked for whether it is bound, and an operation has a value
-- for all operands.
theorem evaluate_alike (hcalls : CallsAlike rel store store' limit)
    (hstores : store.Alike rel store') (hscopes : scope.Alike rel scope') :
    (t : Operand α) → (u : Operand β) → u.shape = t.shape →
      SameEnd (evaluate store limit scope t) (evaluate store' limit scope' u)
  | .number value, u, h => by
    obtain ⟨value', rfl⟩ := Operand.shape_eq_number.mp h
    exact .ok trivial
  | .symbol name, u, h => by
    obtain rfl := Operand.shape_eq_symbol.mp h
    have hget := hscopes.get? hstores name
    rw [evaluate_symbol, evaluate_symbol]
    cases hv : store.get? scope name <;> cases hv' : store'.get? scope' name
    · exact .error _
    · simp [hv, hv'] at hget
    · simp [hv, hv'] at hget
    · exact .ok trivial
  | .term operation lhs rhs, u, h => by
    obtain ⟨lhs', rhs', rfl, hlhs, hrhs⟩ := Operand.shape_eq_term.mp h
    rw [evaluate_term, evaluate_term]
    refine (evaluate_alike hcalls hstores hscopes lhs lhs' hlhs).bind fun _ _ _ => ?_
    exact (evaluate_alike hcalls hstores hscopes rhs rhs' hrhs).bind fun _ _ _ => .ok trivial
  | .call name args, u, h => by
    obtain ⟨args', rfl, hargs⟩ := Operand.shape_eq_call.mp h
    have hlength : args'.length = args.length := by
      rw [← Operand.length_shapes, hargs, Operand.length_shapes]
    rw [evaluate_call, evaluate_call]
    have hfunction := hstores.function? _ _ hscopes.root name
    generalize store.function? scope.root name = f, store'.function? scope'.root name = f' at *
    cases hfunction with
    | none => exact .error _
    | some hf =>
      rw [hlength]
      refine (sameOutcome_checkCount hf name args.length).bind fun _ _ _ => ?_
      refine (evaluateAll_alike hcalls hstores hscopes args args' hargs).bind
        fun values values' hvalues => ?_
      exact hcalls name _ _ values values' _ _ hf hvalues hscopes

theorem evaluateAll_alike (hcalls : CallsAlike rel store store' limit)
    (hstores : store.Alike rel store') (hscopes : scope.Alike rel scope') :
    (args : List (Operand α)) → (args' : List (Operand β)) →
    Operand.shapes args' = Operand.shapes args →
      SameOutcome (fun values values' => values'.length = values.length)
        (evaluateAll store limit scope args) (evaluateAll store' limit scope' args')
  | [], us, h => by
    obtain rfl := Operand.shapes_eq_nil.mp h
    exact .ok rfl
  | arg :: args, us, h => by
    obtain ⟨arg', args', rfl, harg, hargs⟩ := Operand.shapes_eq_cons.mp h
    rw [evaluateAll_cons, evaluateAll_cons]
    refine (evaluate_alike hcalls hstores hscopes arg arg' harg).bind fun _ _ _ => ?_
    refine (evaluateAll_alike hcalls hstores hscopes args args' hargs).bind fun _ _ hvalues => ?_
    exact .ok (by simp [hvalues])

end

theorem apply_builtin_alike (limit : Nat) (name : String) (b : Builtin) {values : List α}
    {values' : List β} (hvalues : values'.length = values.length) (caller : Scope α)
    (caller' : Scope β) : SameEnd (apply store limit name (.builtin b) values caller)
      (apply store' limit name (.builtin b) values' caller') := by
  have hb : (Function.builtin b : Function α).Alike Eq (.builtin b : Function β) := .builtin b
  rw [apply_builtin, apply_builtin, hvalues]
  refine (sameOutcome_checkCount hb name values.length).bind fun _ _ _ => ?_
  cases values <;> cases values'
  · exact .error _
  · cases hvalues
  · cases hvalues
  · exact .ok trivial

-- Induction on how deeply calls may nest. Bodies that are alike are evaluated in scopes that are
-- alike, as arguments and closures are.
theorem callsAlike (hstores : store.Alike rel store') (limit : Nat) :
    CallsAlike rel store store' limit := by
  induction limit with
  | zero =>
    rintro name f f' values values' caller caller' hf hvalues -
    cases hf with
    | builtin b => exact apply_builtin_alike 0 name b hvalues caller caller'
    | custom params hbody hcaptured =>
      rw [apply_zero, apply_zero, hvalues]
      refine (sameOutcome_checkCount (.custom params hbody hcaptured) name _).bind fun _ _ _ => ?_
      exact .error _
  | succ limit ih =>
    rintro name f f' values values' caller caller' hf hvalues hcallers
    cases hf with
    | builtin b => exact apply_builtin_alike (limit + 1) name b hvalues caller caller'
    | custom params hbody hcaptured =>
      rw [apply_succ, apply_succ, hvalues]
      refine (sameOutcome_checkCount (.custom params hbody hcaptured) name _).bind
        fun _ _ harity => ?_
      exact evaluate_alike ih hstores (hcallers.callee hcaptured harity (harity.trans hvalues.symm))
        _ _ hbody

end Evaluation

theorem Scope.alike_refl (scope : Scope α) : scope.Alike Eq scope := ⟨rfl, fun _ => rfl⟩

theorem Function.alike_refl (f : Function α) : f.Alike Eq f := by
  cases f with
  | builtin b => exact .builtin b
  | custom params body captured =>
    cases captured with
    | none => exact .custom params rfl .none
    | some closure => exact .custom params rfl (.some closure.alike_refl)

theorem Store.alike_refl (store : Store α) : store.Alike Eq store where
  binding? := by
    rintro i _ rfl name
    rfl
  function? := by
    rintro i _ rfl name
    cases store.function? i name with
    | none => exact .none
    | some f => exact .some f.alike_refl

open Evaluation in
-- The value of a graph at one place tells whether it has values at all.
theorem Graph.value?_eq_none [Arithmetic α] (g : Graph α) (store : Store α) (limit : Nat)
    {x : α} (hx : g.value? store limit x = .ok none) (y : α) :
    g.value? store limit y = .ok none := by
  have hsame := callsAlike store.alike_refl limit g.name _ _ [x] [y] _ _ g.function.alike_refl rfl
    (Scope.ofRoot g.root).alike_refl
  unfold Graph.value? at hx ⊢
  generalize apply store limit g.name g.function [x] (.ofRoot g.root) = atX at *
  generalize apply store limit g.name g.function [y] (.ofRoot g.root) = atY at *
  cases hsame with
  | ok _ => simp at hx
  | error halt => exact hx

open Evaluation in
-- The numbers in operands, variables, bodies and closures do not decide whether an operand has a
-- value, nor which error it ends in. So a graph has gaps everywhere or nowhere.
theorem evaluate_shape [Arithmetic α] [Arithmetic β] (hstores : store.Alike rel store')
    (limit : Nat) {scope : Scope α} {scope' : Scope β} (hscopes : scope.Alike rel scope')
    {t : Operand α} {u : Operand β} (hshape : u.shape = t.shape) :
    ((∃ value value', evaluate store limit scope t = .ok value ∧
        evaluate store' limit scope' u = .ok value') ∨
      ∃ halt, evaluate store limit scope t = .error halt ∧
        evaluate store' limit scope' u = .error halt) ∧
    ∀ g : Graph α, (∀ x, g.value? store limit x = .ok none) ∨
      ∀ x, g.value? store limit x ≠ .ok none := by
  constructor
  · have hsame := evaluate_alike (callsAlike hstores limit) hstores hscopes t u hshape
    generalize evaluate store limit scope t = value, evaluate store' limit scope' u = value' at *
    cases hsame with
    | ok _ => exact .inl ⟨_, _, rfl, rfl⟩
    | error halt => exact .inr ⟨halt, rfl, rfl⟩
  · intro g
    by_cases h : ∃ x, g.value? store limit x = .ok none
    · obtain ⟨x, hx⟩ := h
      exact .inl (g.value?_eq_none store limit hx)
    · exact .inr fun x hx => h ⟨x, hx⟩

-- An environment in which `f` divides by `a`.
def divided (a : Float) : Store Float where
  roots := [⟨.ofList [("a", ⟨a, false⟩)], 0⟩]
  tables := [.ofList [("f",
    .custom ["x"] (.term .div (.symbol "x") (.number a)) (some (.ofRoot 0)))]]

theorem divided_alike (a b : Float) : (divided a).Alike Eq (divided b) where
  binding? := by
    rintro i _ rfl name
    cases i with
    | zero => by_cases h : "a" = name <;> simp [divided, Store.binding?, Bindings.ofList, h]
    | succ i => rfl
  function? := by
    have hzero : ∀ (c : Float) name, (divided c).function? 0 name = if "f" = name then
        some (.custom ["x"] (.term .div (.symbol "x") (.number c)) (some (.ofRoot 0)))
        else none := fun c name => by
      simp [divided, Store.function?, Store.table?, Bindings.ofList]
    rintro i _ rfl name
    cases i with
    | zero =>
      rw [hzero, hzero]
      split
      · exact .some (.custom ["x"] rfl (.some (Scope.alike_refl _)))
      · exact .none
    | succ i => exact .none

-- A quotient by zero is a value as well.
theorem evaluate_shape_divided :
    (divided 2).Alike Eq (divided 0) ∧
    ∃ value value',
      Evaluation.evaluate (divided 2) 1 (.ofRoot 0) (.call "f" [.number 7]) = .ok value ∧
      Evaluation.evaluate (divided 0) 1 (.ofRoot 0) (.call "f" [.number 0]) = .ok value' := by
  refine ⟨divided_alike 2 0, ?_⟩
  obtain ⟨h | ⟨halt, h, -⟩, -⟩ := evaluate_shape (divided_alike 2 0) 1 (Scope.ofRoot 0).alike_refl
    (t := .call "f" [.number 7]) (u := .call "f" [.number 0]) rfl
  · exact h
  · have hvalue : Evaluation.evaluate (divided 2) 1 (.ofRoot 0) (.call "f" [.number 7]) =
        .ok (7 / 2) := rfl
    rw [hvalue] at h
    cases h

end Reckon
