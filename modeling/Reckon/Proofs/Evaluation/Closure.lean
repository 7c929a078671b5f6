import Reckon.Proofs.Evaluation
import Reckon.Proofs.Store

namespace Reckon.Evaluation

variable {α : Type} {store store' : Store α}

-- All functions carry closures, and nothing in them tells the two stores apart.
structure SameClosures (store store' : Store α) : Prop where
  function? : ∀ root name, store'.function? root name = store.function? root name
  captured : ∀ root name params body captured,
    store.function? root name = some (.custom params body captured) →
      ∃ closure, captured = some closure ∧
        ∀ n, store'.binding? closure.root n = store.binding? closure.root n

-- What is changed in a root that no closure lies over is not seen in any closure.
theorem sameClosures_of_separate {root : Nat} (hs : store.Separate root)
    (hfunction : ∀ i n, store'.function? i n = store.function? i n)
    (hbinding : ∀ i n, i ≠ root → store'.binding? i n = store.binding? i n) :
    SameClosures store store' where
  function? := hfunction
  captured := by
    intro i name params body captured hf
    obtain ⟨closure, hclosure, hne⟩ := hs i name params body captured hf
    exact ⟨closure, hclosure, fun n => hbinding closure.root n hne⟩

theorem get?_congr (scope : Scope α)
    (h : ∀ n, store'.binding? scope.root n = store.binding? scope.root n) (name : String) :
    store'.get? scope name = store.get? scope name := by
  rw [Store.get?, Store.get?, h]

theorem calleeScope_some (params : List String) (closure : Scope α) (values : List α)
    (caller : Scope α) : calleeScope params (some closure) values caller =
      closure.push (.ofList (params.zip values)) := rfl

variable [Arithmetic α]

theorem apply_builtin (limit : Nat) (name : String) (b : Builtin) (values : List α)
    (caller : Scope α) :
    apply store limit name (.builtin b) values caller =
      checkCount name (.builtin b : Function α) values.length >>= fun _ =>
        match values with
        | value :: _ => .ok (Arithmetic.apply b value)
        | [] => .error (.fault (.wrongCount name 1 0)) := by
  rw [apply.eq_def]
  cases values <;> rfl

theorem apply_zero (name : String) (params : List String) (body : Operand α)
    (captured : Option (Scope α)) (values : List α) (caller : Scope α) :
    apply store 0 name (.custom params body captured) values caller =
      checkCount name (.custom params body captured) values.length >>= fun _ =>
        .error .runaway := by
  rw [apply]

theorem apply_succ (limit : Nat) (name : String) (params : List String) (body : Operand α)
    (captured : Option (Scope α)) (values : List α) (caller : Scope α) :
    apply store (limit + 1) name (.custom params body captured) values caller =
      checkCount name (.custom params body captured) values.length >>= fun _ =>
        evaluate store limit (calleeScope params captured values caller) body := by
  rw [apply]
  rfl

-- A call sees the root of the scope it is made in and none of its frames.
theorem apply_caller (limit : Nat) (name : String) (f : Function α) (values : List α)
    {caller caller' : Scope α} (hroot : caller'.root = caller.root) :
    apply store limit name f values caller' = apply store limit name f values caller := by
  have htop : caller'.topLevel = caller.topLevel := by rw [Scope.topLevel, Scope.topLevel, hroot]
  cases f with
  | builtin b => rw [apply_builtin, apply_builtin]
  | custom params body captured =>
    cases limit with
    | zero => rfl
    | succ limit => rw [apply_succ, apply_succ, calleeScope, calleeScope, htop]

theorem sameCalls_of_root {limit : Nat} {scope scope' : Scope α}
    (hroot : scope'.root = scope.root) : SameCalls limit store store scope scope' :=
  ⟨fun name => by rw [hroot], fun name f values _ => apply_caller limit name f values hroot⟩

-- The roots in `P` hold the same in two stores, and no closure leads out of them.
structure SameOn (P : Nat → Prop) (store store' : Store α) : Prop where
  function? : ∀ root, P root → ∀ name, store'.function? root name = store.function? root name
  binding? : ∀ root, P root → ∀ n, store'.binding? root n = store.binding? root n
  closed : ∀ root, P root → ∀ name params body closure,
    store.function? root name = some (.custom params body (some closure)) → P closure.root

-- The root that the body of a function is evaluated over is in `P`.
def RunsOn (P : Nat → Prop) (f : Function α) (caller : Scope α) : Prop :=
  ∀ params body captured, f = .custom params body captured → P (captured.getD caller.topLevel).root

omit [Arithmetic α] in
theorem SameOn.runsOn {P : Nat → Prop} (h : SameOn P store store') {scope : Scope α}
    (hscope : P scope.root) {name : String} {f : Function α}
    (hf : store.function? scope.root name = some f) : RunsOn P f scope := by
  rintro params body captured rfl
  cases captured with
  | none => exact hscope
  | some closure => exact h.closed _ hscope name params body closure hf

-- Induction on how deeply calls may nest: the body of a function is evaluated over a root in `P`,
-- where the symbols are the same by assumption and the calls by induction.
theorem SameOn.apply_eq {P : Nat → Prop} (h : SameOn P store store') (limit : Nat) (name : String)
    {f : Function α} (values : List α) {caller : Scope α} (hf : RunsOn P f caller) :
    apply store' limit name f values caller = apply store limit name f values caller := by
  induction limit generalizing name f values caller with
  | zero =>
    cases f with
    | builtin b => rw [apply_builtin, apply_builtin]
    | custom params body captured => rw [apply_zero, apply_zero]
  | succ limit ih =>
    cases f with
    | builtin b => rw [apply_builtin, apply_builtin]
    | custom params body captured =>
      let callee := calleeScope params captured values caller
      have hcallee : P callee.root := hf params body captured rfl
      have hcalls : SameCalls limit store store' callee callee :=
        ⟨h.function? _ hcallee, fun name f values hf' => ih name values (h.runsOn hcallee hf')⟩
      have hbody : evaluate store' limit callee body = evaluate store limit callee body :=
        evaluate_congr hcalls body fun name _ => get?_congr callee (h.binding? _ hcallee) name
      rw [apply_succ, apply_succ, hbody]

-- A call of a function with a closure sees nothing of the scope it is made in.
theorem apply_some (limit : Nat) (name : String) (params : List String) (body : Operand α)
    (closure : Scope α) (values : List α) (caller caller' : Scope α) :
    apply store limit name (.custom params body (some closure)) values caller' =
      apply store limit name (.custom params body (some closure)) values caller := by
  cases limit with
  | zero => rfl
  | succ limit => rw [apply_succ, apply_succ, calleeScope_some, calleeScope_some]

-- The roots that closures lie over.
def ClosureRoot (store : Store α) (i : Nat) : Prop :=
  ∃ root name params body closure,
    store.function? root name = some (.custom params body (some closure)) ∧ closure.root = i

omit [Arithmetic α] in
theorem SameClosures.sameOn (h : SameClosures store store') :
    SameOn (ClosureRoot store) store store' where
  function? := fun root _ => h.function? root
  binding? := by
    rintro _ ⟨root, name, params, body, closure, hf, rfl⟩
    obtain ⟨closure', hclosure, hbinding⟩ := h.captured root name params body _ hf
    rw [Option.some.inj hclosure]
    exact hbinding
  closed := fun root _ name params body closure hf => ⟨root, name, params, body, closure, hf, rfl⟩

theorem SameClosures.apply_eq (h : SameClosures store store') (limit : Nat) :
    ∀ root key f, store.function? root key = some f → ∀ name values caller caller',
      apply store' limit name f values caller' = apply store limit name f values caller := by
  intro root key f hf name values caller caller'
  cases f with
  | builtin b => rw [apply_builtin, apply_builtin]
  | custom params body captured =>
    obtain ⟨closure, rfl, -⟩ := h.captured root key params body captured hf
    rw [apply_some limit name params body closure values caller caller']
    refine h.sameOn.apply_eq limit name values ?_
    rintro _ _ _ hcustom
    injection hcustom with _ _ hcaptured
    exact ⟨root, key, params, body, closure, hf, by rw [← hcaptured]; rfl⟩

theorem SameClosures.sameCalls (h : SameClosures store store') (limit : Nat)
    {scope scope' : Scope α} (hroot : scope'.root = scope.root) :
    SameCalls limit store store' scope scope' :=
  ⟨fun name => by rw [hroot, h.function?], fun name f values hf =>
    h.apply_eq limit _ _ f hf name values scope scope'⟩

end Reckon.Evaluation
