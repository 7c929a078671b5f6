import Reckon.Proofs.Session.Capture
import Reckon.Proofs.Session.Regular

namespace Reckon.Session

open Evaluation

-- An environment that finds the functions of a session, with all that their closures hold.
structure Shares (s : Session Float) (store : Store Float) (root : Nat) : Prop where
  function? : ∀ name, store.function? root name = s.store.function? s.root name
  closures : ∀ name params body closure,
    s.store.function? s.root name = some (.custom params body (some closure)) →
      (∀ n, store.function? closure.root n = s.store.function? closure.root n) ∧
      ∀ n, store.binding? closure.root n = s.store.binding? closure.root n

variable {s s' : Session Float} {store store' : Store Float} {root root' : Nat}

theorem shares_self (s : Session Float) : s.Shares s.store s.root :=
  ⟨fun _ => rfl, fun _ _ _ _ _ => ⟨fun _ => rfl, fun _ => rfl⟩⟩

-- An assignment reaches the variables of the session and no closure.
theorem Assigned.shares {target : String} {value : Float} (h : s.Assigned target value s')
    (hs : s.Separate) : s.Shares s'.store s'.root where
  function? := fun name => by rw [h.root, h.function?]
  closures := fun name params body closure hf => by
    obtain ⟨closure', hclosure, hne⟩ := hs s.root name params body (some closure) hf
    obtain rfl := Option.some.inj hclosure
    exact ⟨h.function? closure.root, fun n => by rw [h.binding?, if_neg fun he => hne he.1]⟩

-- The roots that the closures of a session's own functions lie over.
def ClosureRoot (s : Session Float) (i : Nat) : Prop :=
  ∃ name params body closure,
    s.store.function? s.root name = some (.custom params body (some closure)) ∧ closure.root = i

-- A closure finds the functions of the session and no others, so that no call leads further.
theorem Shares.sameOn (h : s.Shares store root) (hs : s.Regular) :
    SameOn s.ClosureRoot s.store store where
  function? := by
    rintro _ ⟨name, params, body, closure, hf, rfl⟩
    exact (h.closures name params body closure hf).1
  binding? := by
    rintro _ ⟨name, params, body, closure, hf, rfl⟩
    exact (h.closures name params body closure hf).2
  closed := by
    rintro _ ⟨key, ps, b, outer, hkey, rfl⟩ name params body closure hf
    obtain ⟨-, -, i, hi, houter⟩ := hs.functions key _ hkey
    obtain rfl := Option.some.inj houter
    have hsession : s.store.function? s.root name = some (.custom params body (some closure)) :=
      (hs.function?_eq hi name).symm.trans hf
    exact ⟨name, params, body, closure, hsession, rfl⟩

-- What a function of the session gives is settled by its closure, whoever calls it.
theorem Shares.apply_eq (h : s.Shares store root) (hs : s.Regular) (limit : Nat) {key : String}
    {f : Function Float} (hf : s.store.function? s.root key = some f) (name : String)
    (values : List Float) (caller : Scope Float) :
    apply store limit name f values caller = apply s.store limit name f values s.scope := by
  cases f with
  | builtin b => rw [apply_builtin, apply_builtin]
  | custom params body captured =>
    obtain ⟨-, -, i, -, rfl⟩ := hs.functions key _ hf
    have hruns : RunsOn s.ClosureRoot (.custom params body (some (.ofRoot i))) s.scope := by
      rintro _ _ _ hcustom
      injection hcustom with _ _ hcaptured
      exact ⟨key, params, body, .ofRoot i, hf, by rw [← hcaptured]; rfl⟩
    rw [apply_some limit name params body _ values s.scope caller]
    exact (h.sameOn hs).apply_eq limit name values hruns

theorem Shares.sameCalls (h : s.Shares store root) (h' : s.Shares store' root') (hs : s.Regular)
    (limit : Nat) : SameCalls limit store store' (.ofRoot root) (.ofRoot root') := by
  refine ⟨fun name => (h'.function? name).trans (h.function? name).symm, ?_⟩
  intro name f values hf
  have hsession : s.store.function? s.root name = some f := (h.function? name).symm.trans hf
  rw [h.apply_eq hs limit hsession, h'.apply_eq hs limit hsession]

-- Whatever the session, an equation is solved for `x` in the same way, or fails in the same way or
-- runs away, in any two environments that share its functions and agree on all variables but `x`,
-- provided that `x` is not written in an argument. Whether a variable is a constant is not asked.
theorem solveFor_replay_unknown (limits : Nat → Nat) (lines : List String)
    (h : (fresh.replay limits lines).Shares store root)
    (h' : (fresh.replay limits lines).Shares store' root')
    {lhs rhs : Operand Float} {x : String} (hx : ∀ t ∈ [lhs, rhs], x ∉ t.argumentSymbols)
    (hvalues : ∀ name, name ≠ x → (store'.binding? root' name).map Variable.value =
      (store.binding? root name).map Variable.value) (limit : Nat) :
    solveFor store' limit (.ofRoot root') lhs rhs x =
      solveFor store limit (.ofRoot root) lhs rhs x := by
  have hs : (fresh.replay limits lines).Regular := regular_replay limits lines
  have hget : ∀ name, name ≠ x →
      store'.get? (.ofRoot root') name = store.get? (.ofRoot root) name := hvalues
  apply solveFor_congr (h.sameCalls h' hs limit)
  · exact fun t _ name _ hne => hget name hne
  · rintro t ht name hname
    exact hget name fun he => hx t ht (he ▸ hname)

-- A line that assigns to a variable leaves the functions and all other variables.
theorem shares_execute_assignment (hvalid : s.Valid) (hs : s.Separate) {line target : String}
    {t : Operand Float} (hparse : Statement.parse line.toList = .ok (.assignment target t))
    (limit : Nat) {s' : Session Float} (h : (s.execute limit line).session = s') :
    s.Shares s'.store s'.root ∧
      ∀ name, name ≠ target → (s'.store.binding? s'.root name).map Variable.value =
        (s.store.binding? s.root name).map Variable.value := by
  subst h
  rw [session_execute hparse, perform]
  rcases assign_session hvalid limit target t with h | ⟨value, h⟩
  · rw [h]
    exact ⟨shares_self s, fun _ _ => rfl⟩
  · refine ⟨h.shares hs, fun name hne => ?_⟩
    rw [h.root, h.binding?, if_neg fun he => hne he.2]

-- The closure of `f` keeps the old value of the unknown, and the variables of the session hold
-- another one later.
theorem solveFor_replay_unknown_assigned :
    ∃ s s' : Session Float, s = fresh.replay (fun _ => 9) ["x := e", "f(y) := y * x"] ∧
      (s.execute 9 "x := pi").session = s' ∧
      solveFor s'.store 9 (.ofRoot s'.root) (.term .sub (.symbol "x") (.number 1.0))
          (.call "f" [.number 2.0]) "x" =
        solveFor s.store 9 (.ofRoot s.root) (.term .sub (.symbol "x") (.number 1.0))
          (.call "f" [.number 2.0]) "x" := by
  have hparse : Statement.parse "x := pi".toList = .ok (.assignment "x" (.symbol "pi")) := by cbv
  obtain ⟨hvalid, hseparate⟩ := separate_replay (fun _ => 9) ["x := e", "f(y) := y * x"]
  obtain ⟨hshares, hvalues⟩ := shares_execute_assignment hvalid hseparate hparse 9 rfl
  refine ⟨_, _, rfl, rfl, solveFor_replay_unknown (fun _ => 9) ["x := e", "f(y) := y * x"]
    (shares_self _) hshares ?_ hvalues 9⟩
  simp [Operand.argumentSymbols, Operand.symbolsOfAll, Operand.symbols]

end Reckon.Session
