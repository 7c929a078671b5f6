import Reckon.Proofs.Grammar.Soundness
import Reckon.Proofs.Reader.Failure
import Reckon.Proofs.Reader.Place
/-!
How far the reader looks. An operand is read from its own tokens and the next one; a fault is
told on account of what stands before it, the token it is told at and the one behind that. What
stands before it can always be completed, so the token it is told at is the first that is wrong.
-/
namespace Reckon.Reader

open Grammar Token

-- The first `n` tokens agree in kind and text, and in whether a minus touches the number behind
-- it. Where one line ends among them, so does the other.
inductive Agree : Nat → List Token → List Token → Prop
  | unseen {ts us : List Token} : Agree 0 ts us
  | finish {n : Nat} : Agree (n + 1) [] []
  | cons {n : Nat} {t u : Token} {ts us : List Token} : t.kind = u.kind → t.text = u.text →
      (n ≠ 0 → ∀ t' u', ts.head? = some t' → us.head? = some u' → t'.kind = .number →
        (Touches t t' ↔ Touches u u')) →
      Agree n ts us → Agree (n + 1) (t :: ts) (u :: us)

theorem Agree.mono {m n : Nat} {ts us : List Token} (h : Agree n ts us) (hmn : m ≤ n) :
    Agree m ts us := by
  induction h generalizing m with
  | unseen =>
    obtain rfl : m = 0 := by omega
    exact .unseen
  | finish =>
    cases m with
    | zero => exact .unseen
    | succ m => exact .finish
  | cons hkind htext htouch _ ih =>
    cases m with
    | zero => exact .unseen
    | succ m => exact .cons hkind htext (fun hm => htouch (by omega)) (ih (by omega))

-- What agrees still agrees behind a part of it.
theorem Agree.behind {n : Nat} {front ts us : List Token}
    (h : Agree (front.length + n) (front ++ ts) us) : Agree n ts (us.drop front.length) := by
  induction front generalizing us with
  | nil => simpa using h
  | cons t front ih =>
    rw [List.length_cons, Nat.add_right_comm] at h
    cases h with
    | cons _ _ _ h => exact ih h

theorem Agree.exists_cons {n : Nat} {t : Token} {ts us : List Token}
    (h : Agree (n + 1) (t :: ts) us) :
    ∃ u us', us = u :: us' ∧ t.kind = u.kind ∧ t.text = u.text ∧ Agree n ts us' := by
  cases h with
  | cons hkind htext _ h => exact ⟨_, _, rfl, hkind, htext, h⟩

-- A minus that touches its number does so on both lines.
theorem Agree.exists_sign {n : Nat} {minus literal : Token} {rest us : List Token}
    (h : Agree (n + 2) (minus :: literal :: rest) us) (htouches : Touches minus literal)
    (hkind : literal.kind = .number) :
    ∃ u l us', us = u :: l :: us' ∧ Touches u l ∧ l.kind = .number ∧ literal.text = l.text := by
  cases h with
  | @cons _ _ u _ _ _ _ htouch hrest =>
    obtain ⟨l, us, rfl, hlkind, hltext, -⟩ := hrest.exists_cons
    have htouches' : Touches u l := (htouch (by simp) literal l rfl rfl hkind).mp htouches
    exact ⟨u, l, us, rfl, htouches', hlkind ▸ hkind, hltext⟩

theorem Agree.kind_of_head? {n : Nat} {ts us : List Token} (h : Agree (n + 1) ts us)
    {p : TokenKind → Prop} (hp : ∀ t, ts.head? = some t → p t.kind) :
    ∀ u, us.head? = some u → p u.kind := by
  intro u hu
  cases h with
  | finish => cases hu
  | cons hkind =>
    obtain rfl := Option.some.inj hu
    exact hkind ▸ hp _ rfl

theorem Agree.stops {n least : Nat} {ts us : List Token} (h : Agree (n + 1) ts us)
    (hstops : Stops least ts) : Stops least us :=
  h.kind_of_head? (p := fun k => ∀ o, k = .operator o → o.precedence < least) hstops

theorem isSymbol_congr {t u : Token} (hkind : t.kind = u.kind) (htext : t.text = u.text) :
    t.isSymbol = u.isSymbol := by
  rw [isSymbol, isSymbol, hkind, htext]

theorem NoAtom.of_agree {t u : Token} {ts us : List Token} (h : NoAtom t ts)
    (hagree : Agree 2 (t :: ts) (u :: us)) : NoAtom u us := by
  obtain ⟨hnumber, hsymbol, hopening, hminus⟩ := h
  cases hagree with
  | cons hkind htext htouch hrest =>
    refine ⟨hkind ▸ hnumber, isSymbol_congr hkind htext ▸ hsymbol, hkind ▸ hopening, ?_⟩
    intro hsub u' hu' hu'kind hposition
    cases hrest with
    | finish => cases hu'
    | @cons _ t' _ ts' us' hkind' =>
      obtain rfl := Option.some.inj hu'
      have htouches : Touches t t' :=
        (htouch (by decide) t' _ rfl rfl (hkind'.trans hu'kind)).mpr ⟨hsub, hposition⟩
      exact hminus (hkind.trans hsub) t' rfl (hkind'.trans hu'kind) htouches.position

theorem leftover_code {t u : Token} (h : t.kind = u.kind) :
    (leftover u).code = (leftover t).code := by
  simp only [leftover, h]
  split <;> rfl

section Follows

variable {β : Type}

-- The outcomes that a reader may have from some tokens.
abbrev Outcomes (β : Type) := List Token → Except Fault β → Prop

def Runs (read : Step β) : Outcomes (β × List Token) := fun tokens r => r = read tokens

-- What is read is read from its own tokens, and the next one decides that it is complete.
def Followed (outcomes : Outcomes (β × List Token)) (tokens : List Token) (x : β)
    (rest : List Token) : Prop :=
  ∃ before, tokens = before ++ rest ∧
    ∀ us r, Agree (before.length + 1) tokens us → outcomes us r →
      r = .ok (x, us.drop before.length)

def Follows (outcomes : Outcomes (β × List Token)) : Prop :=
  ∀ tokens x rest, outcomes tokens (.ok (x, rest)) → Followed outcomes tokens x rest

end Follows

-- The readers below are given a bound on their rounds that is large enough.

def ArgumentsRun (read : Nat → Step (Operand Float)) :
    Outcomes (List (Operand Float) × List Token) :=
  fun tokens r => ∃ name bound, tokens.length ≤ bound ∧ r = arguments (read 1) name bound tokens

def ChainRun (inner : Inner) (least : Nat) (lhs : Operand Float) :
    Outcomes (Operand Float × List Token) :=
  fun tokens r => ∃ bound, tokens.length ≤ bound ∧ r = chainFrom inner least bound lhs tokens

-- Levels are opened at any token and all read alike, or at none.
inductive Uniform (inner : Inner) (good : (Nat → Step (Operand Float)) → Prop) : Prop
  | opens {read : Nat → Step (Operand Float)} : (∀ t, inner t = .ok read) → good read →
      Uniform inner good
  | refuses {limit : Nat} : (∀ t, inner t = .error (.tooDeep limit (some t))) → Uniform inner good

section Success

variable {read : Nat → Step (Operand Float)} {inner : Inner}

-- What a reader makes of a line, and what it makes of a line that agrees with it far enough.
theorem Follows.of_ok {read : Step (Operand Float)} (h : Follows (Runs read))
    {tokens rest : List Token} {x : Operand Float} (hx : read tokens = .ok (x, rest)) :
    ∃ before, tokens = before ++ rest ∧ ∀ n us, Agree (before.length + (n + 1)) tokens us →
      ∃ rest', read us = .ok (x, rest') ∧ us.drop before.length = rest' ∧
        Agree (n + 1) rest rest' := by
  obtain ⟨before, rfl, hfollows⟩ := h _ _ _ hx.symm
  exact ⟨before, rfl, fun n us hagree =>
    ⟨_, hfollows us _ (hagree.mono (by omega)) rfl, rfl, hagree.behind⟩⟩

theorem tail_of_drop {n : Nat} {t : Token} {ts us : List Token} (h : us.drop n = t :: ts) :
    ts = us.drop (n + 1) := by
  rw [← List.tail_drop, h, List.tail_cons]

theorem length_of_drop {n : Nat} {t : Token} {ts us : List Token} (h : us.drop n = t :: ts) :
    ts.length < us.length := by
  have hlength := congrArg List.length h
  simp only [List.length_drop, List.length_cons] at hlength
  omega

-- An argument can start here.
def StartsArgument (tokens : List Token) : Prop :=
  ∃ t ts, tokens = t :: ts ∧ t.kind ≠ .comma ∧ t.kind ≠ .closing

-- An argument can start on a line that agrees as well, and there is a round left to read it.
theorem ArgumentsRun.of_agree {n : Nat} {tokens us : List Token}
    {r : Except Fault (List (Operand Float) × List Token)} (hstarts : StartsArgument tokens)
    (hagree : Agree (n + 1) tokens us) (hr : ArgumentsRun read us r) :
    StartsArgument us ∧ ∃ name bound, us.length ≤ bound + 1 ∧
      r = arguments (read 1) name (bound + 1) us := by
  obtain ⟨t, ts, rfl, hcomma, hclosing⟩ := hstarts
  obtain ⟨u, us, rfl, hkind, -⟩ := hagree.exists_cons
  obtain ⟨name, bound, hbound, rfl⟩ := hr
  obtain ⟨bound, rfl⟩ : ∃ b, bound = b + 1 := ⟨bound - 1, by simp at hbound; omega⟩
  exact ⟨⟨u, us, rfl, hkind ▸ hcomma, hkind ▸ hclosing⟩, name, bound, hbound, rfl⟩

theorem follows_arguments (hread : Follows (Runs (read 1))) : Follows (ArgumentsRun read) := by
  rintro tokens args rest ⟨name, bound, -, h⟩
  induction bound generalizing tokens args with
  | zero => cases h
  | succ bound ih =>
    obtain ⟨hstarts, arg, separator, after, harg, hcases⟩ := arguments_succ_eq_ok.mp h.symm
    obtain ⟨before, hbefore, hfollows⟩ := hread.of_ok harg
    rcases hcases with ⟨hkind, rfl, rfl⟩ | ⟨more, hkind, hmore, rfl⟩
    · refine ⟨before ++ [separator], by rw [hbefore]; simp, ?_⟩
      intro us r hagree hr
      rw [List.length_append, List.length_singleton, Nat.add_assoc] at hagree
      obtain ⟨hstarts', name', bound', hbound', rfl⟩ := hr.of_agree hstarts hagree
      obtain ⟨after', hread', hdrop, hafter⟩ := hfollows 1 us hagree
      obtain ⟨s, s', rfl, hskind, -⟩ := hafter.exists_cons
      rw [List.length_append, List.length_singleton, ← tail_of_drop hdrop]
      exact arguments_succ_eq_ok.mpr ⟨hstarts', arg, s, s', hread',
        .inl ⟨hskind ▸ hkind, rfl, rfl⟩⟩
    · obtain ⟨between, rfl, hmore'⟩ := ih _ _ hmore.symm
      refine ⟨before ++ separator :: between, by rw [hbefore]; simp, ?_⟩
      intro us r hagree hr
      rw [List.length_append, List.length_cons, Nat.add_assoc] at hagree
      obtain ⟨hstarts', name', bound', hbound', rfl⟩ := hr.of_agree hstarts hagree
      obtain ⟨after', hread', hdrop, hafter⟩ := hfollows _ us hagree
      obtain ⟨s, s', rfl, hskind, -, hrest⟩ := hafter.exists_cons
      have hlength := length_of_drop hdrop
      have hargs := hmore' s' _ hrest ⟨name', bound', by omega, rfl⟩
      have hdrop' : s'.drop between.length =
          us.drop (before ++ separator :: between).length := by
        rw [tail_of_drop hdrop, List.drop_drop, List.length_append, List.length_cons]
        congr 1
        omega
      rw [← hdrop']
      exact arguments_succ_eq_ok.mpr ⟨hstarts', arg, s, s', hread',
        .inr ⟨more, hskind ▸ hkind, hargs, rfl⟩⟩

theorem number_congr {negative : Bool} {t u : Token} {x : Operand Float} (htext : t.text = u.text)
    (h : number negative t = .ok x) : number negative u = .ok x := by
  obtain ⟨value, hvalue, hx⟩ := number_eq_ok.mp h
  exact number_eq_ok.mpr ⟨value, htext ▸ hvalue, hx⟩

theorem Agree.not_opening {n : Nat} {ts us : List Token} (h : Agree (n + 1) ts us)
    (hts : ∀ t, ts.head? = some t → t.kind ≠ .opening) :
    ∀ u, us.head? = some u → u.kind ≠ .opening :=
  h.kind_of_head? (p := (· ≠ .opening)) hts

theorem Uniform.of_ok {good : (Nat → Step (Operand Float)) → Prop} (h : Uniform inner good)
    {t : Token} (hread : inner t = .ok read) : (∀ u, inner u = .ok read) ∧ good read := by
  cases h with
  | opens hopens hgood =>
    obtain rfl := Except.ok.inj ((hopens t).symm.trans hread)
    exact ⟨hopens, hgood⟩
  | refuses hrefuses => cases (hrefuses t).symm.trans hread

theorem Uniform.of_error {good : (Nat → Step (Operand Float)) → Prop} (h : Uniform inner good)
    {t : Token} {e : Fault} (he : inner t = .error e) :
    ∃ limit, e = .tooDeep limit (some t) ∧ ∀ u, inner u = .error (.tooDeep limit (some u)) := by
  cases h with
  | opens hopens => cases (hopens t).symm.trans he
  | @refuses limit hrefuses =>
    exact ⟨limit, Except.error.inj (he.symm.trans (hrefuses t)), hrefuses⟩

theorem Uniform.mono {good good' : (Nat → Step (Operand Float)) → Prop} (h : Uniform inner good)
    (hgood : ∀ read, good read → good' read) : Uniform inner good' := by
  cases h with
  | opens hopens h => exact .opens hopens (hgood _ h)
  | refuses hrefuses => exact .refuses hrefuses

variable (hinner : Uniform inner fun read => ∀ least, Follows (Runs (read least)))
include hinner

-- A call is complete at its closing parenthesis, as its arguments are.
theorem followed_call {name opening : Token} {after rest : List Token} {x : Operand Float}
    (hname : name.isSymbol = true) (hopening : opening.kind = .opening)
    (h : call inner name opening after = .ok (x, rest)) :
    Followed (Runs (atom inner)) (name :: opening :: after) x rest := by
  obtain ⟨read, hread, hcases⟩ := call_eq_ok.mp h
  obtain ⟨hopens, hfollows⟩ := hinner.of_ok hread
  rcases hcases with ⟨closing, rfl, hclosing, rfl⟩ | ⟨args, hargs, rfl⟩
  · refine ⟨[name, opening, closing], rfl, ?_⟩
    rintro us _ hagree rfl
    obtain ⟨u, us, rfl, hukind, hutext, hrest⟩ := hagree.exists_cons
    obtain ⟨o, us, rfl, hokind, -, hrest⟩ := hrest.exists_cons
    obtain ⟨c, us, rfl, hckind, -⟩ := hrest.exists_cons
    have hcall : call inner u o (c :: us) = .ok (.call name.text [], us) :=
      call_eq_ok.mpr ⟨read, hopens o, .inl ⟨c, rfl, hckind ▸ hclosing, by rw [hutext]⟩⟩
    exact atom_eq_ok.mpr (.inr (.inr (.inr (.inl ⟨o, c :: us,
      isSymbol_congr hukind hutext ▸ hname, rfl, hokind ▸ hopening, hcall⟩))))
  · obtain ⟨before, rfl, hfollows'⟩ :=
      follows_arguments (hfollows 1) _ _ _ ⟨name, _, Nat.le_refl _, hargs.symm⟩
    refine ⟨name :: opening :: before, rfl, ?_⟩
    rintro us _ hagree rfl
    obtain ⟨u, us, rfl, hukind, hutext, hrest⟩ := hagree.exists_cons
    obtain ⟨o, us, rfl, hokind, -, hrest⟩ := hrest.exists_cons
    have hargs' := hfollows' us _ hrest ⟨u, _, Nat.le_refl _, rfl⟩
    have hcall : call inner u o us = .ok (.call name.text args, us.drop before.length) :=
      call_eq_ok.mpr ⟨read, hopens o, .inr ⟨args, hargs', by rw [hutext]⟩⟩
    exact atom_eq_ok.mpr (.inr (.inr (.inr (.inl ⟨o, us,
      isSymbol_congr hukind hutext ▸ hname, rfl, hokind ▸ hopening, hcall⟩))))

theorem followed_group {opening : Token} {after rest : List Token} {x : Operand Float}
    (hopening : opening.kind = .opening) (h : group inner opening after = .ok (x, rest)) :
    Followed (Runs (atom inner)) (opening :: after) x rest := by
  obtain ⟨read, closing, hread, hx, hclosing⟩ := group_eq_ok.mp h
  obtain ⟨hopens, hfollows⟩ := hinner.of_ok hread
  obtain ⟨before, rfl, hfollows'⟩ := (hfollows 1).of_ok hx
  refine ⟨opening :: (before ++ [closing]), by simp, ?_⟩
  rintro us _ hagree rfl
  obtain ⟨u, us, rfl, hukind, -, hrest⟩ := hagree.exists_cons
  rw [List.length_cons, List.length_append, List.length_singleton, Nat.add_assoc] at hrest
  obtain ⟨after', hread', hdrop, hafter⟩ := hfollows' 1 us hrest
  obtain ⟨c, rest', rfl, hckind, -⟩ := hafter.exists_cons
  have hgroup := group_eq_ok.mpr ⟨read, c, hopens u, hread', hckind ▸ hclosing⟩
  rw [List.length_cons, List.length_append, List.length_singleton, List.drop_succ_cons,
    ← tail_of_drop hdrop]
  exact atom_eq_ok.mpr (.inr (.inr (.inr (.inr ⟨hukind ▸ hopening, hgroup⟩))))

theorem follows_atom : Follows (Runs (atom inner)) := by
  intro tokens x rest h
  cases tokens with
  | nil => cases h
  | cons t ts =>
    rcases atom_eq_ok.mp h.symm with ⟨hkind, hx, rfl⟩ |
      ⟨literal, hkind, rfl, hliteral, hposition, hx⟩ | ⟨hsymbol, hhead, rfl, rfl⟩ |
      ⟨opening, after, hsymbol, rfl, hopening, hcall⟩ | ⟨hopening, hgroup⟩
    · refine ⟨[t], rfl, ?_⟩
      rintro us _ hagree rfl
      obtain ⟨u, us, rfl, hukind, hutext, -⟩ := hagree.exists_cons
      exact atom_eq_ok.mpr (.inl ⟨hukind ▸ hkind, number_congr hutext hx, rfl⟩)
    · refine ⟨[t, literal], rfl, ?_⟩
      rintro us _ hagree rfl
      obtain ⟨u, l, us, rfl, htouches, hlkind, hltext⟩ :=
        hagree.exists_sign ⟨hkind, hposition⟩ hliteral
      exact atom_eq_ok.mpr (.inr (.inl ⟨l, htouches.kind, rfl, hlkind, htouches.position,
        number_congr hltext hx⟩))
    · refine ⟨[t], rfl, ?_⟩
      rintro us _ hagree rfl
      obtain ⟨u, us, rfl, hukind, hutext, hrest⟩ := hagree.exists_cons
      exact atom_eq_ok.mpr (.inr (.inr (.inl ⟨isSymbol_congr hukind hutext ▸ hsymbol,
        hrest.not_opening hhead, by rw [hutext], rfl⟩)))
    · exact followed_call hinner hsymbol hopening hcall
    · exact followed_group hinner hopening hgroup

omit hinner in
-- An operator comes next on a line that agrees as well, and there is a round left for it.
theorem ChainRun.of_agree {n least : Nat} {lhs : Operand Float} {t : Token} {ts us : List Token}
    {r : Except Fault (Operand Float × List Token)} (hagree : Agree (n + 1) (t :: ts) us)
    (hr : ChainRun inner least lhs us r) :
    ∃ u us' bound, us = u :: us' ∧ t.kind = u.kind ∧ Agree n ts us' ∧ us'.length ≤ bound ∧
      r = chainFrom inner least (bound + 1) lhs (u :: us') := by
  obtain ⟨u, us, rfl, hkind, -, hrest⟩ := hagree.exists_cons
  obtain ⟨bound, hbound, rfl⟩ := hr
  rw [List.length_cons] at hbound
  obtain ⟨bound, rfl⟩ : ∃ b, bound = b + 1 := ⟨bound - 1, by omega⟩
  exact ⟨u, us, bound, rfl, hkind, hrest, by omega, rfl⟩

theorem follows_chain (least : Nat) (lhs : Operand Float) :
    Follows (ChainRun inner least lhs) := by
  rintro tokens x rest ⟨bound, hbound, h⟩
  induction bound generalizing lhs tokens with
  | zero =>
    obtain rfl : tokens = [] := List.length_eq_zero_iff.mp (by omega)
    obtain ⟨rfl, rfl⟩ := Prod.mk.inj (Except.ok.inj h)
    refine ⟨[], rfl, ?_⟩
    rintro us _ hagree ⟨bound', -, rfl⟩
    exact chainFrom_stop (hagree.stops (by simp [Stops]))
  | succ bound ih =>
    by_cases hstops : Stops least tokens
    · rw [chainFrom_stop hstops] at h
      obtain ⟨rfl, rfl⟩ := Prod.mk.inj (Except.ok.inj h)
      refine ⟨[], rfl, ?_⟩
      rintro us _ hagree ⟨bound', -, rfl⟩
      exact chainFrom_stop (hagree.stops hstops)
    · simp only [Stops, not_forall] at hstops
      obtain ⟨t, hhead, o, ho, hleast⟩ := hstops
      obtain ⟨ts, rfl⟩ := List.head?_eq_some_iff.mp hhead
      rw [chainFrom_operator ho hleast] at h
      obtain ⟨read, hread, hterm⟩ := bind_eq_ok.mp h.symm
      obtain ⟨⟨rhs, next⟩, hrhs, hchain⟩ := bind_eq_ok.mp hterm
      obtain ⟨hopens, hfollows⟩ := hinner.of_ok hread
      obtain ⟨before, rfl, hfollows'⟩ := (hfollows _).of_ok hrhs
      simp only [List.length_cons, List.length_append] at hbound
      obtain ⟨between, rfl, hrest⟩ := ih _ _ (by omega) hchain.symm
      refine ⟨t :: (before ++ between), by simp, ?_⟩
      intro us r hagree hr
      obtain ⟨u, us, bound', rfl, hukind, hagree, hbound', rfl⟩ := hr.of_agree hagree
      rw [List.length_cons, List.length_append, Nat.add_assoc] at hagree
      obtain ⟨next', hread', rfl, hnext⟩ := hfollows' _ us hagree
      have hchain' := hrest _ _ hnext ⟨bound', by simp only [List.length_drop]; omega, rfl⟩
      rw [List.length_cons, List.drop_succ_cons, List.length_append, ← List.drop_drop]
      exact (chainFrom_operator_of_ok (hukind ▸ ho) hleast (hopens u) hread').trans hchain'

theorem follows_level (least : Nat) : Follows (Runs (level inner least)) := by
  intro tokens x rest h
  obtain ⟨lhs, after, hatom, hchain⟩ := level_eq_ok.mp h.symm
  obtain ⟨before, rfl, hatom'⟩ := (follows_atom hinner).of_ok hatom
  obtain ⟨between, rfl, hchain'⟩ :=
    follows_chain hinner least lhs _ _ _ ⟨_, Nat.le_refl _, hchain.symm⟩
  refine ⟨before ++ between, by simp, ?_⟩
  rintro us _ hagree rfl
  rw [List.length_append, Nat.add_assoc] at hagree
  obtain ⟨after', hafter, rfl, hrest⟩ := hatom' _ us hagree
  have hx := hchain' _ _ hrest ⟨_, Nat.le_refl _, rfl⟩
  rw [List.length_append, ← List.drop_drop]
  exact level_eq_ok.mpr ⟨lhs, _, hafter, hx⟩

end Success

end Reckon.Reader
