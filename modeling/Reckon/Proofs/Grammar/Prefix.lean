import Reckon.Proofs.Reader.Lookahead

namespace Reckon.Grammar

open Reader Token

variable {β : Type}

-- The reader fails at some token: what stands before it is the start of something that is
-- accepted, and every line that agrees up to the token behind it fails there for the same reason.
def Blocked (outcomes : Outcomes β) (accepted : List Token → Prop) (tokens : List Token)
    (e : Fault) : Prop :=
  ∃ before after more, tokens = before ++ after ∧ Stuck e after ∧ accepted (before ++ more) ∧
    ∀ us r, Agree (before.length + 2) tokens us → outcomes us r →
      ∃ e', r = .error e' ∧ e'.code = e.code ∧ Stuck e' (us.drop before.length)

def Blocks (outcomes : Outcomes β) (accepted : List Token → Prop) : Prop :=
  ∀ tokens e, Numeric tokens → outcomes tokens (.error e) → Blocked outcomes accepted tokens e

-- Failing at the first token.
theorem Blocked.here {outcomes : Outcomes β} {accepted : List Token → Prop} {tokens : List Token}
    {e : Fault} (hstuck : Stuck e tokens) (haccepted : ∃ more, accepted more)
    (hother : ∀ us r, Agree 2 tokens us → outcomes us r →
      ∃ e', r = .error e' ∧ e'.code = e.code ∧ Stuck e' us) :
    Blocked outcomes accepted tokens e := by
  obtain ⟨more, hmore⟩ := haccepted
  exact ⟨[], tokens, more, rfl, hstuck, hmore, hother⟩

-- Failing inside of something that is read behind other tokens.
theorem Blocked.within {γ : Type} {outcomes : Outcomes β} {outcomes' : Outcomes γ}
    {accepted accepted' : List Token → Prop} {tokens : List Token} {e : Fault}
    (front : List Token) (h : Blocked outcomes accepted tokens e)
    (haccepted : ∀ ts, accepted ts → ∃ more, accepted' (front ++ (ts ++ more)))
    (hother : ∀ us r', Agree (front.length + 2) (front ++ tokens) us → outcomes' us r' →
      ∃ r, outcomes (us.drop front.length) r ∧ ∀ e', r = .error e' → r' = .error e') :
    Blocked outcomes' accepted' (front ++ tokens) e := by
  obtain ⟨before, after, more, rfl, hstuck, hmore, hblocked⟩ := h
  obtain ⟨more', hmore'⟩ := haccepted _ hmore
  refine ⟨front ++ before, after, more ++ more', by simp, hstuck, by simpa using hmore', ?_⟩
  intro us r' hagree hr'
  rw [List.length_append, Nat.add_assoc] at hagree
  obtain ⟨r, hr, herror⟩ := hother us r' (hagree.mono (by omega)) hr'
  obtain ⟨e', he', hcode, hstuck'⟩ := hblocked _ r hagree.behind hr
  rw [List.length_append, ← List.drop_drop]
  exact ⟨e', herror e' he', hcode, hstuck'⟩

-- Tokens with which everything can be completed.

private def anyName : Token := ⟨.name, "x", 0⟩

private def anyClosing : Token := ⟨.closing, ")", 0⟩

private theorem atom_anyName : Atom [anyName] (.symbol "x") := .symbol (by decide)

-- What a fault is told at that something else should have closed.

theorem stuck_separator {missing : Fault} (h : missing.place? = some none) (after : List Token) :
    Stuck (after.head?.elim missing leftover) after := by
  cases after with
  | nil => exact .next h
  | cons t after => exact .next (leftover_place? t)

theorem code_separator {n : Nat} {missing missing' : Fault} {after after' : List Token}
    (hcode : missing'.code = missing.code) (h : Agree (n + 1) after after') :
    (after'.head?.elim missing' leftover).code = (after.head?.elim missing leftover).code := by
  cases h with
  | finish => exact hcode
  | cons hkind => exact leftover_code hkind

-- The lists of arguments with the parenthesis that closes them.
def ClosedArguments (ts : List Token) : Prop :=
  ∃ us closing args, ts = us ++ [closing] ∧ closing.kind = .closing ∧ Arguments us args

-- The operands of some layer.
def Derivable (least : Nat) (ts : List Token) : Prop := ∃ x, Level least ts x

section Failure

-- A reader of operands that follows the grammar and fails at the first token that is wrong.
structure Prompt (read : Nat → Step (Operand Float)) : Prop where
  sound : Sound read
  follows (least : Nat) : Follows (Runs (read least))
  blocks (least : Nat) : Blocks (Runs (read least)) (Derivable least)

variable {read : Nat → Step (Operand Float)} {inner : Inner}

-- What such a reader makes of a line, and of a line that agrees with it far enough.
theorem Prompt.of_ok (hread : Prompt read) {least : Nat} {tokens rest : List Token}
    {x : Operand Float} (hnumeric : Numeric tokens) (hx : read least tokens = .ok (x, rest)) :
    ∃ before, tokens = before ++ rest ∧ Level least before x ∧ Stops least rest ∧
      ∀ n us, Agree (before.length + (n + 1)) tokens us →
        ∃ rest', read least us = .ok (x, rest') ∧ us.drop before.length = rest' ∧
          Agree (n + 1) rest rest' := by
  obtain ⟨before, rfl, hother⟩ := (hread.follows least).of_ok hx
  obtain ⟨ts, hts, hlevel, hstops⟩ := hread.sound least _ x rest hnumeric hx
  obtain rfl := List.append_cancel_right hts
  exact ⟨before, rfl, hlevel, hstops, hother⟩

theorem arguments_nil (name : Token) (bound : Nat) :
    arguments (read 1) name bound [] = .error (.operandExpected none) := by
  cases bound <;> rfl

theorem arguments_missing {tokens : List Token}
    (h : ∀ t, tokens.head? = some t → t.kind = .comma ∨ t.kind = .closing) (name : Token)
    {bound : Nat} (hbound : tokens.length ≤ bound) :
    arguments (read 1) name bound tokens = .error (argumentMissing tokens.head?) := by
  cases tokens with
  | nil => exact arguments_nil name bound
  | cons t ts =>
    obtain ⟨bound, rfl⟩ : ∃ b, bound = b + 1 := ⟨bound - 1, by simp at hbound; omega⟩
    exact arguments_succ_eq_error.mpr (.inl ⟨h, rfl⟩)

theorem closedArguments_anyName : ClosedArguments [anyName, anyClosing] :=
  ⟨[anyName], anyClosing, _, rfl, rfl, .last (Level.of_atom (n := 1) atom_anyName)⟩

theorem code_argumentMissing {n : Nat} {ts us : List Token} (h : Agree (n + 1) ts us) :
    (argumentMissing us.head?).code = (argumentMissing ts.head?).code := by
  cases h <;> rfl

theorem stuck_argumentMissing (ts : List Token) : Stuck (argumentMissing ts.head?) ts := by
  cases ts <;> exact .next rfl

theorem blocked_argumentMissing {tokens : List Token}
    (h : ∀ t, tokens.head? = some t → t.kind = .comma ∨ t.kind = .closing) :
    Blocked (ArgumentsRun read) ClosedArguments tokens (argumentMissing tokens.head?) := by
  refine .here (stuck_argumentMissing tokens) ⟨_, closedArguments_anyName⟩ ?_
  rintro us _ hagree ⟨name, bound, hbound, rfl⟩
  have hhead := hagree.kind_of_head? (p := fun k => k = .comma ∨ k = .closing) h
  exact ⟨_, arguments_missing hhead name hbound, code_argumentMissing hagree,
    stuck_argumentMissing us⟩

-- The first argument fails.
theorem blocked_argument (hread : Prompt read) {tokens : List Token} {e : Fault}
    (hnumeric : Numeric tokens) (hstarts : StartsArgument tokens)
    (harg : read 1 tokens = .error e) :
    Blocked (ArgumentsRun read) ClosedArguments tokens e := by
  refine Blocked.within [] (hread.blocks 1 _ e hnumeric harg.symm) ?_ ?_
  · rintro us ⟨x, hx⟩
    exact ⟨[anyClosing], us, anyClosing, [x], rfl, rfl, .last hx⟩
  · intro us r hagree hr
    obtain ⟨hstarts', name, bound, -, rfl⟩ := hr.of_agree hstarts hagree
    exact ⟨_, rfl, fun e' he' => arguments_succ_eq_error.mpr (.inr ⟨hstarts', .inl he'⟩)⟩

-- Behind the first argument there is neither a comma nor the closing parenthesis.
theorem blocked_separator (hread : Prompt read) {name : Token} {tokens after : List Token}
    {arg : Operand Float} (hnumeric : Numeric tokens) (hstarts : StartsArgument tokens)
    (harg : read 1 tokens = .ok (arg, after))
    (hhead : ∀ t, after.head? = some t → t.kind ≠ .comma ∧ t.kind ≠ .closing) :
    Blocked (ArgumentsRun read) ClosedArguments tokens
      (after.head?.elim (.unclosedCall name none) leftover) := by
  obtain ⟨before, hbefore, hlevel, -, hother⟩ := hread.of_ok hnumeric harg
  refine ⟨before, after, [anyClosing], hbefore, stuck_separator rfl after,
    ⟨before, anyClosing, [arg], rfl, rfl, .last hlevel⟩, ?_⟩
  intro us r hagree hr
  obtain ⟨hstarts', name', bound, -, rfl⟩ := hr.of_agree hstarts hagree
  obtain ⟨after', hafter', rfl, hagree'⟩ := hother 1 us hagree
  have hhead' := hagree'.kind_of_head? (p := fun k => k ≠ .comma ∧ k ≠ .closing) hhead
  exact ⟨_, arguments_succ_eq_error.mpr (.inr ⟨hstarts', .inr ⟨arg, _, hafter',
    .inl ⟨hhead', rfl⟩⟩⟩), code_separator rfl hagree', stuck_separator rfl _⟩

-- The arguments behind the first one fail.
theorem blocked_further (hread : Prompt read) {tokens rest : List Token} {comma : Token}
    {arg : Operand Float} {e : Fault} (hnumeric : Numeric tokens)
    (hstarts : StartsArgument tokens) (harg : read 1 tokens = .ok (arg, comma :: rest))
    (hkind : comma.kind = .comma) (h : Blocked (ArgumentsRun read) ClosedArguments rest e) :
    Blocked (ArgumentsRun read) ClosedArguments tokens e := by
  obtain ⟨before, hbefore, hlevel, -, hother⟩ := hread.of_ok hnumeric harg
  have hfront : tokens = (before ++ [comma]) ++ rest := by simp [hbefore]
  rw [hfront]
  refine Blocked.within _ h ?_ ?_
  · rintro us ⟨vs, closing, args, rfl, hclosing, hargs⟩
    exact ⟨[], before ++ comma :: vs, closing, arg :: args, by simp, hclosing,
      .more hlevel hkind hargs⟩
  · intro us r hagree hr
    rw [List.length_append, List.length_singleton, Nat.add_assoc, ← hfront] at hagree
    obtain ⟨hstarts', name, bound, hbound, rfl⟩ := hr.of_agree hstarts hagree
    obtain ⟨after', hafter', hdrop, hagree'⟩ := hother _ us hagree
    obtain ⟨comma', rest', rfl, hkind', -, -⟩ := hagree'.exists_cons
    have hlength := length_of_drop hdrop
    rw [List.length_append, List.length_singleton, ← tail_of_drop hdrop]
    exact ⟨_, ⟨name, bound, by omega, rfl⟩, fun e' he' => arguments_succ_eq_error.mpr
      (.inr ⟨hstarts', .inr ⟨arg, _, hafter', .inr ⟨comma', rest', rfl, hkind' ▸ hkind, he'⟩⟩⟩)⟩

-- The first argument decides, or what stands behind it.
theorem blocks_arguments (hread : Prompt read) : Blocks (ArgumentsRun read) ClosedArguments := by
  rintro tokens e hnumeric ⟨name, bound, hbound, h⟩
  induction bound generalizing tokens with
  | zero =>
    obtain rfl : tokens = [] := List.length_eq_zero_iff.mp (by omega)
    obtain rfl : e = .operandExpected none := Except.error.inj h
    exact blocked_argumentMissing (by simp)
  | succ bound ih =>
    rcases arguments_succ_eq_error.mp h.symm with ⟨hhead, rfl⟩ |
      ⟨hstarts, harg | ⟨arg, _, harg, ⟨hhead, rfl⟩ | ⟨comma, rest, rfl, hkind, hrest⟩⟩⟩
    · exact blocked_argumentMissing hhead
    · exact blocked_argument hread hnumeric hstarts harg
    · exact blocked_separator hread hnumeric hstarts harg hhead
    · obtain ⟨before, rfl, -⟩ := hread.of_ok hnumeric harg
      simp only [List.length_append, List.length_cons] at hbound
      have hnumeric_rest := (numeric_cons.mp (numeric_append.mp hnumeric).2).2
      exact blocked_further hread hnumeric hstarts harg hkind
        (ih rest hnumeric_rest (by omega) hrest.symm)

variable (hinner : Uniform inner Prompt)
include hinner

-- A call fails at its parenthesis, where a level is opened, or in its arguments.
theorem blocked_call {name opening : Token} {after : List Token} {e : Fault}
    (hnumeric : Numeric (opening :: after)) (hname : name.isSymbol = true)
    (hopening : opening.kind = .opening) (h : call inner name opening after = .error e) :
    Blocked (Runs (atom inner)) (fun ts => ∃ x, Atom ts x) (name :: opening :: after) e := by
  rcases call_eq_error.mp h with hdeep | ⟨read, hread, hhead, hargs⟩
  · obtain ⟨limit, rfl, hrefuses⟩ := hinner.of_error hdeep
    refine ⟨[name], opening :: after, [], rfl, .next rfl, ⟨_, .symbol hname⟩, ?_⟩
    rintro us _ hagree rfl
    obtain ⟨u, us, rfl, hukind, hutext, hrest⟩ := hagree.exists_cons
    obtain ⟨o, us, rfl, hokind, -, -⟩ := hrest.exists_cons
    have hcall : call inner u o us = .error (.tooDeep limit (some o)) :=
      call_eq_error.mpr (.inl (hrefuses o))
    exact ⟨_, atom_eq_error.mpr (.inr (.inr (.inl ⟨o, us, isSymbol_congr hukind hutext ▸ hname,
      rfl, hokind ▸ hopening, hcall⟩))), rfl, .next rfl⟩
  · obtain ⟨hopens, hgood⟩ := hinner.of_ok hread
    have hblocked := blocks_arguments hgood _ e (numeric_cons.mp hnumeric).2
      ⟨name, _, Nat.le_refl _, hargs.symm⟩
    refine Blocked.within [name, opening] hblocked ?_ ?_
    · rintro us ⟨vs, closing, args, rfl, hclosing, hvs⟩
      exact ⟨[], _, by simpa using .call hname hopening hvs hclosing⟩
    · rintro us _ hagree rfl
      obtain ⟨u, us, rfl, hukind, hutext, hrest⟩ := hagree.exists_cons
      obtain ⟨o, us, rfl, hokind, -, hafter⟩ := hrest.exists_cons
      have hhead' := hafter.kind_of_head? (p := (· ≠ .closing)) hhead
      refine ⟨_, ⟨u, us.length, Nat.le_refl _, rfl⟩, fun e' he' => ?_⟩
      have hcall : call inner u o us = .error e' :=
        call_eq_error.mpr (.inr ⟨read, hopens o, hhead', he'⟩)
      exact atom_eq_error.mpr (.inr (.inr (.inl ⟨o, us, isSymbol_congr hukind hutext ▸ hname, rfl,
        hokind ▸ hopening, hcall⟩)))

-- A group fails where it opens a level, in what it encloses or behind that.
theorem blocked_group {opening : Token} {after : List Token} {e : Fault}
    (hnumeric : Numeric after) (hopening : opening.kind = .opening)
    (h : group inner opening after = .error e) :
    Blocked (Runs (atom inner)) (fun ts => ∃ x, Atom ts x) (opening :: after) e := by
  rcases group_eq_error.mp h with hdeep | ⟨read, hread, hinside | ⟨x, rest, hx, hhead, rfl⟩⟩
  · obtain ⟨limit, rfl, hrefuses⟩ := hinner.of_error hdeep
    refine .here (.next rfl) ⟨_, _, atom_anyName⟩ ?_
    rintro us _ hagree rfl
    obtain ⟨u, us, rfl, hukind, -, -⟩ := hagree.exists_cons
    have hgroup : group inner u us = .error (.tooDeep limit (some u)) :=
      group_eq_error.mpr (.inl (hrefuses u))
    exact ⟨_, atom_eq_error.mpr (.inr (.inr (.inr (.inl ⟨hukind ▸ hopening, hgroup⟩)))), rfl,
      .next rfl⟩
  · obtain ⟨hopens, hgood⟩ := hinner.of_ok hread
    refine Blocked.within [opening] (hgood.blocks 1 _ e hnumeric hinside.symm) ?_ ?_
    · rintro us ⟨x, hx⟩
      exact ⟨[anyClosing], x, .group hopening hx rfl⟩
    · rintro us _ hagree rfl
      obtain ⟨u, us, rfl, hukind, -, -⟩ := hagree.exists_cons
      refine ⟨_, rfl, fun e' he' => ?_⟩
      have hgroup : group inner u us = .error e' :=
        group_eq_error.mpr (.inr ⟨read, hopens u, .inl he'⟩)
      exact atom_eq_error.mpr (.inr (.inr (.inr (.inl ⟨hukind ▸ hopening, hgroup⟩))))
  · obtain ⟨hopens, hgood⟩ := hinner.of_ok hread
    obtain ⟨before, rfl, hlevel, -, hother⟩ := hgood.of_ok hnumeric hx
    refine ⟨opening :: before, rest, [anyClosing], rfl, stuck_separator rfl rest,
      ⟨x, .group hopening hlevel rfl⟩, ?_⟩
    rintro us _ hagree rfl
    obtain ⟨u, us, rfl, hukind, -, hafter⟩ := hagree.exists_cons
    obtain ⟨rest', hrest', rfl, hagree'⟩ := hother 1 us hafter
    have hhead' := hagree'.kind_of_head? (p := (· ≠ .closing)) hhead
    have hgroup : group inner u us = .error ((us.drop before.length).head?.elim
        (.unclosedGroup u none) leftover) :=
      group_eq_error.mpr (.inr ⟨read, hopens u, .inr ⟨x, _, hrest', hhead', rfl⟩⟩)
    exact ⟨_, atom_eq_error.mpr (.inr (.inr (.inr (.inl ⟨hukind ▸ hopening, hgroup⟩)))),
      code_separator rfl hagree', stuck_separator rfl _⟩

theorem blocks_atom : Blocks (Runs (atom inner)) fun ts => ∃ x, Atom ts x := by
  intro tokens e hnumeric h
  cases tokens with
  | nil =>
    obtain rfl : e = .operandExpected none := Except.error.inj h
    refine .here (.next rfl) ⟨_, _, atom_anyName⟩ ?_
    rintro us _ hagree rfl
    cases hagree with
    | finish => exact ⟨_, rfl, rfl, .next rfl⟩
  | cons t ts =>
    have hts := (numeric_cons.mp hnumeric).2
    rcases atom_eq_error.mp h.symm with ⟨hkind, hnumber⟩ |
      ⟨literal, rest, hkind, rfl, hliteral, hposition, hnumber⟩ |
      ⟨opening, after, hsymbol, rfl, hopening, hcall⟩ | ⟨hopening, hgroup⟩ | ⟨hnone, rfl⟩
    · obtain ⟨hvalue, rfl⟩ := number_eq_error.mp hnumber
      refine .here (.next rfl) ⟨_, _, atom_anyName⟩ ?_
      rintro us _ hagree rfl
      obtain ⟨u, us, rfl, hukind, hutext, -⟩ := hagree.exists_cons
      have hnumber' : number false u = .error (.invalidNumber false u) :=
        number_eq_error.mpr ⟨hutext ▸ hvalue, rfl⟩
      exact ⟨_, atom_eq_error.mpr (.inl ⟨hukind ▸ hkind, hnumber'⟩), rfl, .next rfl⟩
    · obtain ⟨hvalue, rfl⟩ := number_eq_error.mp hnumber
      refine .here (.sign ⟨hkind, hposition⟩) ⟨_, _, atom_anyName⟩ ?_
      rintro us _ hagree rfl
      obtain ⟨u, l, us, rfl, htouches, hlkind, hltext⟩ :=
        hagree.exists_sign ⟨hkind, hposition⟩ hliteral
      have hnumber' : number true l = .error (.invalidNumber true l) :=
        number_eq_error.mpr ⟨hltext ▸ hvalue, rfl⟩
      exact ⟨_, atom_eq_error.mpr (.inr (.inl ⟨l, us, htouches.kind, rfl, hlkind,
        htouches.position, hnumber'⟩)), rfl, .sign htouches⟩
    · exact blocked_call hinner hts hsymbol hopening hcall
    · exact blocked_group hinner hts hopening hgroup
    · refine .here (.next rfl) ⟨_, _, atom_anyName⟩ ?_
      rintro us _ hagree rfl
      obtain ⟨u, us, rfl, -⟩ := hagree.exists_cons
      exact ⟨_, atom_eq_error.mpr (.inr (.inr (.inr (.inr ⟨hnone.of_agree hagree, rfl⟩)))), rfl,
        .next rfl⟩

-- An operator does not open its level.
theorem blocked_operator {least : Nat} {lhs : Operand Float} {ls ts : List Token} {t : Token}
    {o : Operation} {e : Fault} (hlhs : Level least ls lhs) (ho : t.kind = .operator o)
    (hleast : ¬o.precedence < least) (hdeep : inner t = .error e) :
    Blocked (ChainRun inner least lhs) (fun us => Derivable least (ls ++ us)) (t :: ts) e := by
  obtain ⟨limit, rfl, hrefuses⟩ := hinner.of_error hdeep
  refine .here (.next rfl) ⟨[], lhs, by simpa using hlhs⟩ ?_
  intro us r hagree hr
  obtain ⟨u, us, bound, rfl, hukind, -, -, rfl⟩ := hr.of_agree hagree
  exact ⟨_, (chainFrom_operator_eq_error (hukind ▸ ho) hleast).mpr (.inl (hrefuses u)), rfl,
    .next rfl⟩

-- The right operand fails.
theorem blocked_right {least : Nat} {lhs : Operand Float} {ls ts : List Token} {t : Token}
    {o : Operation} {e : Fault} {read : Nat → Step (Operand Float)} (hnumeric : Numeric ts)
    (hlhs : Level (leftPrecedence o) ls lhs) (ho : t.kind = .operator o)
    (hleast : ¬o.precedence < least) (hread : inner t = .ok read)
    (hright : read o.rightPrecedence ts = .error e) :
    Blocked (ChainRun inner least lhs) (fun us => Derivable least (ls ++ us)) (t :: ts) e := by
  obtain ⟨hopens, hgood⟩ := hinner.of_ok hread
  have hblocked := hgood.blocks o.rightPrecedence _ e hnumeric hright.symm
  refine Blocked.within [t] hblocked ?_ ?_
  · rintro us ⟨r, hr⟩
    have hterm := (Level.term ho hlhs hr).weaken (Nat.le_of_not_lt hleast)
    exact ⟨[], _, by simpa using hterm⟩
  · intro us r hagree hr
    obtain ⟨u, us, bound, rfl, hukind, -, -, rfl⟩ := hr.of_agree hagree
    exact ⟨_, rfl, fun e' he' => (chainFrom_operator_eq_error (hukind ▸ ho) hleast).mpr
      (.inr ⟨read, hopens u, .inl he'⟩)⟩

-- The invariant is that of soundness: what has been read is on the layer of the loop and may be
-- the left operand of the operator that comes next.
theorem blocks_chain {least : Nat} {lhs : Operand Float} {ls tokens : List Token} {e : Fault}
    (hnumeric : Numeric tokens) (hlhs : Level least ls lhs)
    (hleft : ∀ t, tokens.head? = some t → ∀ o, t.kind = .operator o →
      Level (leftPrecedence o) ls lhs)
    (h : ChainRun inner least lhs tokens (.error e)) :
    Blocked (ChainRun inner least lhs) (fun ts => Derivable least (ls ++ ts)) tokens e := by
  obtain ⟨bound, hbound, h⟩ := h
  induction bound generalizing lhs ls tokens with
  | zero => cases h
  | succ bound ih =>
    by_cases hstops : Stops least tokens
    · rw [chainFrom_stop hstops] at h
      cases h
    · simp only [Stops, not_forall] at hstops
      obtain ⟨t, hhead, o, ho, hleast⟩ := hstops
      obtain ⟨ts, rfl⟩ := List.head?_eq_some_iff.mp hhead
      have hts := (numeric_cons.mp hnumeric).2
      rcases (chainFrom_operator_eq_error ho hleast).mp h.symm with hdeep |
        ⟨read, hread, hright | ⟨rhs, next, hrhs, hchain⟩⟩
      · exact blocked_operator hinner hlhs ho hleast hdeep
      · exact blocked_right hinner hts (hleft t rfl o ho) ho hleast hread hright
      · obtain ⟨hopens, hgood⟩ := hinner.of_ok hread
        obtain ⟨rs, rfl, hrs, hnext, hother⟩ := hgood.of_ok hts hrhs
        have hterm := Level.term ho (hleft t rfl o ho) hrs
        simp only [List.length_cons, List.length_append] at hbound
        have hblocked := ih (numeric_append.mp hts).2 (hterm.weaken (by omega))
          (fun t' ht' o' ho' => hterm.weaken (leftPrecedence_le (hnext t' ht' o' ho')))
          (by omega) hchain.symm
        refine Blocked.within (t :: rs) hblocked ?_ ?_
        · rintro us ⟨x, hx⟩
          exact ⟨[], x, by simpa using hx⟩
        · intro us r hagree hr
          obtain ⟨u, us, bound', rfl, hukind, hrest, hbound', rfl⟩ := hr.of_agree hagree
          obtain ⟨next', hread', rfl, -⟩ := hother 1 us hrest
          refine ⟨_, ⟨bound', ?_, rfl⟩, fun e' he' => ?_⟩
          · simp only [List.length_cons, List.drop_succ_cons, List.length_drop]
            omega
          · exact (chainFrom_operator_of_ok (hukind ▸ ho) hleast (hopens u) hread').trans he'

theorem follows_of_prompt : Uniform inner fun read => ∀ least, Follows (Runs (read least)) :=
  hinner.mono fun _ h => h.follows

theorem sound_of_prompt (t : Token) (read : Nat → Step (Operand Float))
    (h : inner t = .ok read) : Sound read :=
  (hinner.of_ok h).2.sound

theorem prompt_level : Prompt (level inner) where
  sound := level_sound (sound_of_prompt hinner)
  follows := follows_level (follows_of_prompt hinner)
  blocks := by
    intro least tokens e hnumeric h
    rcases level_eq_error.mp h.symm with hatom | ⟨lhs, after, hatom, hchain⟩
    · refine Blocked.within [] (blocks_atom hinner _ e hnumeric hatom.symm) ?_ ?_
      · rintro us ⟨x, hx⟩
        exact ⟨[], x, by simpa using Level.of_atom hx⟩
      · rintro us _ hagree rfl
        exact ⟨_, rfl, fun e' he' => level_eq_error.mpr (.inl he')⟩
    · obtain ⟨before, rfl, hother⟩ := (follows_atom (follows_of_prompt hinner)).of_ok hatom
      obtain ⟨ls, hls, hlhs⟩ := atom_sound (sound_of_prompt hinner) hnumeric hatom
      obtain rfl := List.append_cancel_right hls
      have hblocked := blocks_chain hinner (numeric_append.mp hnumeric).2 (Level.of_atom hlhs)
        (fun _ _ _ _ => Level.of_atom hlhs) ⟨_, Nat.le_refl _, hchain.symm⟩
      refine Blocked.within _ hblocked ?_ ?_
      · rintro us ⟨x, hx⟩
        exact ⟨[], x, by simpa using hx⟩
      · rintro us _ hagree rfl
        obtain ⟨after', hafter', rfl, -⟩ := hother 1 us hagree
        exact ⟨_, ⟨_, Nat.le_refl _, rfl⟩, fun e' he' =>
          level_eq_error.mpr (.inr ⟨lhs, _, hafter', he'⟩)⟩

end Failure

-- Each level reads with the one below it, the innermost opens none.
theorem prompt_operand (limit budget : Nat) : Prompt (operand limit budget) := by
  induction budget with
  | zero => exact prompt_level (.refuses fun _ => rfl)
  | succ budget ih => exact prompt_level (.opens (fun _ => rfl) ih)

end Reckon.Grammar
