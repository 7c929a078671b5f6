import Reckon.Statement.Reader
import Reckon.Proofs.Outcome
import Mathlib.Tactic.Common

namespace Reckon

namespace Reader

variable {read : Step (Operand Float)} {inner : Inner} {tokens rest : List Token}

@[simp] theorem expect_eq_ok {accepted : Token → Bool} {missing : Option Token → Fault}
    {t : Token} :
    expect accepted missing tokens = .ok (t, rest) ↔ tokens = t :: rest ∧ accepted t = true := by
  cases tokens with
  | nil => simp [expect]
  | cons s tokens =>
    by_cases h : accepted s = true
    · simp only [expect, h, ite_true, Except.ok.injEq, Prod.mk.injEq, List.cons.injEq]
      exact ⟨fun ⟨hs, hr⟩ => ⟨⟨hs, hr⟩, hs ▸ h⟩, fun ⟨hs, _⟩ => hs⟩
    · simp only [expect, h, List.cons.injEq]
      constructor
      · intro he
        simp at he
      · rintro ⟨⟨rfl, -⟩, ht⟩
        exact absurd ht h

@[simp] theorem require_eq_ok {refused : Token → Bool} {missing : Option Token → Fault} :
    require refused missing tokens = .ok () ↔
      ∃ t rest, tokens = t :: rest ∧ refused t = false := by
  cases tokens with
  | nil => simp [require]
  | cons t tokens => cases h : refused t <;> simp [require, h]

@[simp] theorem expectEnd_eq_ok : expectEnd tokens = .ok () ↔ tokens = [] := by
  cases tokens <;> simp [expectEnd]

theorem number_eq_ok {negative : Bool} {t : Token} {x : Operand Float} :
    number negative t = .ok x ↔ ∃ value, Number.readUnsigned? t.text.toList = some value ∧
      x = .number (if negative then -value else value) := by
  cases h : Number.readUnsigned? t.text.toList <;> simp [number, h, eq_comm]

theorem arguments_succ_eq_ok {name : Token} {bound : Nat} {args : List (Operand Float)} :
    arguments read name (bound + 1) tokens = .ok (args, rest) ↔
      (∃ t ts, tokens = t :: ts ∧ t.kind ≠ .comma ∧ t.kind ≠ .closing) ∧
      ∃ arg separator after, read tokens = .ok (arg, separator :: after) ∧
        ((separator.kind = .closing ∧ args = [arg] ∧ rest = after) ∨
          ∃ more, separator.kind = .comma ∧
            arguments read name bound after = .ok (more, rest) ∧ args = arg :: more) := by
  rw [arguments]
  simp only [bind_eq_ok, exists_unit, require_eq_ok, expect_eq_ok, Prod.exists,
    Bool.or_eq_false_iff, beq_eq_false_iff_ne]
  refine and_congr_right fun _ => exists_congr fun arg => ?_
  constructor
  · rintro ⟨_, hread, separator, after, ⟨rfl, hkind⟩, h⟩
    refine ⟨separator, after, hread, ?_⟩
    split_ifs at h with hcomma
    · simp only [bind_eq_ok, pure, Except.pure, Except.ok.injEq, Prod.mk.injEq,
        Prod.exists] at h
      obtain ⟨more, _, hmore, rfl, rfl⟩ := h
      exact Or.inr ⟨more, hcomma, hmore, rfl⟩
    · simp only [pure, Except.pure, Except.ok.injEq, Prod.mk.injEq] at h
      exact Or.inl ⟨by simpa [hcomma] using hkind, h.1.symm, h.2.symm⟩
  · rintro ⟨separator, after, hread, ⟨hkind, rfl, rfl⟩ | ⟨more, hkind, hmore, rfl⟩⟩
    · exact ⟨_, hread, separator, _, ⟨rfl, by simp [hkind]⟩, by simp [hkind]; rfl⟩
    · exact ⟨_, hread, separator, after, ⟨rfl, by simp [hkind]⟩, by simp [hkind, hmore]⟩

theorem call_eq_ok {name opening : Token} {x : Operand Float} :
    call inner name opening tokens = .ok (x, rest) ↔
      ∃ read, inner opening = .ok read ∧
        ((∃ closing, tokens = closing :: rest ∧ closing.kind = .closing ∧ x = .call name.text []) ∨
          ∃ args, arguments (read 1) name tokens.length tokens = .ok (args, rest) ∧
            x = .call name.text args) := by
  simp only [call, bind_eq_ok]
  refine exists_congr fun read => and_congr_right fun _ => ?_
  cases tokens with
  | nil => simp [arguments]
  | cons t ts =>
    simp only [List.head?_cons, Option.map_some, Option.some.injEq, List.tail_cons]
    split_ifs with ht
    · constructor
      · intro h
        obtain ⟨rfl, rfl⟩ := Prod.mk.inj (Except.ok.inj h)
        exact Or.inl ⟨t, rfl, ht, rfl⟩
      · rintro (⟨closing, he, -, rfl⟩ | ⟨args, hargs, -⟩)
        · obtain ⟨-, rfl⟩ := List.cons.inj he
          rfl
        · obtain ⟨⟨_, _, he, -, hclosing⟩, -⟩ := arguments_succ_eq_ok.mp hargs
          obtain ⟨rfl, -⟩ := List.cons.inj he
          exact absurd ht hclosing
    · constructor
      · intro h
        obtain ⟨⟨args, _⟩, hargs, he⟩ := bind_eq_ok.mp h
        obtain ⟨rfl, rfl⟩ := Prod.mk.inj (Except.ok.inj he)
        exact Or.inr ⟨args, hargs, rfl⟩
      · rintro (⟨closing, he, hclosing, -⟩ | ⟨args, hargs, rfl⟩)
        · obtain ⟨rfl, -⟩ := List.cons.inj he
          exact absurd hclosing ht
        · rw [hargs, ok_bind]
          rfl

theorem group_eq_ok {opening : Token} {x : Operand Float} :
    group inner opening tokens = .ok (x, rest) ↔
      ∃ read closing, inner opening = .ok read ∧ read 1 tokens = .ok (x, closing :: rest) ∧
        closing.kind = .closing := by
  simp only [group, bind_eq_ok, expect_eq_ok, Prod.exists, pure, Except.pure]
  constructor
  · rintro ⟨read, hread, _, _, hx, closing, _, ⟨rfl, hkind⟩, h⟩
    obtain ⟨rfl, rfl⟩ := Prod.mk.inj (Except.ok.inj h)
    exact ⟨read, closing, hread, hx, by simpa using hkind⟩
  · rintro ⟨read, closing, hread, hx, hkind⟩
    exact ⟨read, hread, x, _, hx, closing, rest, ⟨rfl, by simp [hkind]⟩, rfl⟩

theorem kind_of_isSymbol {t : Token} (h : t.isSymbol = true) : t.kind = .name := by
  simp only [Token.isSymbol, Bool.and_eq_true, beq_iff_eq] at h
  exact h.1

theorem kind_of_isKeyword {t : Token} {word : String} (h : t.isKeyword word = true) :
    t.kind = .name := by
  simp only [Token.isKeyword, Bool.and_eq_true, beq_iff_eq] at h
  exact h.1

-- The five kinds of atoms, told by one token or two.
theorem atom_eq_ok {t : Token} {ts : List Token} {x : Operand Float} :
    atom inner (t :: ts) = .ok (x, rest) ↔
      (t.kind = .number ∧ number false t = .ok x ∧ rest = ts) ∨
      (∃ literal, t.kind = .operator .sub ∧ ts = literal :: rest ∧ literal.kind = .number ∧
        literal.position = t.position + 1 ∧ number true literal = .ok x) ∨
      (t.isSymbol = true ∧ (∀ o, ts.head? = some o → o.kind ≠ .opening) ∧
        x = .symbol t.text ∧ rest = ts) ∨
      (∃ opening after, t.isSymbol = true ∧ ts = opening :: after ∧ opening.kind = .opening ∧
        call inner t opening after = .ok (x, rest)) ∨
      (t.kind = .opening ∧ group inner t ts = .ok (x, rest)) := by
  have hsymbol : t.isSymbol = true → t.kind = .name := kind_of_isSymbol
  cases hk : t.kind with
  | number =>
    have hn : ¬t.isSymbol = true := fun h => by simp [hsymbol h] at hk
    cases hx : number false t with
    | error e => simp [atom, hk, hn, hx]
    | ok y => simp [atom, hk, hn, hx, pure, Except.pure, eq_comm]
  | operator o =>
    have hn : ¬t.isSymbol = true := fun h => by simp [hsymbol h] at hk
    cases o with
    | sub =>
      cases ts with
      | nil => simp [atom, hk, hn, throw, throwThe, MonadExceptOf.throw]
      | cons literal after =>
        by_cases hl : literal.kind = .number ∧ literal.position = t.position + 1
        · cases hx : number true literal with
          | error e => simp [atom, hk, hn, hl, hx]
          | ok y => simp [atom, hk, hn, hl, hx, pure, Except.pure, eq_comm, and_comm]
        · simp only [atom, hk, hl, hn, ite_false, throw, throwThe, MonadExceptOf.throw, reduceCtorEq,
            false_and, exists_false, or_false, false_or, false_iff, true_and, List.cons.injEq]
          rintro ⟨_, ⟨rfl, -⟩, hkind, hposition, -⟩
          exact hl ⟨hkind, hposition⟩
    | _ => simp [atom, hk, hn, throw, throwThe, MonadExceptOf.throw]
  | name =>
    by_cases hs : t.isSymbol = true
    · cases ts with
      | nil => simp [atom, hk, hs, pure, Except.pure, eq_comm]
      | cons opening after =>
        by_cases ho : opening.kind = .opening
        · simp [atom, hk, hs, ho]
        · have ho' : TokenKind.opening ≠ opening.kind := fun h => ho h.symm
          simp [atom, hk, hs, ho, ho', pure, Except.pure, eq_comm]
    · simp [atom, hk, hs, throw, throwThe, MonadExceptOf.throw]
  | opening =>
    have hn : ¬t.isSymbol = true := fun h => by simp [hsymbol h] at hk
    simp [atom, hk, hn]
  | _ =>
    have hn : ¬t.isSymbol = true := fun h => by simp [hsymbol h] at hk
    simp [atom, hk, hn, throw, throwThe, MonadExceptOf.throw]

theorem chainFrom_stop {least bound : Nat} {lhs : Operand Float}
    (h : ∀ t, tokens.head? = some t → ∀ o, t.kind = .operator o → o.precedence < least) :
    chainFrom inner least bound lhs tokens = .ok (lhs, tokens) := by
  cases bound with
  | zero => rfl
  | succ bound =>
    cases tokens with
    | nil => rfl
    | cons t ts =>
      rw [chainFrom]
      split
      · rename_i o ho
        rw [if_pos (h t rfl o ho)]
      · rfl

theorem chainFrom_operator {least bound : Nat} {lhs : Operand Float} {t : Token} {o : Operation}
    (ho : t.kind = .operator o) (hleast : ¬o.precedence < least) :
    chainFrom inner least (bound + 1) lhs (t :: tokens) = (do
      let read ← inner t
      let (rhs, rest) ← read o.rightPrecedence tokens
      chainFrom inner least bound (.term o lhs rhs) rest) := by
  rw [chainFrom]
  split
  · rename_i o' ho'
    obtain rfl : o = o' := TokenKind.operator.inj (ho.symm.trans ho')
    rw [if_neg hleast]
  · rename_i hother
    exact absurd ho (hother o)

theorem level_eq_ok {least : Nat} {x : Operand Float} :
    level inner least tokens = .ok (x, rest) ↔
      ∃ lhs after, atom inner tokens = .ok (lhs, after) ∧
        chainFrom inner least after.length lhs after = .ok (x, rest) := by
  simp only [level, bind_eq_ok, Prod.exists]

theorem expression_eq_ok {s : Statement Float} :
    expression read tokens = .ok s ↔ ∃ x, read tokens = .ok (x, []) ∧ s = .expression x := by
  simp only [expression, bind_eq_ok, exists_unit, expectEnd_eq_ok, Prod.exists]
  constructor
  · rintro ⟨x, _, hx, rfl, h⟩
    exact ⟨x, hx, (Except.ok.inj h).symm⟩
  · rintro ⟨x, hx, rfl⟩
    exact ⟨x, _, hx, rfl, rfl⟩

theorem solve_eq_ok {s : Statement Float} :
    solve read tokens = .ok s ↔
      (∃ t ts, tokens = t :: ts ∧ t.kind ≠ .equals) ∧
      ∃ lhs equals after rhs last unknown, read tokens = .ok (lhs, equals :: after) ∧
        equals.kind = .equals ∧ (∃ t ts, after = t :: ts ∧ t.isKeyword "for" = false) ∧
        read after = .ok (rhs, [last, unknown]) ∧ last.isKeyword "for" = true ∧
        unknown.isSymbol = true ∧ s = .solve lhs rhs unknown.text := by
  simp only [solve, bind_eq_ok, exists_unit, expectEnd_eq_ok, expect_eq_ok, require_eq_ok,
    Prod.exists, beq_eq_false_iff_ne, beq_iff_eq]
  refine and_congr_right fun _ => ?_
  constructor
  · rintro ⟨lhs, _, hlhs, equals, after, ⟨rfl, hequals⟩, hfor, rhs, _, hrhs, last, _, ⟨rfl, hlast⟩,
      unknown, _, ⟨rfl, hunknown⟩, rfl, h⟩
    exact ⟨lhs, equals, after, rhs, last, unknown, hlhs, hequals, hfor, hrhs, hlast, hunknown,
      (Except.ok.inj h).symm⟩
  · rintro ⟨lhs, equals, after, rhs, last, unknown, hlhs, hequals, hfor, hrhs, hlast, hunknown, rfl⟩
    exact ⟨lhs, _, hlhs, equals, after, ⟨rfl, hequals⟩, hfor, rhs, _, hrhs, last, _, ⟨rfl, hlast⟩,
      unknown, _, ⟨rfl, hunknown⟩, rfl, rfl⟩

theorem plot_eq_ok {s : Statement Float} :
    plot tokens = .ok s ↔ ∃ name, tokens = [name] ∧ name.isSymbol = true ∧ s = .plot name.text := by
  match tokens with
  | [] => simp [plot]
  | [t] =>
    by_cases ht : t.isSymbol = true
    · rw [plot, if_pos ht]
      constructor
      · intro h
        exact ⟨t, rfl, ht, (Except.ok.inj h).symm⟩
      · rintro ⟨name, he, -, rfl⟩
        obtain ⟨rfl, -⟩ := List.cons.inj he
        rfl
    · simp [plot, ht]
  | t :: _ :: _ => simp [plot]

theorem assigned_eq_ok {missing : Fault} {x : Operand Float} :
    assigned read missing tokens = .ok x ↔
      ∃ assign ts, tokens = assign :: ts ∧ assign.kind = .assign ∧ ts ≠ [] ∧
        read ts = .ok (x, []) := by
  simp only [assigned, expectAssign, bind_eq_ok, exists_unit, expectEnd_eq_ok, expect_eq_ok,
    require_eq_ok, Prod.exists, beq_iff_eq]
  constructor
  · rintro ⟨assign, _, ⟨rfl, hassign⟩, ⟨t, ts, rfl, -⟩, y, _, hy, rfl, h⟩
    obtain rfl : y = x := Except.ok.inj h
    exact ⟨assign, t :: ts, rfl, hassign, by simp, hy⟩
  · rintro ⟨assign, ts, rfl, hassign, hne, hx⟩
    obtain ⟨t, ts, rfl⟩ := List.exists_cons_of_ne_nil hne
    exact ⟨assign, _, ⟨rfl, hassign⟩, ⟨t, ts, rfl, trivial⟩, x, _, hx, rfl, rfl⟩

theorem parameterList_eq_ok {name : String} {params : List String} :
    parameterList name tokens = .ok (params, rest) ↔
      (∃ closing, tokens = closing :: rest ∧ closing.kind = .closing ∧ params = []) ∨
        ((∀ t, tokens.head? = some t → t.kind ≠ .closing) ∧
          parameters name [] tokens = .ok (params, rest)) := by
  cases tokens with
  | nil => simp [parameterList, parameters]
  | cons t ts =>
    simp only [parameterList, List.head?_cons, Option.map_some, Option.some.injEq, List.tail_cons,
      forall_eq']
    split_ifs with ht
    · constructor
      · intro h
        obtain ⟨rfl, rfl⟩ := Prod.mk.inj (Except.ok.inj h)
        exact Or.inl ⟨t, rfl, ht, rfl⟩
      · rintro (⟨closing, he, -, rfl⟩ | ⟨hne, -⟩)
        · obtain ⟨-, rfl⟩ := List.cons.inj he
          rfl
        · exact absurd ht hne
    · constructor
      · exact fun h => Or.inr ⟨ht, h⟩
      · rintro (⟨closing, he, hclosing, -⟩ | ⟨-, h⟩)
        · obtain ⟨rfl, -⟩ := List.cons.inj he
          exact absurd hclosing ht
        · exact h

theorem function_eq_ok {name : String} {s : Statement Float} :
    function read name tokens = .ok s ↔
      ∃ params after body, parameterList name tokens = .ok (params, after) ∧
        assigned read .bodyMissing after = .ok body ∧ s = .definition name params body := by
  simp only [function, bind_eq_ok, Prod.exists]
  refine exists_congr fun params => exists_congr fun after => ?_
  constructor
  · rintro ⟨hparams, body, hbody, h⟩
    exact ⟨body, hparams, hbody, (Except.ok.inj h).symm⟩
  · rintro ⟨body, hparams, hbody, rfl⟩
    exact ⟨hparams, body, hbody, rfl⟩

theorem definition_function {target opening : Token} (htarget : target.isSymbol = true)
    (hopening : opening.kind = .opening) :
    definition read (target :: opening :: tokens) = function read target.text tokens := by
  simp [definition, kind_of_isSymbol htarget, htarget, hopening]

theorem definition_assignment {target : Token} (htarget : target.isSymbol = true)
    (hhead : ∀ t, tokens.head? = some t → t.kind ≠ .opening) :
    definition read (target :: tokens) = (do
      let operand ← assigned read .assignedMissing tokens
      return .assignment target.text operand) := by
  cases tokens with
  | nil => simp [definition, kind_of_isSymbol htarget, htarget]
  | cons t ts => simp [definition, kind_of_isSymbol htarget, htarget, hhead t rfl]

theorem isSymbol_of_definition_eq_ok {target : Token} {s : Statement Float}
    (h : definition read (target :: tokens) = .ok s) : target.isSymbol = true := by
  rw [definition] at h
  split_ifs at h with _ _ hs
  all_goals simpa using hs

theorem definition_eq_ok {s : Statement Float} :
    definition read tokens = .ok s ↔
      ∃ target ts, tokens = target :: ts ∧ target.isSymbol = true ∧
        ((∃ opening after, ts = opening :: after ∧ opening.kind = .opening ∧
            function read target.text after = .ok s) ∨
          ((∀ t, ts.head? = some t → t.kind ≠ .opening) ∧
            ∃ x, assigned read .assignedMissing ts = .ok x ∧
              s = .assignment target.text x)) := by
  cases tokens with
  | nil => simp [definition]
  | cons target ts =>
    constructor
    · intro h
      have htarget := isSymbol_of_definition_eq_ok h
      refine ⟨target, ts, rfl, htarget, ?_⟩
      by_cases hhead : ∀ t, ts.head? = some t → t.kind ≠ .opening
      · rw [definition_assignment htarget hhead] at h
        obtain ⟨x, hx, hs⟩ := bind_eq_ok.mp h
        exact Or.inr ⟨hhead, x, hx, (Except.ok.inj hs).symm⟩
      · cases ts with
        | nil => simp at hhead
        | cons opening after =>
          have hopening : opening.kind = .opening := by simpa using hhead
          rw [definition_function htarget hopening] at h
          exact Or.inl ⟨opening, after, rfl, hopening, h⟩
    · rintro ⟨_, _, he, htarget, ⟨opening, after, rfl, hopening, h⟩ | ⟨hhead, x, hx, rfl⟩⟩
      · rw [he, definition_function htarget hopening]
        exact h
      · rw [he, definition_assignment htarget hhead, hx]
        rfl

end Reader

namespace Statement

theorem tokens_eq_ok {limits : Limits} {source : List Char} {tokens : List Token} :
    Statement.tokens limits source = .ok tokens ↔
      source.length ≤ limits.length ∧ Parenthesis.fault? source = none ∧
        Token.scan source = .ok tokens := by
  unfold Statement.tokens
  by_cases hlength : limits.length < source.length
  · simp [hlength]
  · rw [if_neg hlength]
    cases Parenthesis.fault? source with
    | some position => simp
    | none => simp [mapError_eq_ok, Nat.le_of_not_lt hlength]

theorem checkDepth_eq_ok {limits : Limits} {s : Statement Float} :
    checkDepth limits s = .ok () ↔ ∀ t ∈ s.operands, t.depthByStack ≤ limits.depth := by
  simp [checkDepth, ite_eq_right_iff]

-- A line is read within the bounds or not at all.
theorem parse_eq_ok {source : List Char} {s : Statement Float} :
    parse source = .ok s ↔
      source.length ≤ Limits.standard.length ∧ Parenthesis.fault? source = none ∧
      (∀ t ∈ s.operands, t.depthByStack ≤ Limits.standard.depth) ∧
      ∃ tokens, Token.scan source = .ok tokens ∧
        Reader.ofTokens Limits.standard.depth Limits.standard.budget tokens = .ok s := by
  simp only [parse, mapError_eq_ok, bind_eq_ok, tokens_eq_ok, exists_unit]
  constructor
  · rintro ⟨tokens, ⟨hlength, hbalanced, hscan⟩, s', hread, hdepth, hpure⟩
    obtain rfl := Except.ok.inj hpure
    exact ⟨hlength, hbalanced, checkDepth_eq_ok.mp hdepth, tokens, hscan, hread⟩
  · rintro ⟨hlength, hbalanced, hdepth, tokens, hscan, hread⟩
    exact ⟨tokens, ⟨hlength, hbalanced, hscan⟩, s, hread, checkDepth_eq_ok.mpr hdepth, rfl⟩

end Statement

end Reckon
