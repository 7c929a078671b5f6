import Reckon.Proofs.Reader.Outcome

namespace Reckon.Reader

variable {read : Step (Operand Float)} {inner : Inner} {tokens : List Token} {e : Fault}

theorem expect_eq_error {accepted : Token → Bool} {missing : Option Token → Fault} :
    expect accepted missing tokens = .error e ↔
      (∀ t, tokens.head? = some t → accepted t = false) ∧ e = missing tokens.head? := by
  cases tokens with
  | nil => simp [expect, @eq_comm _ e]
  | cons t ts => cases h : accepted t <;> simp [expect, h, @eq_comm _ e]

theorem require_eq_error {refused : Token → Bool} {missing : Option Token → Fault} :
    require refused missing tokens = .error e ↔
      (∀ t, tokens.head? = some t → refused t = true) ∧ e = missing tokens.head? := by
  cases tokens with
  | nil => simp [require, @eq_comm _ e]
  | cons t ts => cases h : refused t <;> simp [require, h, @eq_comm _ e]

theorem expectEnd_eq_error :
    expectEnd tokens = .error e ↔ ∃ t rest, tokens = t :: rest ∧ e = leftover t := by
  cases tokens <;> simp [expectEnd, @eq_comm _ e]

theorem number_eq_error {negative : Bool} {t : Token} :
    number negative t = .error e ↔
      Number.readUnsigned? t.text.toList = none ∧ e = .invalidNumber negative t := by
  cases h : Number.readUnsigned? t.text.toList <;> simp [number, h, @eq_comm _ e]

-- A last step that only puts a result together does not fail.

theorem map_eq_error {β γ : Type} {r : Except Fault β} {f : β → γ} :
    f <$> r = .error e ↔ r = .error e := by
  cases r <;> simp [Functor.map, Except.map]

theorem bind_pure_eq_error {β γ : Type} {r : Except Fault β} {f : β → γ} :
    (r >>= fun b => pure (f b)) = .error e ↔ r = .error e := by
  rw [bind_pure_comp, map_eq_error]

theorem group_eq_error {opening : Token} :
    group inner opening tokens = .error e ↔
      inner opening = .error e ∨ ∃ read, inner opening = .ok read ∧
        (read 1 tokens = .error e ∨ ∃ x after, read 1 tokens = .ok (x, after) ∧
          (∀ t, after.head? = some t → t.kind ≠ .closing) ∧
          e = after.head?.elim (.unclosedGroup opening none) leftover) := by
  simp only [group, bind_eq_error, expect_eq_error, Prod.exists, beq_eq_false_iff_ne, pure,
    Except.pure, reduceCtorEq, and_false, exists_false, or_false]

-- A list of arguments fails at one that is missing, inside of one, or at what stands behind it.
theorem arguments_succ_eq_error {name : Token} {bound : Nat} :
    arguments read name (bound + 1) tokens = .error e ↔
      ((∀ t, tokens.head? = some t → t.kind = .comma ∨ t.kind = .closing) ∧
        e = argumentMissing tokens.head?) ∨
      (∃ t ts, tokens = t :: ts ∧ t.kind ≠ .comma ∧ t.kind ≠ .closing) ∧
        (read tokens = .error e ∨ ∃ arg after, read tokens = .ok (arg, after) ∧
          (((∀ t, after.head? = some t → t.kind ≠ .comma ∧ t.kind ≠ .closing) ∧
            e = after.head?.elim (.unclosedCall name none) leftover) ∨
          ∃ comma rest, after = comma :: rest ∧ comma.kind = .comma ∧
            arguments read name bound rest = .error e)) := by
  rw [arguments]
  simp only [bind_eq_error, exists_unit, require_eq_error, require_eq_ok, expect_eq_error,
    expect_eq_ok, Prod.exists, Bool.or_eq_true, Bool.or_eq_false_iff, beq_iff_eq,
    beq_eq_false_iff_ne]
  refine or_congr_right (and_congr_right fun _ => or_congr_right ?_)
  refine exists_congr fun arg => exists_congr fun after => and_congr_right fun _ =>
    or_congr_right ?_
  constructor
  · rintro ⟨separator, rest, ⟨rfl, -⟩, h⟩
    split_ifs at h with hcomma
    · exact ⟨separator, rest, rfl, hcomma, bind_pure_eq_error.mp h⟩
    · cases h
  · rintro ⟨comma, rest, rfl, hcomma, h⟩
    exact ⟨comma, rest, ⟨rfl, .inl hcomma⟩, by simpa only [hcomma, ite_true, bind_pure_eq_error]⟩

theorem call_eq_error {name opening : Token} :
    call inner name opening tokens = .error e ↔
      inner opening = .error e ∨ ∃ read, inner opening = .ok read ∧
        (∀ t, tokens.head? = some t → t.kind ≠ .closing) ∧
        arguments (read 1) name tokens.length tokens = .error e := by
  simp only [call, bind_eq_error]
  refine or_congr_right (exists_congr fun read => and_congr_right fun _ => ?_)
  by_cases hclosing : (tokens.head?.map Token.kind) = some .closing
  · obtain ⟨t, ht, hkind⟩ := Option.map_eq_some_iff.mp hclosing
    rw [if_pos hclosing]
    constructor
    · intro h
      cases h
    · exact fun h => absurd hkind (h.1 t ht)
  · have hhead : ∀ t, tokens.head? = some t → t.kind ≠ .closing :=
      fun t ht hkind => hclosing (by rw [ht, Option.map_some, hkind])
    rw [if_neg hclosing]
    exact bind_pure_eq_error.trans ⟨fun h => ⟨hhead, h⟩, And.right⟩

-- A token at which no atom starts. A minus starts one only if it touches a number.
def NoAtom (t : Token) (ts : List Token) : Prop :=
  t.kind ≠ .number ∧ t.isSymbol = false ∧ t.kind ≠ .opening ∧
    (t.kind = .operator .sub → ∀ literal, ts.head? = some literal → literal.kind = .number →
      literal.position ≠ t.position + 1)

theorem atom_eq_error {t : Token} {ts : List Token} :
    atom inner (t :: ts) = .error e ↔
      (t.kind = .number ∧ number false t = .error e) ∨
      (∃ literal rest, t.kind = .operator .sub ∧ ts = literal :: rest ∧ literal.kind = .number ∧
        literal.position = t.position + 1 ∧ number true literal = .error e) ∨
      (∃ opening after, t.isSymbol = true ∧ ts = opening :: after ∧ opening.kind = .opening ∧
        call inner t opening after = .error e) ∨
      (t.kind = .opening ∧ group inner t ts = .error e) ∨
      (NoAtom t ts ∧ e = .operandExpected (some t)) := by
  have hsymbol : t.isSymbol = true → t.kind = .name := kind_of_isSymbol
  cases hk : t.kind with
  | number =>
    have hn : ¬t.isSymbol = true := fun h => by simp [hsymbol h] at hk
    simp [atom, hk, hn, NoAtom, map_eq_error]
  | operator o =>
    have hn : ¬t.isSymbol = true := fun h => by simp [hsymbol h] at hk
    cases o with
    | sub =>
      cases ts with
      | nil => simp [atom, hk, hn, NoAtom, throw, throwThe, MonadExceptOf.throw, @eq_comm _ e]
      | cons literal after =>
        by_cases hl : literal.kind = .number ∧ literal.position = t.position + 1
        · simp [atom, hk, hn, hl, NoAtom, map_eq_error]
        · have hno : literal.kind = .number → literal.position ≠ t.position + 1 :=
            fun h h' => hl ⟨h, h'⟩
          simp only [atom, hk, hl, ite_false, throw, throwThe, MonadExceptOf.throw, NoAtom, hn]
          constructor
          · intro h
            exact .inr (.inr (.inr (.inr ⟨by simpa using hno, (Except.error.inj h).symm⟩)))
          · rintro (⟨h, -⟩ | ⟨l, _, -, he, hkind, hposition, -⟩ | ⟨_, _, h, -⟩ | ⟨h, -⟩ | ⟨-, rfl⟩)
            · cases h
            · obtain ⟨rfl, rfl⟩ := List.cons.inj he
              exact absurd hposition (hno hkind)
            · cases h
            · cases h
            · rfl
    | _ => simp [atom, hk, hn, NoAtom, throw, throwThe, MonadExceptOf.throw, @eq_comm _ e]
  | name =>
    by_cases hs : t.isSymbol = true
    · cases ts with
      | nil => simp [atom, hk, hs, NoAtom, pure, Except.pure]
      | cons opening after =>
        by_cases ho : opening.kind = .opening
        · simp [atom, hk, hs, ho, NoAtom]
        · have ho' : TokenKind.opening ≠ opening.kind := fun h => ho h.symm
          simp [atom, hk, hs, ho, NoAtom, pure, Except.pure]
    · simp [atom, hk, hs, NoAtom, throw, throwThe, MonadExceptOf.throw, @eq_comm _ e]
  | opening =>
    have hn : ¬t.isSymbol = true := fun h => by simp [hsymbol h] at hk
    simp [atom, hk, hn, NoAtom]
  | _ =>
    have hn : ¬t.isSymbol = true := fun h => by simp [hsymbol h] at hk
    simp [atom, hk, hn, NoAtom, throw, throwThe, MonadExceptOf.throw, @eq_comm _ e]

theorem chainFrom_operator_of_ok {least bound : Nat} {lhs rhs : Operand Float} {t : Token}
    {o : Operation} {read : Nat → Step (Operand Float)} {rest : List Token}
    (ho : t.kind = .operator o) (hleast : ¬o.precedence < least) (hread : inner t = .ok read)
    (hrhs : read o.rightPrecedence tokens = .ok (rhs, rest)) :
    chainFrom inner least (bound + 1) lhs (t :: tokens) =
      chainFrom inner least bound (.term o lhs rhs) rest := by
  rw [chainFrom_operator ho hleast, hread, ok_bind, hrhs, ok_bind]

theorem chainFrom_operator_eq_error {least bound : Nat} {lhs : Operand Float} {t : Token}
    {o : Operation} (ho : t.kind = .operator o) (hleast : ¬o.precedence < least) :
    chainFrom inner least (bound + 1) lhs (t :: tokens) = .error e ↔
      inner t = .error e ∨ ∃ read, inner t = .ok read ∧
        (read o.rightPrecedence tokens = .error e ∨ ∃ rhs rest,
          read o.rightPrecedence tokens = .ok (rhs, rest) ∧
          chainFrom inner least bound (.term o lhs rhs) rest = .error e) := by
  simp only [chainFrom_operator ho hleast, bind_eq_error, Prod.exists]

theorem level_eq_error {least : Nat} :
    level inner least tokens = .error e ↔
      atom inner tokens = .error e ∨ ∃ lhs after, atom inner tokens = .ok (lhs, after) ∧
        chainFrom inner least after.length lhs after = .error e := by
  simp only [level, bind_eq_error, Prod.exists]

theorem expression_eq_error :
    expression read tokens = .error e ↔ read tokens = .error e ∨
      ∃ x t rest, read tokens = .ok (x, t :: rest) ∧ e = leftover t := by
  simp only [expression, bind_eq_error, expectEnd_eq_error, Prod.exists, pure, Except.pure,
    reduceCtorEq, and_false, exists_false, or_false]
  refine or_congr_right (exists_congr fun x => ?_)
  constructor
  · rintro ⟨_, hx, t, rest, rfl, rfl⟩
    exact ⟨t, rest, hx, rfl⟩
  · rintro ⟨t, rest, hx, rfl⟩
    exact ⟨_, hx, t, rest, rfl, rfl⟩

end Reckon.Reader

namespace Reckon.Statement

theorem mapError_eq_error {β ε δ : Type} {f : ε → δ} {x : Except ε β} {e : δ} :
    x.mapError f = .error e ↔ ∃ e', e = f e' ∧ x = .error e' := by
  cases x <;> simp [Except.mapError, @eq_comm _ e]

-- A line that is not read at all is too long, or not balanced, or cannot be cut into tokens.
theorem tokens_error_cases {limits : Limits} {source : List Char} {e : Fault}
    (h : tokens limits source = .error e) :
    e = .tooLong limits.length ∨
      (∃ p, Parenthesis.fault? source = some p ∧ e = .unbalanced p) ∨
      ∃ s, Token.scan source = .error s ∧ e = .stray s := by
  unfold tokens at h
  split_ifs at h
  · exact .inl (Except.error.inj h).symm
  · cases hfault : Parenthesis.fault? source with
    | some p =>
      rw [hfault] at h
      exact .inr (.inl ⟨p, rfl, (Except.error.inj h).symm⟩)
    | none =>
      rw [hfault] at h
      obtain ⟨s, rfl, hs⟩ := mapError_eq_error.mp h
      exact .inr (.inr ⟨s, hs, rfl⟩)

theorem checkDepth_eq_error {limits : Limits} {s : Statement Float} {e : Fault} :
    checkDepth limits s = .error e ↔
      (∃ t ∈ s.operands, limits.depth < t.depthByStack) ∧ e = .tooDeep limits.depth none := by
  unfold checkDepth
  split_ifs with h
  · simpa [@eq_comm _ e] using fun _ => by simpa using h
  · simpa using fun t ht hdeep => absurd (List.any_eq_true.mpr ⟨t, ht, by simpa using hdeep⟩) h

-- A line fails before it is read, while it is read, or for the depth of what has been read.
theorem parse_eq_error {source : List Char} {e : SyntaxError} :
    parse source = .error e ↔ ∃ fault, e = ⟨source, fault⟩ ∧
      (tokens Limits.standard source = .error fault ∨
        ∃ ts, tokens Limits.standard source = .ok ts ∧
          (Reader.ofTokens Limits.standard.depth Limits.standard.budget ts = .error fault ∨
            ∃ s, Reader.ofTokens Limits.standard.depth Limits.standard.budget ts = .ok s ∧
              (∃ t ∈ s.operands, Limits.standard.depth < t.depthByStack) ∧
              fault = .tooDeep Limits.standard.depth none)) := by
  simp only [parse, mapError_eq_error, bind_eq_error, checkDepth_eq_error, pure, Except.pure,
    reduceCtorEq, and_false, exists_false, or_false]

end Reckon.Statement
