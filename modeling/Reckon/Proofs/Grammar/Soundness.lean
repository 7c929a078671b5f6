import Reckon.Proofs.Grammar
import Reckon.Proofs.Reader.Outcome
import Reckon.Proofs.Token.Scan
import Mathlib.Data.List.Induction

namespace Reckon.Grammar

open Reader Token

-- The layer whose operators have at least the given precedence. Past the last operator there are
-- only atoms.
def Level : Nat → List Token → Operand Float → Prop
  | 0 | 1 => Sum
  | 2 => Product
  | 3 => Power
  | _ => Atom

-- The layer of the left operand: a power has an atom there, the others nest to the left.
def leftPrecedence : Operation → Nat
  | .pow => 4
  | o => o.precedence

theorem Level.of_succ {n : Nat} {ts : List Token} {x : Operand Float} (h : Level (n + 1) ts x) :
    Level n ts x := by
  match n with
  | 0 => exact h
  | 1 => exact Sum.product h
  | 2 => exact Product.power h
  | 3 => exact Power.atom h
  | _ + 4 => exact h

theorem Level.weaken {m n : Nat} {ts : List Token} {x : Operand Float} (hmn : m ≤ n)
    (h : Level n ts x) : Level m ts x := by
  induction n with
  | zero =>
    obtain rfl : m = 0 := by omega
    exact h
  | succ n ih =>
    rcases Nat.lt_or_ge n m with hlt | hge
    · obtain rfl : m = n + 1 := by omega
      exact h
    · exact ih hge h.of_succ

theorem Level.of_atom {n : Nat} {ts : List Token} {x : Operand Float} (h : Atom ts x) :
    Level n ts x :=
  Level.weaken (Nat.le_add_right n 4) (show Level (n + 4) ts x from h)

-- One rule for the terms of all layers.
theorem Level.term {o : Operation} {sign : Token} {ls rs : List Token} {l r : Operand Float}
    (hsign : sign.kind = .operator o) (hl : Level (leftPrecedence o) ls l)
    (hr : Level o.rightPrecedence rs r) :
    Level o.precedence (ls ++ sign :: rs) (.term o l r) := by
  cases o with
  | add => exact Sum.term hl hsign (Or.inl rfl) hr
  | sub => exact Sum.term hl hsign (Or.inr rfl) hr
  | mul => exact Product.term hl hsign (Or.inl rfl) hr
  | div => exact Product.term hl hsign (Or.inr (Or.inl rfl)) hr
  | rem => exact Product.term hl hsign (Or.inr (Or.inr rfl)) hr
  | pow => exact Power.term hl hsign hr

-- No operator of at least the given precedence comes next.
def Stops (least : Nat) (tokens : List Token) : Prop :=
  ∀ t, tokens.head? = some t → ∀ o, t.kind = .operator o → o.precedence < least

-- A term may be the left operand of every operator at which its right operand stops.
theorem leftPrecedence_le {o next : Operation} (h : next.precedence < o.rightPrecedence) :
    leftPrecedence next ≤ o.precedence := by
  cases o <;> cases next <;> revert h <;> decide

-- A reader of operands that follows the grammar at every level.
def Sound (read : Nat → Step (Operand Float)) : Prop :=
  ∀ least tokens x rest, Numeric tokens → read least tokens = .ok (x, rest) →
    ∃ ts, tokens = ts ++ rest ∧ Level least ts x ∧ Stops least rest

theorem literal_of_number {negative : Bool} {t : Token} {x : Operand Float}
    (hkind : t.kind = .number) (hlexeme : Number.Lexeme t.text.toList)
    (h : number negative t = .ok x) :
    ∃ value, Literal t value ∧ x = .number (if negative then -value else value) := by
  obtain ⟨value, hvalue, rfl⟩ := number_eq_ok.mp h
  rw [Number.readUnsigned?_lexeme hlexeme] at hvalue
  split_ifs at hvalue with hpoints
  exact ⟨value, ⟨hkind, hpoints, (Option.some.inj hvalue).symm⟩, rfl⟩

section Inner

variable {inner : Inner}

theorem arguments_sound {read : Nat → Step (Operand Float)} (hread : Sound read) {name : Token}
    {bound : Nat} {tokens rest : List Token} {args : List (Operand Float)}
    (hnumeric : Numeric tokens)
    (h : arguments (read 1) name bound tokens = .ok (args, rest)) :
    ∃ ts closing, tokens = ts ++ closing :: rest ∧ closing.kind = .closing ∧
      Arguments ts args := by
  induction bound generalizing tokens args with
  | zero => simp [arguments] at h
  | succ bound ih =>
    obtain ⟨-, arg, separator, after, harg, hafter⟩ := arguments_succ_eq_ok.mp h
    obtain ⟨ts, rfl, hts, -⟩ := hread 1 tokens arg _ hnumeric harg
    rcases hafter with ⟨hclosing, rfl, rfl⟩ | ⟨more, hcomma, hmore, rfl⟩
    · exact ⟨ts, separator, rfl, hclosing, .last hts⟩
    · have hrest : Numeric after := by
        simp only [numeric_append, numeric_cons] at hnumeric
        exact hnumeric.2.2
      obtain ⟨us, closing, rfl, hclosing, hus⟩ := ih hrest hmore
      exact ⟨ts ++ separator :: us, closing, by simp, hclosing, .more hts hcomma hus⟩

theorem atom_sound (hinner : ∀ t read, inner t = .ok read → Sound read)
    {tokens rest : List Token} {x : Operand Float} (hnumeric : Numeric tokens)
    (h : atom inner tokens = .ok (x, rest)) : ∃ ts, tokens = ts ++ rest ∧ Atom ts x := by
  cases tokens with
  | nil => simp [atom, throw, throwThe, MonadExceptOf.throw] at h
  | cons t tokens =>
    obtain ⟨hlexeme, hnumeric⟩ := numeric_cons.mp hnumeric
    rcases atom_eq_ok.mp h with ⟨hkind, hx, rfl⟩ | ⟨literal, hkind, rfl, hliteral, hposition, hx⟩ |
      ⟨hsymbol, -, rfl, rfl⟩ | ⟨opening, after, hsymbol, rfl, hopening, hcall⟩ | ⟨hopening, hgroup⟩
    · obtain ⟨value, hvalue, rfl⟩ := literal_of_number hkind (hlexeme hkind) hx
      exact ⟨[t], rfl, .number hvalue⟩
    · obtain ⟨hlexeme, -⟩ := numeric_cons.mp hnumeric
      obtain ⟨value, hvalue, rfl⟩ := literal_of_number hliteral (hlexeme hliteral) hx
      exact ⟨[t, literal], rfl, .negative ⟨hkind, hposition⟩ hvalue⟩
    · exact ⟨[t], rfl, .symbol hsymbol⟩
    · obtain ⟨-, hafter⟩ := numeric_cons.mp hnumeric
      obtain ⟨read, hread, hcases⟩ := call_eq_ok.mp hcall
      rcases hcases with ⟨closing, rfl, hclosing, rfl⟩ | ⟨args, hargs, rfl⟩
      · exact ⟨[t, opening, closing], rfl, .emptyCall hsymbol hopening hclosing⟩
      · obtain ⟨ts, closing, rfl, hclosing, hts⟩ :=
          arguments_sound (hinner _ _ hread) hafter hargs
        exact ⟨t :: opening :: (ts ++ [closing]), by simp, .call hsymbol hopening hts hclosing⟩
    · obtain ⟨read, closing, hread, hx, hclosing⟩ := group_eq_ok.mp hgroup
      obtain ⟨ts, rfl, hts, -⟩ := hinner _ _ hread 1 tokens x _ hnumeric hx
      exact ⟨t :: (ts ++ [closing]), by simp, .group hopening hts hclosing⟩

-- The invariant of the loop: what has been read so far is on the layer of the loop, and it may be
-- the left operand of whichever operator the loop takes next.
theorem chainFrom_sound (hinner : ∀ t read, inner t = .ok read → Sound read)
    {least bound : Nat} {lhs x : Operand Float} {ls tokens rest : List Token}
    (hnumeric : Numeric tokens) (hbound : tokens.length ≤ bound) (hlhs : Level least ls lhs)
    (hleft : ∀ t, tokens.head? = some t → ∀ o, t.kind = .operator o →
      Level (leftPrecedence o) ls lhs)
    (h : chainFrom inner least bound lhs tokens = .ok (x, rest)) :
    ∃ ts, tokens = ts ++ rest ∧ Level least (ls ++ ts) x ∧ Stops least rest := by
  induction bound generalizing lhs ls tokens with
  | zero =>
    obtain rfl : tokens = [] := List.length_eq_zero_iff.mp (by omega)
    obtain ⟨rfl, rfl⟩ := Prod.mk.inj (Except.ok.inj h)
    exact ⟨[], rfl, by simpa using hlhs, by simp [Stops]⟩
  | succ bound ih =>
    by_cases hstops : Stops least tokens
    · rw [chainFrom_stop hstops] at h
      obtain ⟨rfl, rfl⟩ := Prod.mk.inj (Except.ok.inj h)
      exact ⟨[], rfl, by simpa using hlhs, hstops⟩
    · simp only [Stops, not_forall] at hstops
      obtain ⟨t, hhead, o, ho, hleast⟩ := hstops
      obtain ⟨after, rfl⟩ := List.head?_eq_some_iff.mp hhead
      rw [chainFrom_operator ho hleast] at h
      simp only [bind_eq_ok, Prod.exists] at h
      obtain ⟨read, hread, rhs, next, hrhs, h⟩ := h
      obtain ⟨-, hnumeric⟩ := numeric_cons.mp hnumeric
      obtain ⟨rs, rfl, hrs, hnext⟩ := hinner _ _ hread _ _ _ _ hnumeric hrhs
      have hterm := Level.term ho (hleft t rfl o ho) hrs
      have hlength : next.length ≤ bound := by
        simp only [List.length_cons, List.length_append] at hbound
        omega
      obtain ⟨ts, rfl, hts, hrest⟩ := ih (numeric_append.mp hnumeric).2 hlength
        (hterm.weaken (by omega))
        (fun t' ht' o' ho' => hterm.weaken (leftPrecedence_le (hnext t' ht' o' ho'))) h
      exact ⟨t :: (rs ++ ts), by simp, by simpa using hts, hrest⟩

theorem level_sound (hinner : ∀ t read, inner t = .ok read → Sound read) :
    Sound (level inner) := by
  intro least tokens x rest hnumeric h
  obtain ⟨lhs, after, hatom, hchain⟩ := level_eq_ok.mp h
  obtain ⟨ls, rfl, hls⟩ := atom_sound hinner hnumeric hatom
  obtain ⟨ts, rfl, hts, hrest⟩ := chainFrom_sound hinner (numeric_append.mp hnumeric).2
    (Nat.le_refl _) (Level.of_atom hls) (fun _ _ _ _ => Level.of_atom hls) hchain
  exact ⟨ls ++ ts, by simp, hts, hrest⟩

end Inner

theorem operand_sound (limit budget : Nat) : Sound (operand limit budget) := by
  induction budget with
  | zero =>
    refine level_sound fun t read h => ?_
    simp at h
  | succ budget ih =>
    refine level_sound fun t read h => ?_
    obtain rfl : operand limit budget = read := Except.ok.inj h
    exact ih

-- Names that have been seen do not come again.
theorem parameters_sound {function : String} {seen params : List String}
    {tokens rest : List Token} (h : parameters function seen tokens = .ok (params, rest)) :
    ∃ ts closing names, tokens = ts ++ closing :: rest ∧ closing.kind = .closing ∧
      Parameters ts names ∧ params = seen ++ names ∧ names.Nodup ∧ ∀ n ∈ names, n ∉ seen := by
  induction tokens using List.twoStepInduction generalizing seen with
  | nil => simp [parameters] at h
  | singleton t =>
    rw [parameters] at h
    split_ifs at h
  | cons_cons t separator tokens ih _ =>
    rw [parameters] at h
    split_ifs at h with hsymbol hseen
    have hnew : t.text ∉ seen := by simpa using hseen
    have hname : t.isSymbol = true := by simpa using hsymbol
    cases hkind : separator.kind with
    | closing =>
      rw [hkind] at h
      obtain ⟨rfl, rfl⟩ := Prod.mk.inj (Except.ok.inj h)
      exact ⟨[t], separator, [t.text], rfl, hkind, .last hname, rfl, by simp, by simpa using hnew⟩
    | comma =>
      rw [hkind] at h
      obtain ⟨ts, closing, names, rfl, hclosing, hts, rfl, hnodup, hfresh⟩ := ih h
      have hnames : ∀ n ∈ names, n ∉ seen ∧ n ≠ t.text := by
        intro n hn
        simpa using hfresh n hn
      refine ⟨t :: separator :: ts, closing, t.text :: names, rfl, hclosing, .more hname hkind hts,
        by simp, List.nodup_cons.mpr ⟨fun hm => (hnames _ hm).2 rfl, hnodup⟩, ?_⟩
      intro n hn
      rcases List.mem_cons.mp hn with rfl | hn
      · exact hnew
      · exact (hnames n hn).1
    | _ =>
      rw [hkind] at h
      simp at h

theorem parameterList_sound {name : String} {params : List String} {tokens rest : List Token}
    (h : parameterList name tokens = .ok (params, rest)) :
    ∃ ts closing, tokens = ts ++ closing :: rest ∧ closing.kind = .closing ∧
      ParameterList ts params := by
  rcases parameterList_eq_ok.mp h with ⟨closing, rfl, hclosing, rfl⟩ | ⟨-, hparams⟩
  · exact ⟨[], closing, rfl, hclosing, .empty⟩
  · obtain ⟨ts, closing, names, rfl, hclosing, hts, rfl, hnodup, -⟩ := parameters_sound hparams
    exact ⟨ts, closing, rfl, hclosing, .names hts hnodup⟩

theorem Sound.sum {read : Nat → Step (Operand Float)} (hread : Sound read)
    {tokens rest : List Token} {x : Operand Float} (hnumeric : Numeric tokens)
    (h : read 1 tokens = .ok (x, rest)) : ∃ ts, tokens = ts ++ rest ∧ Sum ts x := by
  obtain ⟨ts, hts, hx, -⟩ := hread 1 tokens x rest hnumeric h
  exact ⟨ts, hts, hx⟩

theorem assigned_sound {read : Nat → Step (Operand Float)} (hread : Sound read) {missing : Fault}
    {tokens : List Token} {x : Operand Float} (hnumeric : Numeric tokens)
    (h : assigned (read 1) missing tokens = .ok x) :
    ∃ assign ts, tokens = assign :: ts ∧ assign.kind = .assign ∧ Sum ts x := by
  obtain ⟨assign, ts, rfl, hassign, -, hx⟩ := assigned_eq_ok.mp h
  obtain ⟨ts, rfl, hts⟩ := hread.sum (numeric_cons.mp hnumeric).2 hx
  exact ⟨assign, _, rfl, hassign, by simpa using hts⟩

theorem solve_sound {read : Nat → Step (Operand Float)} (hread : Sound read) {head : Token}
    {tokens : List Token} {s : Statement Float} (hnumeric : Numeric tokens)
    (hhead : head.isKeyword "solve" = true) (h : solve (read 1) tokens = .ok s) :
    Line (head :: tokens) s := by
  obtain ⟨-, l, equals, after, r, last, unknown, hl, hequals, -, hr, hlast, hunknown, rfl⟩ :=
    solve_eq_ok.mp h
  obtain ⟨ls, rfl, hls⟩ := hread.sum hnumeric hl
  simp only [numeric_append, numeric_cons] at hnumeric
  obtain ⟨rs, rfl, hrs⟩ := hread.sum hnumeric.2.2 hr
  exact .solve hhead hls hequals hrs hlast hunknown

theorem definition_sound {read : Nat → Step (Operand Float)} (hread : Sound read)
    {tokens : List Token} {s : Statement Float} (hnumeric : Numeric tokens)
    (h : definition (read 1) tokens = .ok s) : Line tokens s := by
  obtain ⟨target, ts, rfl, htarget, hcases⟩ := definition_eq_ok.mp h
  have hts := (numeric_cons.mp hnumeric).2
  rcases hcases with ⟨opening, after, rfl, hopening, hfunction⟩ | ⟨-, x, hx, rfl⟩
  · obtain ⟨params, rest, body, hparams, hbody, rfl⟩ := function_eq_ok.mp hfunction
    obtain ⟨ps, closing, rfl, hclosing, hps⟩ := parameterList_sound hparams
    simp only [numeric_append, numeric_cons] at hts
    obtain ⟨assign, us, rfl, hassign, hus⟩ := assigned_sound hread hts.2.2.2 hbody
    exact .definition htarget hopening hps hclosing hassign hus
  · obtain ⟨assign, us, rfl, hassign, hus⟩ := assigned_sound hread hts hx
    exact .assignment htarget hassign hus

-- Every statement that is read is derived from all tokens of the line.
theorem line_sound {limit budget : Nat} {tokens : List Token} {s : Statement Float}
    (hnumeric : Numeric tokens) (h : ofTokens limit budget tokens = .ok s) : Line tokens s := by
  have hread := operand_sound limit budget
  cases tokens with
  | nil => simp [ofTokens, statement] at h
  | cons t ts =>
    have hts := (numeric_cons.mp hnumeric).2
    rw [ofTokens, statement] at h
    split_ifs at h with hsolve hplot hassign hkeyword
    · exact solve_sound hread hts hsolve h
    · obtain ⟨name, rfl, hname, rfl⟩ := plot_eq_ok.mp h
      exact .plot hplot hname
    · exact definition_sound hread hnumeric h
    · obtain ⟨x, hx, rfl⟩ := expression_eq_ok.mp h
      obtain ⟨us, hus, hx⟩ := hread.sum hnumeric hx
      rw [List.append_nil] at hus
      exact .expression (hus ▸ hx)

end Reckon.Grammar
