import Reckon.Proofs.Grammar.Soundness
/-!
What the grammar derives is read, if the budget of levels is large enough for it. How much that is
may be told in more than one way; that the budget is as large as the line is long will do. The
proof goes down the left edge of a sum or product, as the loop of the reader does.
-/
namespace Reckon.Grammar

open Reader Token

-- A token that can be the first of an operand.
def StartsOperand (t : Token) : Prop :=
  t.kind = .number ∨ t.kind = .operator .sub ∨ t.isSymbol = true ∨ t.kind = .opening

theorem Atom.exists_head {ts : List Token} {x : Operand Float} (h : Atom ts x) :
    ∃ t us, ts = t :: us ∧ StartsOperand t := by
  cases h with
  | number h => exact ⟨_, _, rfl, Or.inl h.kind⟩
  | negative h _ => exact ⟨_, _, rfl, Or.inr (Or.inl h.kind)⟩
  | symbol h => exact ⟨_, _, rfl, Or.inr (Or.inr (Or.inl h))⟩
  | call h _ _ _ => exact ⟨_, _, rfl, Or.inr (Or.inr (Or.inl h))⟩
  | emptyCall h _ _ => exact ⟨_, _, rfl, Or.inr (Or.inr (Or.inl h))⟩
  | group h _ _ => exact ⟨_, _, rfl, Or.inr (Or.inr (Or.inr h))⟩

theorem Power.exists_head {ts : List Token} {x : Operand Float} (h : Power ts x) :
    ∃ t us, ts = t :: us ∧ StartsOperand t := by
  cases h with
  | atom h => exact h.exists_head
  | term h _ _ =>
    obtain ⟨t, us, rfl, ht⟩ := h.exists_head
    exact ⟨t, _, rfl, ht⟩

theorem Product.exists_head {ts : List Token} {x : Operand Float} (h : Product ts x) :
    ∃ t us, ts = t :: us ∧ StartsOperand t := by
  induction h using Product.left_induction with
  | power h => exact h.exists_head
  | term _ _ _ _ ih =>
    obtain ⟨t, us, rfl, ht⟩ := ih
    exact ⟨t, _, rfl, ht⟩

theorem Sum.exists_head {ts : List Token} {x : Operand Float} (h : Sum ts x) :
    ∃ t us, ts = t :: us ∧ StartsOperand t := by
  induction h using Sum.left_induction with
  | product h => exact h.exists_head
  | term _ _ _ _ ih =>
    obtain ⟨t, us, rfl, ht⟩ := ih
    exact ⟨t, _, rfl, ht⟩

theorem not_isKeyword_of_isSymbol {t : Token} {word : String} (h : t.isSymbol = true)
    (hword : word ∈ keywords) : t.isKeyword word = false := by
  simp only [isSymbol, Bool.and_eq_true, Bool.not_eq_true', List.contains_eq_mem,
    decide_eq_false_iff_not] at h
  have hne : t.text ≠ word := fun he => h.2 (he ▸ hword)
  simp [isKeyword, hne]

theorem StartsOperand.not_isKeyword {t : Token} {word : String} (h : StartsOperand t)
    (hword : word ∈ keywords) : t.isKeyword word = false := by
  rcases h with h | h | h | h
  · simp [isKeyword, h]
  · simp [isKeyword, h]
  · exact not_isKeyword_of_isSymbol h hword
  · simp [isKeyword, h]

theorem StartsOperand.kind_ne {t : Token} (h : StartsOperand t) :
    t.kind ≠ .comma ∧ t.kind ≠ .closing ∧ t.kind ≠ .equals ∧ t.kind ≠ .assign := by
  rcases h with h | h | h | h
  · simp [h]
  · simp [h]
  · simp [kind_of_isSymbol h]
  · simp [h]

-- No operand holds a `:=`.
def NoAssign (ts : List Token) : Prop := ∀ t ∈ ts, t.kind ≠ .assign

theorem noAssign_append {ts us : List Token} :
    NoAssign (ts ++ us) ↔ NoAssign ts ∧ NoAssign us := by
  simp only [NoAssign, List.mem_append, or_imp, forall_and]

theorem noAssign_cons {t : Token} {ts : List Token} :
    NoAssign (t :: ts) ↔ t.kind ≠ .assign ∧ NoAssign ts := by
  simp only [NoAssign, List.mem_cons, or_imp, forall_and, forall_eq]

theorem noAssign_nil : NoAssign [] := by simp [NoAssign]

theorem noAssign_term {ls rs : List Token} {sign : Token} {o : Operation} (hl : NoAssign ls)
    (hsign : sign.kind = .operator o) (hr : NoAssign rs) : NoAssign (ls ++ sign :: rs) :=
  noAssign_append.mpr ⟨hl, noAssign_cons.mpr ⟨by simp [hsign], hr⟩⟩

mutual

theorem Sum.noAssign {ts : List Token} {x : Operand Float} : Sum ts x → NoAssign ts
  | .product h => h.noAssign
  | .term hl hsign _ hr => noAssign_term hl.noAssign hsign hr.noAssign

theorem Product.noAssign {ts : List Token} {x : Operand Float} : Product ts x → NoAssign ts
  | .power h => h.noAssign
  | .term hl hsign _ hr => noAssign_term hl.noAssign hsign hr.noAssign

theorem Power.noAssign {ts : List Token} {x : Operand Float} : Power ts x → NoAssign ts
  | .atom h => h.noAssign
  | .term hl hsign hr => noAssign_term hl.noAssign hsign hr.noAssign

theorem Atom.noAssign {ts : List Token} {x : Operand Float} : Atom ts x → NoAssign ts
  | .number h => noAssign_cons.mpr ⟨by simp [h.kind], noAssign_nil⟩
  | .negative h h' =>
    noAssign_cons.mpr ⟨by simp [h.kind], noAssign_cons.mpr ⟨by simp [h'.kind], noAssign_nil⟩⟩
  | .symbol h => noAssign_cons.mpr ⟨by simp [kind_of_isSymbol h], noAssign_nil⟩
  | .call h hopening hargs hclosing => by
    simp [noAssign_cons, noAssign_append, noAssign_nil, kind_of_isSymbol h, hopening, hclosing,
      hargs.noAssign]
  | .emptyCall h hopening hclosing => by
    simp [noAssign_cons, noAssign_nil, kind_of_isSymbol h, hopening, hclosing]
  | .group hopening hx hclosing => by
    simp [noAssign_cons, noAssign_append, noAssign_nil, hopening, hclosing, hx.noAssign]

theorem Arguments.noAssign {ts : List Token} {args : List (Operand Float)} :
    Arguments ts args → NoAssign ts
  | .last h => h.noAssign
  | .more h hcomma hargs =>
    noAssign_append.mpr ⟨h.noAssign, noAssign_cons.mpr ⟨by simp [hcomma], hargs.noAssign⟩⟩

end

-- What comes next does not turn a symbol into a call.
def NotOpening (tokens : List Token) : Prop :=
  ∀ t, tokens.head? = some t → t.kind ≠ .opening

-- A reader of operands that accepts what the grammar derives, as far as it fits.
def Complete (fits : List Token → Operand Float → Prop) (read : Nat → Step (Operand Float)) :
    Prop :=
  ∀ least ts x rest, fits ts x → Numeric ts → Level least ts x → Stops least rest →
    NotOpening rest → read least (ts ++ rest) = .ok (x, rest)

-- What fits into a budget of levels. A right operand, a group and the arguments of a call are one
-- level further in.
structure Levelled (fits : Nat → List Token → Operand Float → Prop)
    (allFit : Nat → List Token → List (Operand Float) → Prop) : Prop where
  pos {ts : List Token} {x : Operand Float} : Sum ts x → ¬fits 0 ts x
  left {size : Nat} {ls rs : List Token} {l r : Operand Float} {sign : Token} {o : Operation} :
    Sum ls l → sign.kind = .operator o → Sum rs r →
    fits size (ls ++ sign :: rs) (.term o l r) → fits size ls l
  right {size : Nat} {ls rs : List Token} {l r : Operand Float} {sign : Token} {o : Operation} :
    Sum ls l → sign.kind = .operator o → Sum rs r →
    fits (size + 1) (ls ++ sign :: rs) (.term o l r) → fits size rs r
  group {size : Nat} {ts : List Token} {x : Operand Float} {opening closing : Token} :
    opening.kind = .opening → Sum ts x → closing.kind = .closing →
    fits (size + 1) (opening :: (ts ++ [closing])) x → fits size ts x
  call {size : Nat} {ts : List Token} {args : List (Operand Float)} {name opening closing : Token} :
    name.isSymbol → opening.kind = .opening → Arguments ts args → closing.kind = .closing →
    fits (size + 1) (name :: opening :: (ts ++ [closing])) (.call name.text args) →
    allFit size ts args
  last {size : Nat} {ts : List Token} {x : Operand Float} : Sum ts x →
    allFit size ts [x] → fits size ts x
  more {size : Nat} {ts us : List Token} {x : Operand Float} {args : List (Operand Float)}
    {comma : Token} : Sum ts x → comma.kind = .comma → Arguments us args →
    allFit size (ts ++ comma :: us) (x :: args) → fits size ts x ∧ allFit size us args

-- Each open level is worth at least one token.
theorem levelled_length : Levelled (fun size ts _ => ts.length ≤ size)
    (fun size ts _ => ts.length ≤ size) where
  pos h hsize := by
    obtain ⟨t, us, rfl, -⟩ := h.exists_head
    simp at hsize
  left _ _ _ hsize := by
    simp only [List.length_append, List.length_cons] at hsize
    omega
  right _ _ _ hsize := by
    simp only [List.length_append, List.length_cons] at hsize
    omega
  group _ _ _ hsize := by
    simp only [List.length_cons, List.length_append] at hsize
    omega
  call _ _ _ _ hsize := by
    simp only [List.length_cons, List.length_append] at hsize
    omega
  last _ hsize := hsize
  more _ _ _ hsize := by
    simp only [List.length_append, List.length_cons] at hsize
    omega

theorem Stops.mono {m n : Nat} {tokens : List Token} (hmn : m ≤ n) (h : Stops m tokens) :
    Stops n tokens :=
  fun t ht o ho => Nat.lt_of_lt_of_le (h t ht o ho) hmn

theorem stops_operator {least : Nat} {sign : Token} {o : Operation} {tokens : List Token}
    (hsign : sign.kind = .operator o) (h : o.precedence < least) :
    Stops least (sign :: tokens) := by
  intro t ht o' ho'
  obtain rfl : sign = t := by simpa using ht
  obtain rfl : o = o' := TokenKind.operator.inj (hsign.symm.trans ho')
  exact h

theorem stops_of_kind {least : Nat} {t : Token} {tokens : List Token}
    (h : ∀ o, t.kind ≠ .operator o) : Stops least (t :: tokens) := by
  intro t' ht o ho
  obtain rfl : t = t' := by simpa using ht
  exact absurd ho (h o)

theorem notOpening_cons {t : Token} {tokens : List Token} (h : t.kind ≠ .opening) :
    NotOpening (t :: tokens) := by
  intro t' ht
  obtain rfl : t = t' := by simpa using ht
  exact h

theorem number_of_literal (negative : Bool) {t : Token} {value : Float}
    (hnumeric : t.kind = .number → Number.Lexeme t.text.toList) (h : Literal t value) :
    number negative t = .ok (.number (if negative then -value else value)) := by
  refine number_eq_ok.mpr ⟨value, ?_, rfl⟩
  rw [Number.readUnsigned?_lexeme (hnumeric h.kind), if_pos h.points, h.value_eq]

theorem Complete.sum {fits : List Token → Operand Float → Prop}
    {read : Nat → Step (Operand Float)} (hread : Complete fits read) {ts : List Token} {t : Token}
    (rest : List Token) {x : Operand Float} (hfits : fits ts x) (hnumeric : Numeric ts)
    (hx : Sum ts x) (hkind : ∀ o, t.kind ≠ .operator o) (hopening : t.kind ≠ .opening) :
    read 1 (ts ++ t :: rest) = .ok (x, t :: rest) :=
  hread 1 ts x (t :: rest) hfits hnumeric hx (stops_of_kind hkind) (notOpening_cons hopening)

theorem Complete.whole {fits : List Token → Operand Float → Prop}
    {read : Nat → Step (Operand Float)} (hread : Complete fits read) {ts : List Token}
    {x : Operand Float} (hfits : fits ts x) (hnumeric : Numeric ts) (hx : Sum ts x) :
    read 1 ts = .ok (x, []) := by
  have h := hread 1 ts x [] hfits hnumeric hx (by simp [Stops]) (by simp [NotOpening])
  rwa [List.append_nil] at h

section Levels

variable {fits : Nat → List Token → Operand Float → Prop}
  {allFit : Nat → List Token → List (Operand Float) → Prop} (hlevels : Levelled fits allFit)
include hlevels

theorem arguments_complete {size : Nat} {read : Nat → Step (Operand Float)}
    (hread : Complete (fits size) read) (name : Token) {closing : Token} (rest : List Token)
    (hclosing : closing.kind = .closing) {ts : List Token} {args : List (Operand Float)}
    (h : Arguments ts args) : allFit size ts args → Numeric ts → ∀ bound, ts.length < bound →
      arguments (read 1) name bound (ts ++ closing :: rest) = .ok (args, rest) := by
  induction h using Arguments.induction with
  | last hx =>
    intro hfits hnumeric bound hbound
    obtain ⟨bound, rfl⟩ : ∃ b, bound = b + 1 := ⟨bound - 1, by omega⟩
    have harg := hread.sum rest (hlevels.last hx hfits) hnumeric hx (t := closing)
      (by simp [hclosing]) (by simp [hclosing])
    obtain ⟨t, us, rfl, ht⟩ := hx.exists_head
    exact arguments_succ_eq_ok.mpr ⟨⟨t, _, rfl, ht.kind_ne.1, ht.kind_ne.2.1⟩, _, closing, rest,
      harg, Or.inl ⟨hclosing, rfl, rfl⟩⟩
  | @more ts us x args comma hx hcomma hargs ih =>
    intro hfits hnumeric bound hbound
    obtain ⟨hfits_x, hfits_args⟩ := hlevels.more hx hcomma hargs hfits
    simp only [List.length_append, List.length_cons] at hbound
    simp only [numeric_append, numeric_cons] at hnumeric
    obtain ⟨bound, rfl⟩ : ∃ b, bound = b + 1 := ⟨bound - 1, by omega⟩
    have hmore := ih hfits_args hnumeric.2.2 bound (by omega)
    have harg := hread.sum (us ++ closing :: rest) hfits_x hnumeric.1 hx (t := comma)
      (by simp [hcomma]) (by simp [hcomma])
    obtain ⟨t, vs, rfl, ht⟩ := hx.exists_head
    refine arguments_succ_eq_ok.mpr ⟨⟨t, vs ++ comma :: us ++ closing :: rest, by simp,
      ht.kind_ne.1, ht.kind_ne.2.1⟩, x, comma, us ++ closing :: rest, ?_,
      Or.inr ⟨args, hcomma, hmore, rfl⟩⟩
    simpa using harg

section Inner

variable {inner : Inner} {read : Nat → Step (Operand Float)} {size : Nat}
  (hinner : ∀ t, inner t = .ok read) (hread : Complete (fits size) read)
include hinner hread

theorem atom_complete {ts rest : List Token} {x : Operand Float} (h : Atom ts x)
    (hfits : fits (size + 1) ts x) (hnumeric : Numeric ts) (hrest : NotOpening rest) :
    atom inner (ts ++ rest) = .ok (x, rest) := by
  cases h with
  | number h =>
    have hx := number_of_literal false (numeric_cons.mp hnumeric).1 h
    exact atom_eq_ok.mpr (Or.inl ⟨h.kind, hx, rfl⟩)
  | @negative minus t value htouches h =>
    have ht := (numeric_cons.mp (numeric_cons.mp hnumeric).2).1
    have hx := number_of_literal true ht h
    exact atom_eq_ok.mpr (Or.inr (Or.inl
      ⟨t, htouches.kind, rfl, h.kind, htouches.position, hx⟩))
  | symbol h => exact atom_eq_ok.mpr (Or.inr (Or.inr (Or.inl ⟨h, hrest, rfl, rfl⟩)))
  | @call name opening closing ts args hname hopening hargs hclosing =>
    have hfits' := hlevels.call hname hopening hargs hclosing hfits
    simp only [numeric_cons, numeric_append] at hnumeric
    have hcall : call inner name opening (ts ++ closing :: rest) =
        .ok (.call name.text args, rest) := by
      refine call_eq_ok.mpr ⟨read, hinner opening, Or.inr ⟨args, ?_, rfl⟩⟩
      apply arguments_complete hlevels hread name rest hclosing hargs hfits' hnumeric.2.2.1
      simp
    exact atom_eq_ok.mpr (Or.inr (Or.inr (Or.inr (Or.inl
      ⟨opening, ts ++ closing :: rest, hname, by simp, hopening, hcall⟩))))
  | @emptyCall name opening closing hname hopening hclosing =>
    have hcall : call inner name opening (closing :: rest) = .ok (.call name.text [], rest) :=
      call_eq_ok.mpr ⟨read, hinner opening, Or.inl ⟨closing, rfl, hclosing, rfl⟩⟩
    exact atom_eq_ok.mpr (Or.inr (Or.inr (Or.inr (Or.inl
      ⟨opening, closing :: rest, hname, rfl, hopening, hcall⟩))))
  | @group opening closing ts x hopening hx hclosing =>
    have hfits' := hlevels.group hopening hx hclosing hfits
    simp only [numeric_cons, numeric_append] at hnumeric
    have hgroup : group inner opening (ts ++ closing :: rest) = .ok (x, rest) :=
      group_eq_ok.mpr ⟨read, closing, hinner opening,
        hread.sum rest hfits' hnumeric.2.1 hx (by simp [hclosing]) (by simp [hclosing]), hclosing⟩
    exact atom_eq_ok.mpr (Or.inr (Or.inr (Or.inr (Or.inr ⟨hopening, by simpa using hgroup⟩))))

omit hlevels hinner hread in
-- The loop gives the result whatever its bound, if the bound is large enough.
def Continues (inner : Inner) (least : Nat) (lhs : Operand Float) (tokens : List Token)
    (result : Operand Float × List Token) : Prop :=
  ∀ bound, tokens.length ≤ bound → chainFrom inner least bound lhs tokens = .ok result

-- What has been read is taken up by the loop, which goes on behind it.
def Enters (inner : Inner) (least : Nat) (ts : List Token) (x : Operand Float)
    (rest : List Token) : Prop :=
  ∀ result, Continues inner least x rest result → level inner least (ts ++ rest) = .ok result

omit hlevels in
theorem continues_term {least : Nat} {o : Operation} {sign : Token} {rs rest : List Token}
    {l r : Operand Float} {result : Operand Float × List Token} (hsign : sign.kind = .operator o)
    (hleast : least ≤ o.precedence) (hr : Level o.rightPrecedence rs r) (hfits : fits size rs r)
    (hnumeric : Numeric rs) (hstops : Stops o.rightPrecedence rest) (hrest : NotOpening rest)
    (h : Continues inner least (.term o l r) rest result) :
    Continues inner least l (sign :: (rs ++ rest)) result := by
  intro bound hbound
  simp only [List.length_cons, List.length_append] at hbound
  obtain ⟨bound, rfl⟩ : ∃ b, bound = b + 1 := ⟨bound - 1, by omega⟩
  rw [chainFrom_operator hsign (by omega), hinner, ok_bind,
    hread _ rs r rest hfits hnumeric hr hstops hrest, ok_bind]
  exact h bound (by omega)

theorem enters_atom {least : Nat} {ts rest : List Token} {x : Operand Float} (h : Atom ts x)
    (hfits : fits (size + 1) ts x) (hnumeric : Numeric ts) (hrest : NotOpening rest) :
    Enters inner least ts x rest := fun _ hcontinues =>
  level_eq_ok.mpr ⟨x, rest, atom_complete hlevels hinner hread h hfits hnumeric hrest,
    hcontinues rest.length (Nat.le_refl _)⟩

theorem enters_power {least : Nat} {ts rest : List Token} {x : Operand Float} (h : Power ts x)
    (hleast : least ≤ 3) (hfits : fits (size + 1) ts x) (hnumeric : Numeric ts)
    (hstops : Stops 3 rest) (hrest : NotOpening rest) : Enters inner least ts x rest := by
  cases h with
  | atom h => exact enters_atom hlevels hinner hread h hfits hnumeric hrest
  | @term ls rs l r sign hl hsign hr =>
    have hsum_l : Sum ls l := .product (.power (.atom hl))
    have hsum_r : Sum rs r := .product (.power hr)
    simp only [numeric_append, numeric_cons] at hnumeric
    intro result hresult
    have hl' : Enters inner least ls l (sign :: (rs ++ rest)) :=
      enters_atom hlevels hinner hread hl (hlevels.left hsum_l hsign hsum_r hfits) hnumeric.1
        (notOpening_cons (by simp [hsign]))
    have hterm := continues_term hinner hread hsign hleast (r := r) (show Level 3 rs r from hr)
      (hlevels.right hsum_l hsign hsum_r hfits) hnumeric.2.2 hstops hrest hresult
    simpa using hl' result hterm

omit hlevels in
-- The step that sums and products share: an operator between what is derived on its left and a
-- right operand of a tighter layer.
theorem enters_term {least : Nat} {o : Operation} {sign : Token} {ls rs rest : List Token}
    {l r : Operand Float} (hsign : sign.kind = .operator o) (hleast : least ≤ o.precedence)
    (hl : Enters inner least ls l (sign :: (rs ++ rest))) (hr : Level o.rightPrecedence rs r)
    (hfits : fits size rs r) (hnumeric : Numeric rs) (hstops : Stops o.rightPrecedence rest)
    (hrest : NotOpening rest) : Enters inner least (ls ++ sign :: rs) (.term o l r) rest := by
  intro result hresult
  have hterm := continues_term hinner hread hsign hleast hr hfits hnumeric hstops hrest hresult
  simpa using hl result hterm

theorem enters_product {least : Nat} {ts : List Token} {x : Operand Float} (hleast : least ≤ 2)
    (h : Product ts x) : ∀ rest, fits (size + 1) ts x → Numeric ts → Stops 3 rest →
      NotOpening rest → Enters inner least ts x rest := by
  induction h using Product.left_induction with
  | power h =>
    intro rest hfits hnumeric hstops hrest
    exact enters_power hlevels hinner hread h (by omega) hfits hnumeric hstops hrest
  | @term ls rs l r sign o hl hsign ho hr ih =>
    intro rest hfits hnumeric hstops hrest
    have hsum_l : Sum ls l := .product hl
    have hsum_r : Sum rs r := .product (.power hr)
    simp only [numeric_append, numeric_cons] at hnumeric
    have hprecedence : o.precedence = 2 ∧ o.rightPrecedence = 3 := by
      rcases ho with rfl | rfl | rfl <;> decide
    have hl' : Enters inner least ls l (sign :: (rs ++ rest)) :=
      ih _ (hlevels.left hsum_l hsign hsum_r hfits) hnumeric.1 (stops_operator hsign (by omega))
        (notOpening_cons (by simp [hsign]))
    rw [← hprecedence.2] at hstops
    refine enters_term hinner hread hsign (by omega) hl' ?_
      (hlevels.right hsum_l hsign hsum_r hfits) hnumeric.2.2 hstops hrest
    rw [hprecedence.2]
    exact hr

theorem enters_sum {least : Nat} {ts : List Token} {x : Operand Float} (hleast : least ≤ 1)
    (h : Sum ts x) : ∀ rest, fits (size + 1) ts x → Numeric ts → Stops 2 rest →
      NotOpening rest → Enters inner least ts x rest := by
  induction h using Sum.left_induction with
  | product h =>
    intro rest hfits hnumeric hstops hrest
    exact enters_product hlevels hinner hread (by omega) h rest hfits hnumeric
      (hstops.mono (by omega)) hrest
  | @term ls rs l r sign o hl hsign ho hr ih =>
    intro rest hfits hnumeric hstops hrest
    simp only [numeric_append, numeric_cons] at hnumeric
    have hprecedence : o.precedence = 1 ∧ o.rightPrecedence = 2 := by
      rcases ho with rfl | rfl <;> decide
    have hl' : Enters inner least ls l (sign :: (rs ++ rest)) :=
      ih _ (hlevels.left hl hsign (.product hr) hfits) hnumeric.1 (stops_operator hsign (by omega))
        (notOpening_cons (by simp [hsign]))
    rw [← hprecedence.2] at hstops
    refine enters_term hinner hread hsign (by omega) hl' ?_
      (hlevels.right hl hsign (.product hr) hfits) hnumeric.2.2 hstops hrest
    rw [hprecedence.2]
    exact hr

theorem level_complete : Complete (fits (size + 1)) (level inner) := by
  intro least ts x rest hfits hnumeric hx hstops hrest
  have hstop : Continues inner least x rest (x, rest) := fun _ _ => chainFrom_stop hstops
  match least with
  | 0 =>
    exact enters_sum hlevels hinner hread (by omega) hx rest hfits hnumeric
      (hstops.mono (by omega)) hrest _ hstop
  | 1 =>
    exact enters_sum hlevels hinner hread (by omega) hx rest hfits hnumeric
      (hstops.mono (by omega)) hrest _ hstop
  | 2 =>
    exact enters_product hlevels hinner hread (by omega) hx rest hfits hnumeric
      (hstops.mono (by omega)) hrest _ hstop
  | 3 =>
    exact enters_power hlevels hinner hread hx (by omega) hfits hnumeric hstops hrest _ hstop
  | _ + 4 => exact enters_atom hlevels hinner hread hx hfits hnumeric hrest _ hstop

end Inner

-- A budget of levels is enough for what fits into it.
theorem operand_complete (limit budget : Nat) :
    Complete (fits budget) (operand limit budget) := by
  induction budget with
  | zero =>
    intro least ts x rest hfits _ hx
    exact absurd hfits (hlevels.pos (hx.weaken (Nat.zero_le _)))
  | succ budget ih => exact level_complete hlevels (fun _ => rfl) ih

end Levels

theorem parameters_complete (function : String) {closing : Token} {rest ts : List Token}
    {names seen : List String} (hclosing : closing.kind = .closing) (h : Parameters ts names)
    (hnodup : names.Nodup) (hfresh : ∀ n ∈ names, n ∉ seen) :
    parameters function seen (ts ++ closing :: rest) = .ok (seen ++ names, rest) := by
  induction h generalizing seen with
  | @last t ht =>
    have hseen : t.text ∉ seen := hfresh t.text (by simp)
    simp [parameters, ht, hseen, hclosing]
  | @more t comma ts names ht hcomma _ ih =>
    have hseen : t.text ∉ seen := hfresh t.text (by simp)
    obtain ⟨hnew, hnodup⟩ := List.nodup_cons.mp hnodup
    have hunseen : ∀ n ∈ names, n ∉ seen ++ [t.text] := by
      intro n hn
      have hne : n ≠ t.text := fun he => hnew (he ▸ hn)
      simpa [hne] using hfresh n (List.mem_cons_of_mem _ hn)
    have hnext := ih hnodup hunseen
    simpa [parameters, ht, hseen, hcomma] using hnext

theorem parameterList_complete (name : String) {closing : Token} {rest ts : List Token}
    {params : List String} (hclosing : closing.kind = .closing) (h : ParameterList ts params) :
    parameterList name (ts ++ closing :: rest) = .ok (params, rest) := by
  cases h with
  | empty => exact parameterList_eq_ok.mpr (Or.inl ⟨closing, rfl, hclosing, rfl⟩)
  | names h hnodup =>
    have hparams : parameters name [] (ts ++ closing :: rest) = .ok (params, rest) :=
      parameters_complete name hclosing h hnodup (by simp)
    refine parameterList_eq_ok.mpr (Or.inr ⟨?_, hparams⟩)
    intro t ht
    cases h with
    | last hs =>
      obtain rfl : _ = t := by simpa using ht
      simp [kind_of_isSymbol hs]
    | more hs _ _ =>
      obtain rfl : _ = t := by simpa using ht
      simp [kind_of_isSymbol hs]

section Forms

variable {fits : List Token → Operand Float → Prop} {read : Nat → Step (Operand Float)}
  (hread : Complete fits read)

-- A line whose first token is a name and that holds a `:=` is read as a definition.
theorem statement_definition {read : Step (Operand Float)} {t : Token} {ts : List Token}
    (ht : t.isSymbol = true) (hassign : ∃ a ∈ ts, a.kind = .assign) :
    statement read (t :: ts) = definition read (t :: ts) := by
  have hany : (t :: ts).any (·.kind == .assign) = true := by
    obtain ⟨a, ha, hkind⟩ := hassign
    exact List.any_eq_true.mpr ⟨a, List.mem_cons_of_mem _ ha, by simp [hkind]⟩
  have hsolve : t.isKeyword "solve" = false := not_isKeyword_of_isSymbol ht (by decide)
  have hplot : t.isKeyword "plot" = false := not_isKeyword_of_isSymbol ht (by decide)
  rw [statement, if_neg (by simp [hsolve]), if_neg (by simp [hplot]), if_pos hany]

theorem statement_expression {read : Step (Operand Float)} {ts : List Token} {x : Operand Float}
    (hx : Sum ts x) : statement read ts = expression read ts := by
  obtain ⟨t, us, rfl, ht⟩ := hx.exists_head
  have hany : (t :: us).any (·.kind == .assign) = false := by
    simpa [NoAssign] using hx.noAssign
  have hkeyword : ¬(t.kind = .name ∧ (!t.isSymbol) = true) := by
    rintro ⟨hkind, hsymbol⟩
    rcases ht with ht | ht | ht | ht
    all_goals simp_all
  have hsolve : t.isKeyword "solve" = false := ht.not_isKeyword (by decide)
  have hplot : t.isKeyword "plot" = false := ht.not_isKeyword (by decide)
  rw [statement, if_neg (by simp [hsolve]), if_neg (by simp [hplot]), if_neg (by simp [hany]),
    if_neg hkeyword]

include hread

theorem expression_complete {ts : List Token} {x : Operand Float} (hfits : fits ts x)
    (hnumeric : Numeric ts) (hx : Sum ts x) : statement (read 1) ts = .ok (.expression x) := by
  rw [statement_expression hx]
  exact expression_eq_ok.mpr ⟨x, hread.whole hfits hnumeric hx, rfl⟩

theorem assigned_complete (missing : Fault) {assign : Token} {ts : List Token}
    {x : Operand Float} (hfits : fits ts x) (hassign : assign.kind = .assign)
    (hnumeric : Numeric ts) (hx : Sum ts x) :
    assigned (read 1) missing (assign :: ts) = .ok x := by
  refine assigned_eq_ok.mpr ⟨assign, ts, rfl, hassign, ?_, hread.whole hfits hnumeric hx⟩
  obtain ⟨t, us, rfl, -⟩ := hx.exists_head
  simp

theorem assignment_complete {target assign : Token} {ts : List Token} {x : Operand Float}
    (hfits : fits ts x) (hnumeric : Numeric ts) (htarget : target.isSymbol = true)
    (hassign : assign.kind = .assign) (hx : Sum ts x) :
    statement (read 1) (target :: assign :: ts) = .ok (.assignment target.text x) := by
  rw [statement_definition htarget ⟨assign, by simp, hassign⟩]
  have hassigned := assigned_complete hread .assignedMissing hfits hassign hnumeric hx
  exact definition_eq_ok.mpr ⟨target, _, rfl, htarget, Or.inr
    ⟨notOpening_cons (by simp [hassign]), x, hassigned, rfl⟩⟩

theorem function_complete {name opening closing assign : Token} {ps ts : List Token}
    {params : List String} {body : Operand Float} (hfits : fits ts body) (hnumeric : Numeric ts)
    (hname : name.isSymbol = true) (hopening : opening.kind = .opening)
    (hps : ParameterList ps params) (hclosing : closing.kind = .closing)
    (hassign : assign.kind = .assign) (hbody : Sum ts body) :
    statement (read 1) (name :: opening :: (ps ++ closing :: assign :: ts)) =
      .ok (.definition name.text params body) := by
  rw [statement_definition hname ⟨assign, by simp, hassign⟩]
  refine definition_eq_ok.mpr ⟨name, _, rfl, hname, Or.inl ⟨opening, _, rfl, hopening, ?_⟩⟩
  exact function_eq_ok.mpr ⟨params, assign :: ts, body, parameterList_complete _ hclosing hps,
    assigned_complete hread _ hfits hassign hnumeric hbody, rfl⟩

theorem solve_complete {head equals last unknown : Token} {ls rs : List Token}
    {l r : Operand Float} (hfits_l : fits ls l) (hfits_r : fits rs r)
    (hnumeric : Numeric (ls ++ rs)) (hhead : head.isKeyword "solve" = true) (hl : Sum ls l)
    (hequals : equals.kind = .equals) (hr : Sum rs r) (hlast : last.isKeyword "for" = true)
    (hunknown : unknown.isSymbol = true) :
    statement (read 1) (head :: (ls ++ equals :: (rs ++ [last, unknown]))) =
      .ok (.solve l r unknown.text) := by
  have hkind := kind_of_isKeyword hlast
  obtain ⟨hls, hrs⟩ := numeric_append.mp hnumeric
  have hread_l := hread.sum (rs ++ [last, unknown]) hfits_l hls hl (t := equals)
    (by simp [hequals]) (by simp [hequals])
  have hread_r := hread.sum [unknown] hfits_r hrs hr (t := last)
    (by simp [hkind]) (by simp [hkind])
  obtain ⟨t, us, rfl, ht⟩ := hl.exists_head
  obtain ⟨t', us', rfl, ht'⟩ := hr.exists_head
  rw [statement, if_pos hhead]
  exact solve_eq_ok.mpr ⟨⟨t, _, rfl, ht.kind_ne.2.2.1⟩, l, equals, _, r, last, unknown, hread_l,
    hequals, ⟨t', _, rfl, ht'.not_isKeyword (by decide)⟩, hread_r, hlast, hunknown, rfl⟩

omit hread in
theorem plot_complete {read : Step (Operand Float)} {head name : Token}
    (hhead : head.isKeyword "plot" = true) (hname : name.isSymbol = true) :
    statement read [head, name] = .ok (.plot name.text) := by
  have hsolve : head.isKeyword "solve" = false := by
    simp only [isKeyword, Bool.and_eq_true, beq_iff_eq] at hhead
    simp [isKeyword, hhead.2]
  rw [statement, if_neg (by simp [hsolve]), if_pos hhead]
  exact plot_eq_ok.mpr ⟨name, rfl, hname, rfl⟩

end Forms

-- Every line that the grammar derives is read.
theorem line_complete (limit : Nat) {budget : Nat} {tokens : List Token} {s : Statement Float}
    (hnumeric : Numeric tokens) (hbudget : tokens.length ≤ budget) (h : Line tokens s) :
    ofTokens limit budget tokens = .ok s := by
  have hread := operand_complete levelled_length limit budget
  cases h with
  | expression hx => exact expression_complete hread hbudget hnumeric hx
  | assignment htarget hassign hx =>
    simp only [List.length_cons] at hbudget
    simp only [numeric_cons] at hnumeric
    exact assignment_complete hread (by omega) hnumeric.2.2 htarget hassign hx
  | definition hname hopening hps hclosing hassign hbody =>
    simp only [List.length_cons, List.length_append] at hbudget
    simp only [numeric_cons, numeric_append] at hnumeric
    exact function_complete hread (by omega) hnumeric.2.2.2.2.2 hname hopening hps hclosing hassign
      hbody
  | solve hhead hl hequals hr hlast hunknown =>
    simp only [List.length_cons, List.length_append] at hbudget
    simp only [numeric_cons, numeric_append] at hnumeric
    exact solve_complete hread (by omega) (by omega)
      (numeric_append.mpr ⟨hnumeric.2.1, hnumeric.2.2.2.1⟩) hhead hl hequals hr hlast hunknown
  | plot hhead hname => exact plot_complete hhead hname

end Reckon.Grammar
