import Reckon.Proofs.Grammar.Theorems
import Reckon.Proofs.Operand.Depth

namespace Reckon.Grammar

open Reader Token

-- The greatest number of grouping parentheses that a token is inside of. A parenthesis directly
-- behind a symbol belongs to a call or to a list of parameters and does not group. The numbers in
-- `outer` are those outside of the parentheses that are open.
def deepestGroup : (afterSymbol : Bool) → (inside : Nat) → (outer : List Nat) → List Token → Nat
  | _, _, _, [] => 0
  | afterSymbol, inside, outer, t :: ts =>
    if t.kind = .opening then
      max inside
        (deepestGroup false (if afterSymbol then inside else inside + 1) (inside :: outer) ts)
    else if t.kind = .closing then
      max (outer.headD 0) (deepestGroup false (outer.headD 0) outer.tail ts)
    else max inside (deepestGroup t.isSymbol inside outer ts)

def groupDepth (tokens : List Token) : Nat := deepestGroup false 0 [] tokens

section Steps

variable {afterSymbol : Bool} {inside n : Nat} {outer : List Nat} {t : Token} {ts : List Token}

theorem deepestGroup_skip (hopening : t.kind ≠ .opening) (hclosing : t.kind ≠ .closing) :
    deepestGroup afterSymbol inside outer (t :: ts) =
      max inside (deepestGroup t.isSymbol inside outer ts) := by
  simp [deepestGroup, hopening, hclosing]

theorem deepestGroup_group (h : t.kind = .opening) :
    deepestGroup false inside outer (t :: ts) =
      max inside (deepestGroup false (inside + 1) (inside :: outer) ts) := by
  simp [deepestGroup, h]

theorem deepestGroup_call (h : t.kind = .opening) :
    deepestGroup true inside outer (t :: ts) =
      max inside (deepestGroup false inside (inside :: outer) ts) := by
  simp [deepestGroup, h]

theorem deepestGroup_closing (h : t.kind = .closing) :
    deepestGroup afterSymbol inside (n :: outer) (t :: ts) =
      max n (deepestGroup false n outer ts) := by
  simp [deepestGroup, h]

-- Whether a symbol came before matters only for a parenthesis.
theorem deepestGroup_afterSymbol (h : NotOpening ts) :
    deepestGroup afterSymbol inside outer ts = deepestGroup false inside outer ts := by
  cases ts with
  | nil => rfl
  | cons t ts => simp [deepestGroup, h t rfl]

theorem isSymbol_eq_false {t : Token} (h : t.kind ≠ .name) : t.isSymbol = false := by
  simp [isSymbol, h]

end Steps

-- The deepest of the tokens is inside of `k` more groups, wherever they stand.
def Nested (ts : List Token) (k : Nat) : Prop :=
  ∀ inside outer rest, NotOpening rest →
    deepestGroup false inside outer (ts ++ rest) =
      max (inside + k) (deepestGroup false inside outer rest)

theorem Nested.groupDepth_append {ts : List Token} {k : Nat} (h : Nested ts k)
    (rest : List Token) (hrest : NotOpening rest) :
    groupDepth (ts ++ rest) = max k (groupDepth rest) := by
  rw [groupDepth, h _ _ _ hrest, Nat.zero_add, groupDepth]

theorem Nested.groupDepth_eq {ts : List Token} {k : Nat} (h : Nested ts k) : groupDepth ts = k := by
  have hdepth := h.groupDepth_append [] (by simp [NotOpening])
  simpa [groupDepth, deepestGroup] using hdepth

theorem Nested.self {ts : List Token} {k : Nat} (h : Nested ts k) : Nested ts (groupDepth ts) := by
  rwa [h.groupDepth_eq]

theorem nested_singleton {t : Token} (hopening : t.kind ≠ .opening) (hclosing : t.kind ≠ .closing) :
    Nested [t] 0 := by
  intro inside outer rest hrest
  rw [List.singleton_append, deepestGroup_skip hopening hclosing, deepestGroup_afterSymbol hrest,
    Nat.add_zero]

theorem nested_symbol {t : Token} (h : t.isSymbol = true) : Nested [t] 0 :=
  nested_singleton (by simp [kind_of_isSymbol h]) (by simp [kind_of_isSymbol h])

-- A token in front that is neither a symbol nor a parenthesis.
theorem Nested.cons {ts : List Token} {t : Token} {k : Nat} {kind : TokenKind} (ht : t.kind = kind)
    (hkind : kind ≠ .opening ∧ kind ≠ .closing ∧ kind ≠ .name) (h : Nested ts k) :
    Nested (t :: ts) k := by
  intro inside outer rest hrest
  rw [List.cons_append, deepestGroup_skip (ht ▸ hkind.1) (ht ▸ hkind.2.1),
    isSymbol_eq_false (ht ▸ hkind.2.2), h _ _ _ hrest]
  omega

-- Two parts with such a token between them.
theorem Nested.join {ls rs : List Token} {t : Token} {k m : Nat} {kind : TokenKind}
    (hl : Nested ls k) (ht : t.kind = kind)
    (hkind : kind ≠ .opening ∧ kind ≠ .closing ∧ kind ≠ .name) (hr : Nested rs m) :
    Nested (ls ++ t :: rs) (max k m) := by
  intro inside outer rest hrest
  have hsign : NotOpening (t :: rs ++ rest) := notOpening_cons (ht ▸ hkind.1)
  rw [List.append_assoc, hl _ _ _ hsign, (hr.cons ht hkind) _ _ _ hrest]
  omega

theorem Nested.group {ts : List Token} {opening closing : Token} {k : Nat}
    (hopening : opening.kind = .opening) (h : Nested ts k) (hclosing : closing.kind = .closing) :
    Nested (opening :: (ts ++ [closing])) (k + 1) := by
  intro inside outer rest hrest
  rw [List.cons_append, List.append_assoc, List.singleton_append, deepestGroup_group hopening,
    h _ _ _ (notOpening_cons (by simp [hclosing])), deepestGroup_closing hclosing]
  omega

theorem Nested.call {ts : List Token} {name opening closing : Token} {k : Nat}
    (hname : name.isSymbol = true) (hopening : opening.kind = .opening) (h : Nested ts k)
    (hclosing : closing.kind = .closing) :
    Nested (name :: opening :: (ts ++ [closing])) k := by
  intro inside outer rest hrest
  have hkind := kind_of_isSymbol hname
  rw [List.cons_append, List.cons_append, List.append_assoc, List.singleton_append,
    deepestGroup_skip (by simp [hkind]) (by simp [hkind]), hname, deepestGroup_call hopening,
    h _ _ _ (notOpening_cons (by simp [hclosing])), deepestGroup_closing hclosing]
  omega

theorem nested_emptyCall {name opening closing : Token} (hname : name.isSymbol = true)
    (hopening : opening.kind = .opening) (hclosing : closing.kind = .closing) :
    Nested [name, opening, closing] 0 := by
  intro inside outer rest hrest
  have hkind := kind_of_isSymbol hname
  rw [List.cons_append, deepestGroup_skip (by simp [hkind]) (by simp [hkind]), hname,
    List.cons_append, deepestGroup_call hopening, List.singleton_append,
    deepestGroup_closing hclosing]
  omega

mutual

theorem Sum.nested {ts : List Token} {x : Operand Float} : Sum ts x → Nested ts (groupDepth ts)
  | .product h => h.nested
  | .term hl hsign _ hr => (hl.nested.join hsign (by simp) hr.nested).self

theorem Product.nested {ts : List Token} {x : Operand Float} :
    Product ts x → Nested ts (groupDepth ts)
  | .power h => h.nested
  | .term hl hsign _ hr => (hl.nested.join hsign (by simp) hr.nested).self

theorem Power.nested {ts : List Token} {x : Operand Float} :
    Power ts x → Nested ts (groupDepth ts)
  | .atom h => h.nested
  | .term hl hsign hr => (hl.nested.join hsign (by simp) hr.nested).self

theorem Atom.nested {ts : List Token} {x : Operand Float} : Atom ts x → Nested ts (groupDepth ts)
  | .number h => (nested_singleton (by simp [h.kind]) (by simp [h.kind])).self
  | .negative h h' =>
    have hliteral := nested_singleton (by simp [h'.kind]) (by simp [h'.kind])
    (hliteral.cons h.kind (by simp)).self
  | .symbol h => (nested_symbol h).self
  | .call h hopening hargs hclosing => (Nested.call h hopening hargs.nested hclosing).self
  | .emptyCall h hopening hclosing => (nested_emptyCall h hopening hclosing).self
  | .group hopening hx hclosing => (Nested.group hopening hx.nested hclosing).self

theorem Arguments.nested {ts : List Token} {args : List (Operand Float)} :
    Arguments ts args → Nested ts (groupDepth ts)
  | .last h => h.nested
  | .more h hcomma hargs => (h.nested.join hcomma (by simp) hargs.nested).self

end

-- The levels that an operand opens are those of its depth and of its groups.
theorem levelled_depth : Levelled (fun size ts x => x.depth + groupDepth ts ≤ size)
    (fun size ts args => Operand.deepest args + groupDepth ts ≤ size) where
  pos {ts x} _ hsize := by
    have hpos := x.depth_pos
    omega
  left hl hsign hr hsize := by
    rw [(hl.nested.join hsign (by simp) hr.nested).groupDepth_eq, Operand.depth] at hsize
    omega
  right hl hsign hr hsize := by
    rw [(hl.nested.join hsign (by simp) hr.nested).groupDepth_eq, Operand.depth] at hsize
    omega
  group hopening h hclosing hsize := by
    rw [(Nested.group hopening h.nested hclosing).groupDepth_eq] at hsize
    omega
  call hname hopening h hclosing hsize := by
    rw [(Nested.call hname hopening h.nested hclosing).groupDepth_eq, Operand.depth] at hsize
    omega
  last _ hsize := by
    rw [Operand.deepest, Operand.deepest] at hsize
    omega
  more h hcomma hargs hsize := by
    rw [(h.nested.join hcomma (by simp) hargs.nested).groupDepth_eq, Operand.deepest] at hsize
    omega

-- Outside of its operands a line has no groups.

theorem groupDepth_cons {kind : TokenKind} {t : Token} (ts : List Token) (ht : t.kind = kind)
    (hkind : kind ≠ .opening ∧ kind ≠ .closing ∧ kind ≠ .name) :
    groupDepth (t :: ts) = groupDepth ts := by
  rw [groupDepth, deepestGroup_skip (ht ▸ hkind.1) (ht ▸ hkind.2.1),
    isSymbol_eq_false (ht ▸ hkind.2.2), Nat.zero_max, groupDepth]

theorem groupDepth_keyword {t : Token} {word : String} (ts : List Token)
    (ht : t.isKeyword word = true) (hword : word ∈ keywords) :
    groupDepth (t :: ts) = groupDepth ts := by
  have hsymbol : t.isSymbol = false := by
    by_contra hsymbol
    have hno := not_isKeyword_of_isSymbol (Bool.of_not_eq_false hsymbol) hword
    simp [ht] at hno
  have hkind := kind_of_isKeyword ht
  rw [groupDepth, deepestGroup_skip (by simp [hkind]) (by simp [hkind]), hsymbol, Nat.zero_max,
    groupDepth]

theorem Parameters.nested {ps : List Token} {params : List String} (h : Parameters ps params) :
    Nested ps 0 := by
  induction h with
  | last ht => exact nested_symbol ht
  | more ht hcomma _ ih => exact (nested_symbol ht).join hcomma (by simp) ih

theorem ParameterList.nested_call {ps : List Token} {params : List String}
    {name opening closing : Token} (h : ParameterList ps params) (hname : name.isSymbol = true)
    (hopening : opening.kind = .opening) (hclosing : closing.kind = .closing) :
    Nested (name :: opening :: (ps ++ [closing])) 0 := by
  cases h with
  | empty => exact nested_emptyCall hname hopening hclosing
  | names h _ => exact .call hname hopening h.nested hclosing

-- Every line that the grammar derives is read with a budget for its depth and its groups.
theorem line_complete_of_depth (limit : Nat) {budget : Nat} {tokens : List Token}
    {s : Statement Float} (hnumeric : Numeric tokens)
    (hbudget : ∀ x ∈ s.operands, x.depth + groupDepth tokens ≤ budget) (h : Line tokens s) :
    ofTokens limit budget tokens = .ok s := by
  have hread := operand_complete levelled_depth limit budget
  cases h with
  | expression hx =>
    exact expression_complete hread (hbudget _ (by simp [Statement.operands])) hnumeric hx
  | @assignment target assign ts x htarget hassign hx =>
    have hgroups := (nested_symbol htarget).groupDepth_append (assign :: ts)
      (notOpening_cons (by simp [hassign]))
    rw [groupDepth_cons ts hassign (by simp), List.singleton_append] at hgroups
    have hfits := hbudget x (by simp [Statement.operands])
    simp only [numeric_cons] at hnumeric
    exact assignment_complete hread (by omega) hnumeric.2.2 htarget hassign hx
  | @definition name opening closing assign ps ts params body hname hopening hps hclosing hassign
      hbody =>
    have hgroups := (hps.nested_call hname hopening hclosing).groupDepth_append (assign :: ts)
      (notOpening_cons (by simp [hassign]))
    rw [groupDepth_cons ts hassign (by simp), List.cons_append, List.cons_append,
      List.append_assoc, List.singleton_append] at hgroups
    have hfits := hbudget body (by simp [Statement.operands])
    simp only [numeric_cons, numeric_append] at hnumeric
    exact function_complete hread (by omega) hnumeric.2.2.2.2.2 hname hopening hps hclosing hassign
      hbody
  | @solve head equals last unknown ls rs l r hhead hl hequals hr hlast hunknown =>
    have hgroups_l := hl.nested.groupDepth_append (equals :: (rs ++ [last, unknown]))
      (notOpening_cons (by simp [hequals]))
    have hgroups_r := hr.nested.groupDepth_append [last, unknown]
      (notOpening_cons (by simp [kind_of_isKeyword hlast]))
    rw [groupDepth_cons _ hequals (by simp)] at hgroups_l
    rw [groupDepth_keyword _ hhead (by decide)] at hbudget
    have hfits_l := hbudget l (by simp [Statement.operands])
    have hfits_r := hbudget r (by simp [Statement.operands])
    simp only [numeric_cons, numeric_append] at hnumeric
    exact solve_complete hread (by omega) (by omega)
      (numeric_append.mpr ⟨hnumeric.2.1, hnumeric.2.2.2.1⟩) hhead hl hequals hr hlast hunknown
  | plot hhead hname => exact plot_complete hhead hname

-- A line that is read as a statement when nesting is not limited.
structure ReadsAs (source : List Char) (tokens : List Token) (s : Statement Float) : Prop where
  short : source.length ≤ Limits.standard.length
  balanced : Parenthesis.fault? source = none
  scanned : scan source = .ok tokens
  read : ∃ budget, ofTokens Limits.standard.depth budget tokens = .ok s

theorem ReadsAs.line {source : List Char} {tokens : List Token} {s : Statement Float}
    (h : ReadsAs source tokens s) : Line tokens s := by
  obtain ⟨budget, hread⟩ := h.read
  exact line_sound (numeric_scan h.scanned) hread

-- A line is read as nothing else than without a limit, and within the bounds. It is read if
-- its operands are not too deep and no token is inside of too many groups.
theorem parse_of_shallow {source : List Char} {tokens : List Token} {s : Statement Float}
    (h : ReadsAs source tokens s) :
    (∀ s', Statement.parse source = .ok s' →
      s' = s ∧ ∀ x ∈ s.operands, x.depthByStack ≤ 100) ∧
    ((∀ x ∈ s.operands, x.depthByStack ≤ 100) → groupDepth tokens ≤ 100 →
      Statement.parse source = .ok s) := by
  have hnumeric := numeric_scan h.scanned
  constructor
  · intro s' hs'
    obtain ⟨-, -, hdepth, tokens', hscan, hread⟩ := Statement.parse_eq_ok.mp hs'
    obtain rfl := Except.ok.inj (h.scanned.symm.trans hscan)
    obtain rfl := line_unique hnumeric (line_sound hnumeric hread) h.line
    exact ⟨rfl, hdepth⟩
  · intro hdepth hgroups
    refine Statement.parse_eq_ok.mpr ⟨h.short, h.balanced, hdepth, tokens, h.scanned, ?_⟩
    refine line_complete_of_depth _ hnumeric ?_ h.line
    intro x hx
    have hx := hdepth x hx
    rw [x.depthByStack_eq] at hx
    simp only [Limits.budget, Limits.standard]
    omega

-- A group within a call, and a call within a group.
theorem parse_of_shallow_argument :
    ∃ tokens s, ReadsAs "f((a - (b)), c)".toList tokens s ∧
      (∀ x ∈ s.operands, x.depthByStack = 3) ∧ groupDepth tokens = 2 ∧
      Statement.parse "f((a - (b)), c)".toList = .ok s := by
  have hscan : scan "f((a - (b)), c)".toList = .ok
      [⟨.name, "f", 0⟩, ⟨.opening, "(", 1⟩, ⟨.opening, "(", 2⟩, ⟨.name, "a", 3⟩,
        ⟨.operator .sub, "-", 5⟩, ⟨.opening, "(", 7⟩, ⟨.name, "b", 8⟩, ⟨.closing, ")", 9⟩,
        ⟨.closing, ")", 10⟩, ⟨.comma, ",", 11⟩, ⟨.name, "c", 13⟩, ⟨.closing, ")", 14⟩] := by cbv
  have hreads : ReadsAs "f((a - (b)), c)".toList _ (.expression
      (.call "f" [.term .sub (.symbol "a") (.symbol "b"), .symbol "c"])) :=
    ⟨by decide, by decide, hscan, 4, by cbv⟩
  have hdepth : ∀ x ∈ (Statement.expression (.call "f" [.term .sub (.symbol "a") (.symbol "b"),
      .symbol "c"]) : Statement Float).operands, x.depthByStack = 3 := by
    simp [Statement.operands, Operand.depthByStack_eq, Operand.depth, Operand.deepest]
  have hgroups : groupDepth [⟨.name, "f", 0⟩, ⟨.opening, "(", 1⟩, ⟨.opening, "(", 2⟩,
      ⟨.name, "a", 3⟩, ⟨.operator .sub, "-", 5⟩, ⟨.opening, "(", 7⟩, ⟨.name, "b", 8⟩,
      ⟨.closing, ")", 9⟩, ⟨.closing, ")", 10⟩, ⟨.comma, ",", 11⟩, ⟨.name, "c", 13⟩,
      ⟨.closing, ")", 14⟩] = 2 := by decide
  refine ⟨_, _, hreads, hdepth, hgroups, (parse_of_shallow hreads).2 ?_ (by simp [hgroups])⟩
  intro x hx
  simp [hdepth x hx]

end Reckon.Grammar
