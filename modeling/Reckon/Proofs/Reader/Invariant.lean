import Reckon.Proofs.Reader.Outcome
import Reckon.Proofs.Reader.Place

namespace Reckon

-- The line ended where a parenthesis should have been closed.
def Fault.Unclosed : Fault → Prop
  | .unclosedGroup _ _ | .unclosedCall _ _ => True
  | .parameterExpected none | .separatorExpected none => True
  | _ => False

namespace Reader

section Ends

variable {β γ : Type} {P : β → Prop} {P' : γ → Prop} {Q : Fault → Prop}

-- A value as `P` says, or a fault as `Q` says.
def Ends (P : β → Prop) (Q : Fault → Prop) : Except Fault β → Prop
  | .ok b => P b
  | .error e => Q e

theorem Ends.bind {r : Except Fault β} {f : β → Except Fault γ} (h : Ends P Q r)
    (hf : ∀ b, P b → Ends P' Q (f b)) : Ends P' Q (r >>= f) := by
  cases r with
  | ok b => exact hf b h
  | error e => exact h

theorem Ends.mono {P' : β → Prop} {r : Except Fault β} (h : Ends P Q r) (hP : ∀ b, P b → P' b) :
    Ends P' Q r := by
  cases r with
  | ok b => exact hP b h
  | error e => exact h

theorem Ends.of_error {r : Except Fault β} {e : Fault} (h : Ends P Q r) (he : r = .error e) :
    Q e := by
  rw [he] at h
  exact h

theorem Ends.of_ok {r : Except Fault β} {b : β} (h : Ends P Q r) (hb : r = .ok b) : P b := by
  rw [hb] at h
  exact h

end Ends

-- What holds of the tokens at hand while `n` parentheses are open, and of the faults told there.
-- An open parenthesis may remain unclosed only at the end of the line.
structure Invariant (P : Nat → List Token → Prop) (Q : Fault → Prop) : Prop where
  next {n : Nat} {t : Token} {ts : List Token} :
    P n (t :: ts) → t.kind ≠ .opening → t.kind ≠ .closing → P n ts
  opening {n : Nat} {t : Token} {ts : List Token} :
    P n (t :: ts) → t.kind = .opening → P (n + 1) ts
  closing {n : Nat} {t : Token} {ts : List Token} :
    P (n + 1) (t :: ts) → t.kind = .closing → P n ts
  told {n : Nat} {e : Fault} {ts : List Token} :
    P n ts → e.place? = some ts.head? → ¬e.Unclosed → Q e
  sign {n : Nat} {minus literal : Token} {ts : List Token} :
    P n (minus :: literal :: ts) → Grammar.Touches minus literal → Q (.invalidNumber true literal)
  unclosed {n : Nat} {e : Fault} : P (n + 1) [] → e.place? = some none → Q e
  emptyStatement : Q .emptyStatement
  plotNameMissing : Q .plotNameMissing

section Invariant

variable {P : Nat → List Token → Prop} {Q : Fault → Prop}

-- Reading something keeps what holds, with as many open parentheses as before, and adds no token.
def Keeps {β : Type} (P : Nat → List Token → Prop) (Q : Fault → Prop) (read : Step β) : Prop :=
  ∀ n tokens, P n tokens →
    Ends (fun r => P n r.2 ∧ r.2.length ≤ tokens.length) Q (read tokens)

-- A level is opened, or it is told at the token which opens it that it is not.
def Opens (P : Nat → List Token → Prop) (Q : Fault → Prop) (inner : Inner) : Prop :=
  ∀ t, Ends (fun read => ∀ least, Keeps P Q (read least))
    (fun e => e.place? = some (some t) ∧ ¬e.Unclosed) (inner t)

theorem expect_ends {accepted : Token → Bool} {missing : Option Token → Fault}
    {tokens : List Token} (h : Q (missing tokens.head?)) :
    Ends (fun r => tokens = r.1 :: r.2 ∧ accepted r.1 = true) Q
      (expect accepted missing tokens) := by
  cases tokens with
  | nil => exact h
  | cons t ts =>
    rw [expect]
    split_ifs with ht
    · exact ⟨rfl, ht⟩
    · exact h

theorem require_ends {refused : Token → Bool} {missing : Option Token → Fault}
    {tokens : List Token} (h : Q (missing tokens.head?)) :
    Ends (fun _ => True) Q (require refused missing tokens) := by
  cases tokens with
  | nil => exact h
  | cons t ts =>
    rw [require]
    split_ifs
    · exact h
    · trivial

variable (h : Invariant P Q) {n : Nat} {tokens : List Token}
include h

theorem Invariant.skip {t : Token} {ts : List Token} {kind : TokenKind} (hts : P n (t :: ts))
    (ht : t.kind = kind) (hkind : kind ≠ .opening ∧ kind ≠ .closing) : P n ts :=
  h.next hts (ht ▸ hkind.1) (ht ▸ hkind.2)

theorem Invariant.leftover {t : Token} {ts : List Token} (hts : P n (t :: ts)) :
    Q (leftover t) := by
  refine h.told hts (leftover_place? t) ?_
  simp only [Reader.leftover]
  split <;> exact id

-- Behind an operand something else may come than what closes it, or nothing.
theorem Invariant.behind (missing : Fault) (htokens : P n tokens)
    (hplace : missing.place? = some none) (hclosed : n = 0 → ¬missing.Unclosed) :
    Q (tokens.head?.elim missing Reader.leftover) := by
  cases tokens with
  | cons t ts => exact h.leftover htokens
  | nil =>
    cases n with
    | zero => exact h.told htokens hplace (hclosed rfl)
    | succ n => exact h.unclosed htokens hplace

theorem Invariant.opens {inner : Inner} (hinner : Opens P Q inner) {t : Token} {ts : List Token}
    (hts : P n (t :: ts)) : Ends (fun read => ∀ least, Keeps P Q (read least)) Q (inner t) := by
  have ht := hinner t
  cases hread : inner t with
  | ok read => rwa [hread] at ht
  | error e =>
    rw [hread] at ht
    exact h.told hts ht.1 ht.2

theorem arguments_ends {read : Nat → Step (Operand Float)} (hread : Keeps P Q (read 1))
    (name : Token) {bound : Nat} (hbound : tokens.length ≤ bound) (htokens : P (n + 1) tokens) :
    Ends (fun r => P n r.2 ∧ r.2.length ≤ tokens.length) Q
      (arguments (read 1) name bound tokens) := by
  induction bound generalizing tokens with
  | zero =>
    obtain rfl : tokens = [] := List.length_eq_zero_iff.mp (by omega)
    exact h.told htokens rfl id
  | succ bound ih =>
    have hmissing : Q (argumentMissing tokens.head?) := by
      cases tokens <;> exact h.told htokens rfl id
    rw [arguments]
    refine (require_ends hmissing).bind fun _ _ => ?_
    refine (hread _ _ htokens).bind fun next hnext => ?_
    have hbehind := h.behind (.unclosedCall name none) hnext.1 rfl (by simp)
    refine (expect_ends hbehind).bind ?_
    rintro ⟨separator, rest⟩ ⟨hrest, haccepted⟩
    dsimp only at hrest haccepted ⊢
    rw [hrest, List.length_cons] at hnext
    obtain ⟨hseparator, hlength⟩ := hnext
    split_ifs with hcomma
    · have hafter := h.skip hseparator hcomma (by simp)
      refine (ih (by omega) hafter).bind fun args hargs => ⟨hargs.1, ?_⟩
      exact hargs.2.trans (by omega)
    · have hclosing : separator.kind = .closing := by simpa [hcomma] using haccepted
      exact ⟨h.closing hseparator hclosing, by simpa using by omega⟩

theorem call_ends {inner : Inner} (hinner : Opens P Q inner) (name : Token) {opening : Token}
    (htokens : P n (opening :: tokens)) (hopening : opening.kind = .opening) :
    Ends (fun r => P n r.2 ∧ r.2.length ≤ tokens.length) Q (call inner name opening tokens) := by
  have hinside := h.opening htokens hopening
  refine (h.opens hinner htokens).bind fun read hread => ?_
  split_ifs with hclosing
  · cases tokens with
    | nil => cases hclosing
    | cons t ts => exact ⟨h.closing hinside (Option.some.inj hclosing), by simp⟩
  · exact (arguments_ends h (hread 1) name (Nat.le_refl _) hinside).bind fun _ hargs => hargs

theorem group_ends {inner : Inner} (hinner : Opens P Q inner) {opening : Token}
    (htokens : P n (opening :: tokens)) (hopening : opening.kind = .opening) :
    Ends (fun r => P n r.2 ∧ r.2.length ≤ tokens.length) Q (group inner opening tokens) := by
  have hinside := h.opening htokens hopening
  refine (h.opens hinner htokens).bind fun read hread => ?_
  refine (hread 1 _ _ hinside).bind fun next hnext => ?_
  have hbehind := h.behind (.unclosedGroup opening none) hnext.1 rfl (by simp)
  refine (expect_ends hbehind).bind ?_
  rintro ⟨closing, rest⟩ ⟨hrest, hclosing⟩
  dsimp only at hrest
  rw [hrest, List.length_cons] at hnext
  exact ⟨h.closing hnext.1 (eq_of_beq hclosing), Nat.le_of_lt hnext.2⟩

theorem number_ends {t : Token} {ts : List Token} (htokens : P n (t :: ts))
    (hkind : t.kind = .number) : Ends (fun _ => P n ts) Q (number false t) := by
  rw [number]
  split
  · exact h.skip htokens hkind (by simp)
  · exact h.told htokens rfl id

theorem signed_ends {minus literal : Token} {ts : List Token}
    (htokens : P n (minus :: literal :: ts)) (htouches : Grammar.Touches minus literal)
    (hkind : literal.kind = .number) : Ends (fun _ => P n ts) Q (number true literal) := by
  have hliteral : P n (literal :: ts) := h.skip htokens htouches.kind (by simp)
  rw [number]
  split
  · exact h.skip hliteral hkind (by simp)
  · exact h.sign htokens htouches

theorem atom_ends {inner : Inner} (hinner : Opens P Q inner) : Keeps P Q (atom inner) := by
  intro n tokens htokens
  cases tokens with
  | nil => exact h.told htokens rfl id
  | cons t ts =>
    have hnone : Q (.operandExpected (some t)) := h.told htokens rfl id
    simp only [atom]
    split
    case h_1 hkind =>
      exact (number_ends h htokens hkind).bind fun _ hts => ⟨hts, by simp⟩
    case h_2 hkind =>
      split
      · split_ifs with hliteral
        · exact (signed_ends h htokens ⟨hkind, hliteral.2⟩ hliteral.1).bind fun _ hts =>
            ⟨hts, by simp only [List.length_cons]; omega⟩
        · exact hnone
      · exact hnone
    case h_3 hkind =>
      have hts : P n ts := h.skip htokens hkind (by simp)
      split_ifs with hsymbol
      · split
        · split_ifs with hopening
          · exact (call_ends h hinner t hts hopening).mono fun _ hr =>
              ⟨hr.1, hr.2.trans (by simp only [List.length_cons]; omega)⟩
          · exact ⟨hts, by simp⟩
        · exact ⟨hts, by simp⟩
      · exact hnone
    case h_4 hkind =>
      exact (group_ends h hinner htokens hkind).mono fun _ hr => ⟨hr.1, hr.2.trans (by simp)⟩
    · exact hnone

theorem chainFrom_ends {inner : Inner} (hinner : Opens P Q inner) (least bound : Nat)
    (lhs : Operand Float) (htokens : P n tokens) :
    Ends (fun r => P n r.2 ∧ r.2.length ≤ tokens.length) Q
      (chainFrom inner least bound lhs tokens) := by
  induction bound generalizing lhs tokens with
  | zero => exact ⟨htokens, Nat.le_refl _⟩
  | succ bound ih =>
    cases tokens with
    | nil => exact ⟨htokens, Nat.le_refl _⟩
    | cons t ts =>
      simp only [chainFrom]
      split
      case h_1 hkind =>
        split_ifs
        · exact ⟨htokens, Nat.le_refl _⟩
        · have hts : P n ts := h.skip htokens hkind (by simp)
          refine (h.opens hinner htokens).bind fun read hread => ?_
          refine (hread _ _ _ hts).bind fun next hnext => ?_
          refine (ih _ hnext.1).mono fun _ hr => ⟨hr.1, (hr.2.trans hnext.2).trans (by simp)⟩
      · exact ⟨htokens, Nat.le_refl _⟩

theorem level_ends {inner : Inner} (hinner : Opens P Q inner) (least : Nat) :
    Keeps P Q (level inner least) := by
  intro n tokens htokens
  refine (atom_ends h hinner _ _ htokens).bind fun first hfirst => ?_
  exact (chainFrom_ends h hinner least _ first.1 hfirst.1).mono fun _ hr =>
    ⟨hr.1, hr.2.trans hfirst.2⟩

theorem operand_ends (limit budget least : Nat) : Keeps P Q (operand limit budget least) := by
  induction budget generalizing least with
  | zero =>
    have hopens : Opens P Q fun t => .error (.tooDeep limit (some t)) := fun t => ⟨rfl, id⟩
    exact level_ends h hopens least
  | succ budget ih =>
    have hopens : Opens P Q fun _ => .ok (operand limit budget) := fun _ => ih
    exact level_ends h hopens least

section Forms

variable {read : Step (Operand Float)} (hread : Keeps P Q read)

theorem expectEnd_ends (htokens : P n tokens) : Ends (fun _ => True) Q (expectEnd tokens) := by
  cases tokens with
  | nil => trivial
  | cons t ts => exact h.leftover htokens

theorem parameters_ends (function : String) (seen : List String) (htokens : P (n + 1) tokens) :
    Ends (fun r => P n r.2) Q (parameters function seen tokens) := by
  induction tokens using List.twoStepInduction generalizing seen with
  | nil => exact h.unclosed htokens rfl
  | singleton t =>
    rw [parameters]
    split_ifs with hsymbol hseen
    · exact h.told htokens rfl id
    · have hkind := kind_of_isSymbol hsymbol
      exact h.unclosed (h.skip htokens hkind (by simp)) rfl
    · exact h.told htokens rfl id
  | cons_cons t separator ts ih _ =>
    rw [parameters]
    split_ifs with hsymbol hseen
    · exact h.told htokens rfl id
    · exact h.told htokens rfl id
    · have hkind : t.kind = .name := kind_of_isSymbol (by simpa using hsymbol)
      have hrest := h.skip htokens hkind (by simp)
      split
      case h_1 hclosing => exact h.closing hrest hclosing
      case h_2 hcomma => exact ih _ (h.skip hrest hcomma (by simp))
      · exact h.told hrest rfl id

theorem parameterList_ends (name : String) (htokens : P (n + 1) tokens) :
    Ends (fun r => P n r.2) Q (parameterList name tokens) := by
  rw [parameterList]
  split_ifs with hclosing
  · cases tokens with
    | nil => cases hclosing
    | cons t ts => exact h.closing htokens (Option.some.inj hclosing)
  · exact parameters_ends h name [] htokens

include hread

theorem expression_ends (htokens : P n tokens) :
    Ends (fun _ => True) Q (expression read tokens) :=
  (hread _ _ htokens).bind fun _ hrest => (expectEnd_ends h hrest.1).bind fun _ _ => trivial

theorem solve_ends (htokens : P 0 tokens) : Ends (fun _ => True) Q (solve read tokens) := by
  refine (require_ends (h.told htokens rfl id)).bind fun _ _ => ?_
  refine (hread _ _ htokens).bind fun left hleft => ?_
  refine (expect_ends (h.behind _ hleft.1 rfl fun _ => id)).bind ?_
  rintro ⟨equals, after⟩ ⟨hequals, hkind⟩
  rw [hequals] at hleft
  have hafter : P 0 after := h.skip hleft.1 (eq_of_beq hkind) (by simp)
  refine (require_ends (h.told hafter rfl id)).bind fun _ _ => ?_
  refine (hread _ _ hafter).bind fun right hright => ?_
  refine (expect_ends (h.behind _ hright.1 rfl fun _ => id)).bind ?_
  rintro ⟨last, behind⟩ ⟨hlast, hword⟩
  rw [hlast] at hright
  have hbehind : P 0 behind := h.skip hright.1 (kind_of_isKeyword hword) (by simp)
  refine (expect_ends (h.told hbehind rfl id)).bind ?_
  rintro ⟨unknown, rest⟩ ⟨hunknown, hsymbol⟩
  rw [hunknown] at hbehind
  have hrest : P 0 rest := h.skip hbehind (kind_of_isSymbol hsymbol) (by simp)
  exact (expectEnd_ends h hrest).bind fun _ _ => trivial

omit hread in
theorem plot_ends (htokens : P 0 tokens) : Ends (fun _ => True) Q (plot tokens) := by
  match tokens with
  | [] => exact h.plotNameMissing
  | [t] =>
    rw [plot]
    split_ifs
    · trivial
    · exact h.told htokens rfl id
  | t :: _ :: _ => exact h.told htokens rfl id

theorem assigned_ends {missing : Fault} (hplace : missing.place? = some none)
    (hclosed : ¬missing.Unclosed) (htokens : P 0 tokens) :
    Ends (fun _ => True) Q (assigned read missing tokens) := by
  refine (expect_ends (h.told htokens rfl id)).bind ?_
  rintro ⟨assign, rest⟩ ⟨rfl, hkind⟩
  have hrest : P 0 rest := h.skip htokens (eq_of_beq hkind) (by simp)
  cases rest with
  | nil => exact h.told hrest hplace hclosed
  | cons t ts =>
    exact (hread _ _ hrest).bind fun _ hnext => (expectEnd_ends h hnext.1).bind fun _ _ => trivial

theorem definition_ends (htokens : P 0 tokens) :
    Ends (fun _ => True) Q (definition read tokens) := by
  cases tokens with
  | nil => exact h.emptyStatement
  | cons t ts =>
    rw [definition]
    split_ifs with hassign hopening hsymbol hcall
    · exact h.told htokens rfl id
    · exact h.told htokens rfl id
    · exact h.told htokens rfl id
    all_goals have hkind : t.kind = .name := kind_of_isSymbol (by simpa using hsymbol)
    all_goals have hts : P 0 ts := h.skip htokens hkind (by simp)
    · cases ts with
      | nil => cases hcall
      | cons opening ts =>
        have hinside := h.opening hts (Option.some.inj hcall)
        exact (parameterList_ends h t.text hinside).bind fun _ hrest =>
          (assigned_ends h hread rfl id hrest).bind fun _ _ => trivial
    · exact (assigned_ends h hread rfl id hts).bind fun _ _ => trivial

theorem statement_ends (htokens : P 0 tokens) :
    Ends (fun _ => True) Q (statement read tokens) := by
  cases tokens with
  | nil => exact h.emptyStatement
  | cons t ts =>
    rw [statement]
    split_ifs with hsolve hplot hassign hkeyword
    · have hkind := kind_of_isKeyword hsolve
      exact solve_ends h hread (h.skip htokens hkind (by simp))
    · have hkind := kind_of_isKeyword hplot
      exact plot_ends h (h.skip htokens hkind (by simp))
    · exact definition_ends h hread htokens
    · exact h.told htokens rfl id
    · exact expression_ends h hread htokens

end Forms

-- The fault of a line is as the faults of the steps are.
theorem ofTokens_ends (limit budget : Nat) (htokens : P 0 tokens) :
    Ends (fun _ => True) Q (ofTokens limit budget tokens) :=
  statement_ends h (operand_ends h limit budget 1) htokens

end Invariant

end Reader

end Reckon
