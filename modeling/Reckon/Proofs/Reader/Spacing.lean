import Reckon.Proofs.Reader.Lookahead
import Reckon.Proofs.Reader.Place

namespace Reckon

-- A fault of one line and a fault of another one, told at tokens that `R` takes together.
inductive Fault.Alike (R : Token → Token → Prop) : Fault → Fault → Prop
  | placed {e e' : Fault} {at? at'? : Option Token} : e.code = e'.code → e.place? = some at? →
      e'.place? = some at'? → Option.Rel R at? at'? → Alike R e e'
  | sign {minus literal minus' literal' : Token} : R minus minus' →
      Grammar.Touches minus literal → Grammar.Touches minus' literal' →
      Alike R (.invalidNumber true literal) (.invalidNumber true literal')
  | unbalanced {t t' : Token} : R t t' → Alike R (.unbalanced t.position) (.unbalanced t'.position)
  | unplaced {e e' : Fault} : e.code = e'.code → (∀ source, e.position? source = none) →
      (∀ source, e'.position? source = none) → Alike R e e'

namespace Reader

open Grammar (Touches)
open Token (isSymbol isKeyword)

-- Two lists of tokens that differ in positions only, and not in which minus touches its number.
inductive Aligned (R : Token → Token → Prop) : List Token → List Token → Prop
  | nil : Aligned R [] []
  | cons {t u : Token} {ts us : List Token} : R t u → t.kind = u.kind → t.text = u.text →
      (∀ t' u', ts.head? = some t' → us.head? = some u' → t'.kind = .number →
        (Touches t t' ↔ Touches u u')) →
      Aligned R ts us → Aligned R (t :: ts) (u :: us)

section Paired

variable {β β' γ γ' : Type} {P : β → β' → Prop} {P' : γ → γ' → Prop} {Q : Fault → Fault → Prop}

-- Two values as `P` says, or two faults as `Q` says.
def Paired (P : β → β' → Prop) (Q : Fault → Fault → Prop) :
    Except Fault β → Except Fault β' → Prop
  | .ok b, .ok b' => P b b'
  | .error e, .error e' => Q e e'
  | _, _ => False

theorem Paired.bind {r : Except Fault β} {r' : Except Fault β'} {f : β → Except Fault γ}
    {f' : β' → Except Fault γ'} (h : Paired P Q r r')
    (hf : ∀ b b', P b b' → Paired P' Q (f b) (f' b')) : Paired P' Q (r >>= f) (r' >>= f') := by
  cases r <;> cases r'
  case ok.ok b b' => exact hf b b' h
  case error.error e e' => exact h
  all_goals exact h.elim

end Paired

section Aligned

variable {R : Token → Token → Prop} {t u : Token} {ts us : List Token}

theorem Aligned.length (h : Aligned R ts us) : ts.length = us.length := by
  induction h with
  | nil => rfl
  | cons _ _ _ _ _ ih => rw [List.length_cons, List.length_cons, ih]

theorem Aligned.head? (h : Aligned R ts us) : Option.Rel R ts.head? us.head? := by
  cases h with
  | nil => exact .none
  | cons hplace => exact .some hplace

theorem Aligned.kind_head? (h : Aligned R ts us) :
    ts.head?.map Token.kind = us.head?.map Token.kind := by
  cases h with
  | nil => rfl
  | cons _ hkind => rw [List.head?_cons, List.head?_cons, Option.map_some, Option.map_some, hkind]

theorem Aligned.tail (h : Aligned R ts us) : Aligned R ts.tail us.tail := by
  cases h with
  | nil => exact .nil
  | cons _ _ _ _ h => exact h

theorem Aligned.any_kind (h : Aligned R ts us) (p : TokenKind → Bool) :
    ts.any (fun t => p t.kind) = us.any (fun u => p u.kind) := by
  induction h with
  | nil => rfl
  | cons _ hkind _ _ _ ih => rw [List.any_cons, List.any_cons, hkind, ih]

-- A fault that is told at the next token.
theorem Aligned.told (h : Aligned R ts us) {e e' : Fault} (hcode : e.code = e'.code)
    (hplace : e.place? = some ts.head?) (hplace' : e'.place? = some us.head?) :
    Fault.Alike R e e' :=
  .placed hcode hplace hplace' h.head?

theorem isKeyword_congr (hkind : t.kind = u.kind) (htext : t.text = u.text) (word : String) :
    t.isKeyword word = u.isKeyword word := by
  rw [isKeyword, isKeyword, hkind, htext]

theorem alike_leftover (hplace : R t u) (hkind : t.kind = u.kind) :
    Fault.Alike R (leftover t) (leftover u) :=
  .placed (leftover_code hkind).symm (leftover_place? t) (leftover_place? u) (.some hplace)

-- Behind an operand something else may come than what closes it, or nothing.
theorem Aligned.behind (h : Aligned R ts us) (missing missing' : Fault)
    (hcode : missing.code = missing'.code) (hplace : missing.place? = some none)
    (hplace' : missing'.place? = some none) :
    Fault.Alike R (ts.head?.elim missing leftover) (us.head?.elim missing' leftover) := by
  cases h with
  | nil => exact .placed hcode hplace hplace' .none
  | cons hplace hkind => exact alike_leftover hplace hkind

end Aligned

section Steps

variable {R : Token → Token → Prop} {ts us : List Token}

-- A token that is read on both lines, and what is left behind it.
structure SameNext (R : Token → Token → Prop) (r r' : Token × List Token) : Prop where
  kind : r.1.kind = r'.1.kind
  text : r.1.text = r'.1.text
  rest : Aligned R r.2 r'.2

-- The same is read on both lines, and what is left is aligned.
def SameRead {β : Type} (R : Token → Token → Prop) (r r' : β × List Token) : Prop :=
  r.1 = r'.1 ∧ Aligned R r.2 r'.2

-- A reader that makes the same of aligned tokens.
def Blind {β : Type} (R : Token → Token → Prop) (read : Step β) : Prop :=
  ∀ ts us, Aligned R ts us → Paired (SameRead R) (Fault.Alike R) (read ts) (read us)

-- What is asked of a token may depend on its kind and its text.
def Plain (p : Token → Bool) : Prop := ∀ t u, t.kind = u.kind → t.text = u.text → p t = p u

theorem expect_paired (hts : Aligned R ts us) {accepted : Token → Bool}
    {missing missing' : Option Token → Fault} (haccepted : Plain accepted)
    (hmissing : Fault.Alike R (missing ts.head?) (missing' us.head?)) :
    Paired (fun r r' => SameNext R r r' ∧ accepted r.1 = true) (Fault.Alike R)
      (expect accepted missing ts) (expect accepted missing' us) := by
  cases hts with
  | nil => exact hmissing
  | @cons t u _ _ _ hkind htext _ hrest =>
    rw [expect, expect, ← haccepted t u hkind htext]
    split_ifs with ht
    · exact ⟨⟨hkind, htext, hrest⟩, ht⟩
    · exact hmissing

theorem require_paired (hts : Aligned R ts us) {refused : Token → Bool}
    {missing : Option Token → Fault} (hrefused : Plain refused)
    (hmissing : Fault.Alike R (missing ts.head?) (missing us.head?)) :
    Paired (fun _ _ => True) (Fault.Alike R) (require refused missing ts)
      (require refused missing us) := by
  cases hts with
  | nil => exact hmissing
  | @cons t u _ _ _ hkind htext _ _ =>
    rw [require, require, ← hrefused t u hkind htext]
    split_ifs
    · exact hmissing
    · trivial

theorem expectEnd_paired (hts : Aligned R ts us) :
    Paired (fun _ _ => True) (Fault.Alike R) (expectEnd ts) (expectEnd us) := by
  cases hts with
  | nil => trivial
  | cons hplace hkind => exact alike_leftover hplace hkind

theorem number_paired {negative : Bool} {t u : Token} (htext : t.text = u.text)
    (hfault : Fault.Alike R (.invalidNumber negative t) (.invalidNumber negative u)) :
    Paired (· = ·) (Fault.Alike R) (number negative t) (number negative u) := by
  rw [number, number, htext]
  split
  · exact rfl
  · exact hfault

theorem alike_argumentMissing (hts : Aligned R ts us) :
    Fault.Alike R (argumentMissing ts.head?) (argumentMissing us.head?) := by
  cases hts with
  | nil => exact .placed rfl rfl rfl .none
  | cons hplace => exact .placed rfl rfl rfl (.some hplace)

theorem plain_kind (p : TokenKind → Bool) : Plain fun t => p t.kind :=
  fun _ _ hkind _ => congrArg p hkind

theorem plain_isKeyword (word : String) : Plain (isKeyword word) :=
  fun _ _ hkind htext => isKeyword_congr hkind htext word

theorem plain_isSymbol : Plain isSymbol := fun _ _ => isSymbol_congr

theorem arguments_blind {read : Step (Operand Float)} (hread : Blind R read) (name name' : Token)
    (bound : Nat) (hts : Aligned R ts us) :
    Paired (SameRead R) (Fault.Alike R) (arguments read name bound ts)
      (arguments read name' bound us) := by
  induction bound generalizing ts us with
  | zero => exact .placed rfl rfl rfl .none
  | succ bound ih =>
    have hends := plain_kind fun k => k == .comma || k == .closing
    rw [arguments, arguments]
    refine (require_paired hts hends (alike_argumentMissing hts)).bind fun _ _ _ => ?_
    refine (hread _ _ hts).bind ?_
    rintro ⟨arg, rest⟩ ⟨arg', rest'⟩ ⟨rfl, hrest⟩
    have hbehind := hrest.behind (.unclosedCall name none) (.unclosedCall name' none) rfl rfl rfl
    refine (expect_paired hrest hends hbehind).bind ?_
    rintro ⟨separator, after⟩ ⟨separator', after'⟩ ⟨⟨hkind, -, hafter⟩, -⟩
    dsimp only at hkind hafter ⊢
    rw [← hkind]
    split_ifs
    · refine (ih hafter).bind ?_
      rintro ⟨args, _⟩ ⟨args', _⟩ ⟨rfl, hleft⟩
      exact ⟨rfl, hleft⟩
    · exact ⟨rfl, hafter⟩

section Inner

variable {inner : Inner} (hinner : Uniform inner fun read => ∀ least, Blind R (read least))
include hinner

theorem inner_paired {t u : Token} (hplace : R t u) :
    Paired (fun read read' => read = read' ∧ ∀ least, Blind R (read least)) (Fault.Alike R)
      (inner t) (inner u) := by
  cases hinner with
  | opens hopens hblind =>
    rw [hopens, hopens]
    exact ⟨rfl, hblind⟩
  | refuses hrefuses =>
    rw [hrefuses, hrefuses]
    exact .placed rfl rfl rfl (.some hplace)

theorem call_blind {name name' opening opening' : Token} (htext : name.text = name'.text)
    (hplace : R opening opening') (hts : Aligned R ts us) :
    Paired (SameRead R) (Fault.Alike R) (call inner name opening ts)
      (call inner name' opening' us) := by
  refine (inner_paired hinner hplace).bind ?_
  rintro read _ ⟨rfl, hread⟩
  rw [hts.kind_head?, htext, hts.length]
  split_ifs
  · exact ⟨rfl, hts.tail⟩
  · refine (arguments_blind (hread 1) name name' _ hts).bind ?_
    rintro ⟨args, rest⟩ ⟨args', rest'⟩ ⟨rfl, hrest⟩
    exact ⟨rfl, hrest⟩

theorem group_blind {opening opening' : Token} (hplace : R opening opening')
    (hts : Aligned R ts us) :
    Paired (SameRead R) (Fault.Alike R) (group inner opening ts) (group inner opening' us) := by
  refine (inner_paired hinner hplace).bind ?_
  rintro read _ ⟨rfl, hread⟩
  refine (hread 1 _ _ hts).bind ?_
  rintro ⟨operand, rest⟩ ⟨operand', rest'⟩ ⟨rfl, hrest⟩
  have hbehind :=
    hrest.behind (.unclosedGroup opening none) (.unclosedGroup opening' none) rfl rfl rfl
  refine (expect_paired hrest (plain_kind (· == .closing)) hbehind).bind ?_
  rintro ⟨closing, after⟩ ⟨closing', after'⟩ ⟨⟨-, -, hafter⟩, -⟩
  exact ⟨rfl, hafter⟩

theorem atom_blind : Blind R (atom inner) := by
  intro ts us hts
  cases hts with
  | nil => exact .placed rfl rfl rfl .none
  | @cons t u ts us hplace hkind htext htouch hrest =>
    have hnone : Fault.Alike R (.operandExpected (some t)) (.operandExpected (some u)) :=
      .placed rfl rfl rfl (.some hplace)
    simp only [atom, ← hkind, ← isSymbol_congr hkind htext]
    split
    · refine (number_paired htext (.placed rfl rfl rfl (.some hplace))).bind ?_
      rintro x _ rfl
      exact ⟨rfl, hrest⟩
    case h_2 hsub =>
      cases hrest with
      | nil => exact hnone
      | @cons literal literal' ts us _ hliteral hltext _ hafter =>
        -- a minus is a sign on both lines or on neither
        have htouches := htouch literal literal' rfl rfl
        have hsign : literal.kind = .number ∧ literal.position = t.position + 1 ↔
            literal'.kind = .number ∧ literal'.position = u.position + 1 := by
          rw [← hliteral]
          refine and_congr_right fun hnumber => ?_
          exact ⟨fun h => ((htouches hnumber).mp ⟨hsub, h⟩).position,
            fun h => ((htouches hnumber).mpr ⟨hkind ▸ hsub, h⟩).position⟩
        by_cases hleft : literal.kind = .number ∧ literal.position = t.position + 1
        · have hfault :
              Fault.Alike R (.invalidNumber true literal) (.invalidNumber true literal') :=
            .sign hplace ⟨hsub, hleft.2⟩ ⟨hkind ▸ hsub, (hsign.mp hleft).2⟩
          simp only [if_pos hleft, if_pos (hsign.mp hleft)]
          refine (number_paired hltext hfault).bind ?_
          rintro x _ rfl
          exact ⟨rfl, hafter⟩
        · simp only [if_neg hleft, if_neg (mt hsign.mpr hleft)]
          exact hnone
    case h_3 =>
      split_ifs
      · cases hrest with
        | nil => exact ⟨by rw [htext], .nil⟩
        | @cons opening opening' ts us hoplace hokind hotext hotouch hafter =>
          dsimp only
          rw [← hokind]
          split_ifs
          · exact call_blind hinner htext hoplace hafter
          · exact ⟨by rw [htext], .cons hoplace hokind hotext hotouch hafter⟩
      · exact hnone
    · exact group_blind hinner hplace hrest
    · exact hnone

theorem chainFrom_blind (least bound : Nat) (lhs : Operand Float) :
    Blind R (chainFrom inner least bound lhs) := by
  induction bound generalizing lhs with
  | zero => exact fun ts us hts => ⟨rfl, hts⟩
  | succ bound ih =>
    intro ts us hts
    cases hts with
    | nil => exact ⟨rfl, .nil⟩
    | @cons t u ts us hplace hkind htext htouch hrest =>
      have hstop : Aligned R (t :: ts) (u :: us) := .cons hplace hkind htext htouch hrest
      simp only [chainFrom, ← hkind]
      split
      · split_ifs
        · exact ⟨rfl, hstop⟩
        · refine (inner_paired hinner hplace).bind ?_
          rintro read _ ⟨rfl, hread⟩
          refine (hread _ _ _ hrest).bind ?_
          rintro ⟨rhs, after⟩ ⟨rhs', after'⟩ ⟨rfl, hafter⟩
          exact ih _ _ _ hafter
      · exact ⟨rfl, hstop⟩

theorem level_blind (least : Nat) : Blind R (level inner least) := by
  intro ts us hts
  refine (atom_blind hinner _ _ hts).bind ?_
  rintro ⟨lhs, rest⟩ ⟨lhs', rest'⟩ ⟨rfl, hrest⟩
  dsimp only at hrest ⊢
  rw [hrest.length]
  exact chainFrom_blind hinner least _ lhs _ _ hrest

end Inner

theorem operand_blind (limit budget least : Nat) : Blind R (operand limit budget least) := by
  induction budget generalizing least with
  | zero => exact level_blind (.refuses fun _ => rfl) least
  | succ budget ih => exact level_blind (.opens (fun _ => rfl) ih) least

end Steps

section Forms

variable {R : Token → Token → Prop} {ts us : List Token}

-- The same value on both lines, or the same fault.
abbrev Coincide {β : Type} (R : Token → Token → Prop) : Except Fault β → Except Fault β → Prop :=
  Paired (· = ·) (Fault.Alike R)

theorem parameters_blind (function : String) (seen : List String) :
    Blind R (parameters function seen) := by
  intro ts us hts
  induction ts using List.twoStepInduction generalizing seen us with
  | nil =>
    cases hts
    exact .placed rfl rfl rfl .none
  | singleton t =>
    cases hts with
    | @cons _ u _ _ hplace hkind htext _ hrest =>
      cases hrest
      rw [parameters, parameters, ← isSymbol_congr hkind htext, ← htext]
      split_ifs
      · exact .placed rfl rfl rfl (.some hplace)
      · exact .placed rfl rfl rfl .none
      · exact .placed rfl rfl rfl (.some hplace)
  | cons_cons t separator ts ih _ =>
    cases hts with
    | @cons _ u _ _ hplace hkind htext _ hrest =>
      cases hrest with
      | @cons _ separator' _ us hsplace hskind _ _ hafter =>
        rw [parameters, parameters, ← isSymbol_congr hkind htext, ← htext, ← hskind]
        split_ifs
        · exact .placed rfl rfl rfl (.some hplace)
        · exact .placed rfl rfl rfl (.some hplace)
        · split
          · exact ⟨rfl, hafter⟩
          · exact ih _ _ hafter
          · exact .placed rfl rfl rfl (.some hsplace)

theorem parameterList_blind (name : String) : Blind R (parameterList name) := by
  intro ts us hts
  rw [parameterList, parameterList, hts.kind_head?]
  split_ifs
  · exact ⟨rfl, hts.tail⟩
  · exact parameters_blind name [] _ _ hts

theorem plot_paired (hts : Aligned R ts us) : Coincide R (plot ts) (plot us) := by
  cases hts with
  | nil => exact .unplaced rfl (fun _ => rfl) (fun _ => rfl)
  | @cons t u ts us hplace hkind htext _ hrest =>
    cases hrest with
    | nil =>
      rw [plot, plot, ← isSymbol_congr hkind htext, ← htext]
      split_ifs
      · exact rfl
      · exact .placed rfl rfl rfl (.some hplace)
    | cons => exact .placed rfl rfl rfl (.some hplace)

variable {read : Step (Operand Float)} (hread : Blind R read)
include hread

theorem expression_paired (hts : Aligned R ts us) :
    Coincide R (expression read ts) (expression read us) := by
  refine (hread _ _ hts).bind ?_
  rintro ⟨operand, rest⟩ ⟨operand', rest'⟩ ⟨rfl, hrest⟩
  exact (expectEnd_paired hrest).bind fun _ _ _ => rfl

theorem solve_paired (hts : Aligned R ts us) :
    Coincide R (solve read ts) (solve read us) := by
  have hequals := plain_kind (· == .equals)
  refine (require_paired hts hequals (hts.told rfl rfl rfl)).bind fun _ _ _ => ?_
  refine (hread _ _ hts).bind ?_
  rintro ⟨lhs, ts⟩ ⟨lhs', us⟩ ⟨rfl, hts⟩
  refine (expect_paired hts hequals (hts.behind _ _ rfl rfl rfl)).bind ?_
  rintro ⟨_, ts⟩ ⟨_, us⟩ ⟨⟨-, -, hts⟩, -⟩
  have hfor := plain_isKeyword "for"
  refine (require_paired hts hfor (hts.told rfl rfl rfl)).bind fun _ _ _ => ?_
  refine (hread _ _ hts).bind ?_
  rintro ⟨rhs, ts⟩ ⟨rhs', us⟩ ⟨rfl, hts⟩
  refine (expect_paired hts hfor (hts.behind _ _ rfl rfl rfl)).bind ?_
  rintro ⟨_, ts⟩ ⟨_, us⟩ ⟨⟨-, -, hts⟩, -⟩
  refine (expect_paired hts plain_isSymbol (hts.told rfl rfl rfl)).bind ?_
  rintro ⟨unknown, ts⟩ ⟨unknown', us⟩ ⟨⟨-, htext, hts⟩, -⟩
  dsimp only at htext ⊢
  rw [htext]
  exact (expectEnd_paired hts).bind fun _ _ _ => rfl

theorem assigned_paired {missing : Fault} (hplace : missing.place? = some none)
    (hts : Aligned R ts us) : Coincide R (assigned read missing ts) (assigned read missing us) := by
  have hassign := plain_kind (· == .assign)
  refine (expect_paired hts hassign (hts.told rfl rfl rfl)).bind ?_
  rintro ⟨_, ts⟩ ⟨_, us⟩ ⟨⟨-, -, hts⟩, -⟩
  have hmissing : Paired (fun _ _ => True) (Fault.Alike R)
      (require (fun _ => false) (fun _ => missing) ts)
      (require (fun _ => false) (fun _ => missing) us) := by
    cases hts with
    | nil => exact .placed rfl hplace hplace .none
    | cons => trivial
  refine hmissing.bind fun _ _ _ => ?_
  refine (hread _ _ hts).bind ?_
  rintro ⟨operand, ts⟩ ⟨operand', us⟩ ⟨rfl, hts⟩
  exact (expectEnd_paired hts).bind fun _ _ _ => rfl

theorem definition_paired (hts : Aligned R ts us) :
    Coincide R (definition read ts) (definition read us) := by
  cases hts with
  | nil => exact .unplaced rfl (fun _ => rfl) (fun _ => rfl)
  | @cons t u ts us hplace hkind htext _ hrest =>
    rw [definition, definition, ← hkind, ← isSymbol_congr hkind htext, ← htext, hrest.kind_head?]
    split_ifs
    · exact .placed rfl rfl rfl (.some hplace)
    · exact .placed rfl rfl rfl (.some hplace)
    · exact .placed rfl rfl rfl (.some hplace)
    · refine (parameterList_blind t.text _ _ hrest.tail).bind ?_
      rintro ⟨params, ts⟩ ⟨params', us⟩ ⟨rfl, hts⟩
      refine (assigned_paired hread rfl hts).bind ?_
      rintro body _ rfl
      rfl
    · refine (assigned_paired hread rfl hrest).bind ?_
      rintro operand _ rfl
      rfl

theorem statement_paired (hts : Aligned R ts us) :
    Coincide R (statement read ts) (statement read us) := by
  have hassign := hts.any_kind (· == .assign)
  cases hts with
  | nil => exact .unplaced rfl (fun _ => rfl) (fun _ => rfl)
  | @cons t u ts us hplace hkind htext htouch hrest =>
    have hts : Aligned R (t :: ts) (u :: us) := .cons hplace hkind htext htouch hrest
    rw [statement, statement, ← isKeyword_congr hkind htext, ← isKeyword_congr hkind htext,
      ← hassign, ← hkind, ← isSymbol_congr hkind htext]
    split_ifs
    · exact solve_paired hread hrest
    · exact plot_paired hrest
    · exact definition_paired hread hts
    · exact .placed rfl rfl rfl (.some hplace)
    · exact expression_paired hread hts

omit hread in
-- Aligned lines make the same statement or have the same fault.
theorem ofTokens_paired (limit budget : Nat) (hts : Aligned R ts us) :
    Coincide R (ofTokens limit budget ts) (ofTokens limit budget us) :=
  statement_paired (operand_blind limit budget 1) hts

end Forms

end Reader

end Reckon
