import Reckon.Proofs.Reader.Spacing
import Reckon.Proofs.Token.Balance
import Mathlib.Data.List.Forall2

namespace Reckon

open Reader Token

namespace Parenthesis

theorem getLast?_rel {R : Token → Token → Prop} {ts us : List Token} (h : List.Forall₂ R ts us) :
    Option.Rel R ts.getLast? us.getLast? := by
  rw [← List.head?_reverse, ← List.head?_reverse]
  have hreverse := List.rel_reverse h
  generalize ts.reverse = ts at hreverse
  generalize us.reverse = us at hreverse
  cases hreverse with
  | nil => exact .none
  | cons hplace => exact .some hplace

theorem unbalanced?_rel {R : Token → Token → Prop} {ts us opened opened' : List Token}
    (hts : Aligned R ts us) (hopened : List.Forall₂ R opened opened') :
    Option.Rel R (unbalanced? opened ts) (unbalanced? opened' us) := by
  induction hts generalizing opened opened' with
  | nil => exact getLast?_rel hopened
  | cons hplace hkind _ _ _ ih =>
    simp only [unbalanced?, ← hkind]
    split_ifs
    · exact ih (.cons hplace hopened)
    · cases hopened with
      | nil => exact .some hplace
      | cons _ houter => exact ih houter
    · exact ih hopened

end Parenthesis

-- Two lists of tokens that differ in positions only, and not in which minus touches its number.
structure Respaced (ts us : List Token) : Prop where
  kinds : ts.map Token.kind = us.map Token.kind
  texts : ts.map Token.text = us.map Token.text
  touching : ∀ (i : Nat) (minus literal minus' literal' : Token), ts[i]? = some minus →
    ts[i + 1]? = some literal → us[i]? = some minus' → us[i + 1]? = some literal' →
    minus.kind = .operator .sub → literal.kind = .number →
      (literal.position = minus.position + 1 ↔ literal'.position = minus'.position + 1)

-- Two tokens with the same place in two lists.
def Opposite (ts us : List Token) (t u : Token) : Prop :=
  ∃ i : Nat, ts[i]? = some t ∧ us[i]? = some u

namespace Respaced

variable {ts us : List Token} {t u : Token}

theorem length (h : Respaced ts us) : ts.length = us.length := by
  simpa using congrArg List.length h.kinds

theorem tail (h : Respaced (t :: ts) (u :: us)) : Respaced ts us where
  kinds := (List.cons.inj h.kinds).2
  texts := (List.cons.inj h.texts).2
  touching := fun i minus literal minus' literal' =>
    h.touching (i + 1) minus literal minus' literal'

theorem of_append_singleton (h : Respaced (ts ++ [t]) (us ++ [u])) : Respaced ts us where
  kinds := by
    have := h.kinds
    rw [List.map_append, List.map_append] at this
    exact (List.append_inj' this rfl).1
  texts := by
    have := h.texts
    rw [List.map_append, List.map_append] at this
    exact (List.append_inj' this rfl).1
  touching := by
    have hleft : ∀ (l : List Token) (last : Token) i next, l[i]? = some next →
        (l ++ [last])[i]? = some next := fun l last i next hnext => by
      rw [List.getElem?_append_left (List.getElem?_eq_some_iff.mp hnext).1, hnext]
    intro i minus literal minus' literal' hminus hliteral hminus' hliteral'
    exact h.touching i minus literal minus' literal' (hleft _ _ _ _ hminus)
      (hleft _ _ _ _ hliteral) (hleft _ _ _ _ hminus') (hleft _ _ _ _ hliteral')

end Respaced

theorem Reader.Aligned.mono {R R' : Token → Token → Prop} {ts us : List Token}
    (h : Aligned R ts us) (hR : ∀ t u, R t u → R' t u) : Aligned R' ts us := by
  induction h with
  | nil => exact .nil
  | cons hplace hkind htext htouch _ ih => exact .cons (hR _ _ hplace) hkind htext htouch ih

theorem Respaced.aligned {ts us : List Token} (h : Respaced ts us) :
    Aligned (Opposite ts us) ts us := by
  induction ts generalizing us with
  | nil =>
    obtain rfl := List.length_eq_zero_iff.mp h.length.symm
    exact .nil
  | cons t ts ih =>
    cases us with
    | nil => cases h.length
    | cons u us =>
      obtain ⟨hkind, -⟩ := List.cons.inj h.kinds
      obtain ⟨htext, -⟩ := List.cons.inj h.texts
      refine .cons ⟨0, rfl, rfl⟩ hkind htext ?_ ?_
      · intro t' u' ht' hu' hnumber
        rw [List.head?_eq_getElem?] at ht' hu'
        have htouching := h.touching 0 t t' u u' rfl ht' rfl hu'
        constructor
        · exact fun ⟨hsub, hnext⟩ => ⟨hkind ▸ hsub, (htouching hsub hnumber).mp hnext⟩
        · exact fun ⟨hsub, hnext⟩ =>
            ⟨hkind ▸ hsub, (htouching (hkind ▸ hsub) hnumber).mpr hnext⟩
      · exact (ih h.tail).mono fun t' u' ⟨i, ht', hu'⟩ => ⟨i + 1, ht', hu'⟩

-- Two faults with the same cause, and with places that belong together if they have any.
def SameFault (ts us : List Token) (e e' : SyntaxError) : Prop :=
  e.code = e'.code ∧
    (e.position? = none ∧ e'.position? = none ∨
      ∃ (i : Nat) (t u : Token), ts[i]? = some t ∧ us[i]? = some u ∧
        e.position? = some t.position ∧ e'.position? = some u.position)

theorem sameFault_of_alike {ts us : List Token} {source source' : List Char}
    (hend : ∃ (i : Nat) (t u : Token), ts[i]? = some t ∧ us[i]? = some u ∧
      t.position = source.length ∧ u.position = source'.length) {e e' : Fault}
    (h : Fault.Alike (Opposite ts us) e e') :
    SameFault ts us ⟨source, e⟩ ⟨source', e'⟩ := by
  cases h with
  | placed hcode hplace hplace' hat =>
    refine ⟨hcode, .inr ?_⟩
    have hposition := Fault.position?_of_place hplace source
    have hposition' := Fault.position?_of_place hplace' source'
    cases hat with
    | none =>
      obtain ⟨i, t, u, ht, hu, htend, huend⟩ := hend
      exact ⟨i, t, u, ht, hu, by rw [htend]; exact hposition, by rw [huend]; exact hposition'⟩
    | some hopposite =>
      obtain ⟨i, ht, hu⟩ := hopposite
      exact ⟨i, _, _, ht, hu, hposition, hposition'⟩
  | sign hopposite htouches htouches' =>
    obtain ⟨i, ht, hu⟩ := hopposite
    refine ⟨rfl, .inr ⟨i, _, _, ht, hu, ?_, ?_⟩⟩
    · simp [SyntaxError.position?, Fault.position?, htouches.position]
    · simp [SyntaxError.position?, Fault.position?, htouches'.position]
  | unbalanced hopposite =>
    obtain ⟨i, ht, hu⟩ := hopposite
    exact ⟨rfl, .inr ⟨i, _, _, ht, hu, rfl, rfl⟩⟩
  | unplaced hcode hnone hnone' => exact ⟨hcode, .inl ⟨hnone source, hnone' source'⟩⟩

namespace Statement

theorem tokens_of_scan {source : List Char} {tokens : List Token}
    (hlength : source.length ≤ Limits.standard.length) (hscan : scan source = .ok tokens) :
    Statement.tokens Limits.standard source =
      match Parenthesis.unbalanced? [] tokens with
      | some t => .error (.unbalanced t.position)
      | none => .ok tokens := by
  rw [Statement.tokens, if_neg (Nat.not_lt.mpr hlength), Parenthesis.fault?_scan hscan, hscan]
  cases Parenthesis.unbalanced? [] tokens <;> rfl

-- What a line is before a fault of it is told with the line.
def read (source : List Char) : Except Fault (Statement Float) := do
  let s ← Reader.ofTokens Limits.standard.depth Limits.standard.budget
    (← Statement.tokens Limits.standard source)
  checkDepth Limits.standard s
  return s

theorem read_paired {R : Token → Token → Prop} {source source' : List Char} {ts us : List Token}
    (hlength : source.length ≤ Limits.standard.length)
    (hlength' : source'.length ≤ Limits.standard.length)
    (hscan : scan source = .ok ts) (hscan' : scan source' = .ok us) (hts : Aligned R ts us) :
    Coincide R (read source) (read source') := by
  have htokens : Paired (Aligned R) (Fault.Alike R) (Statement.tokens Limits.standard source)
      (Statement.tokens Limits.standard source') := by
    rw [tokens_of_scan hlength hscan, tokens_of_scan hlength' hscan']
    have hunbalanced := Parenthesis.unbalanced?_rel hts .nil
    generalize Parenthesis.unbalanced? [] ts = t? at hunbalanced
    generalize Parenthesis.unbalanced? [] us = u? at hunbalanced
    cases hunbalanced with
    | none => exact hts
    | some hplace => exact .unbalanced hplace
  refine htokens.bind fun ts us hts => (ofTokens_paired _ _ hts).bind ?_
  rintro s _ rfl
  rw [checkDepth]
  split_ifs
  · exact .unplaced rfl (fun _ => rfl) (fun _ => rfl)
  · exact rfl

-- Lines of the same tokens, a minus and the number it touches kept together, make the same
-- statement. Or neither of them makes one, and both faults have the same cause and the same place:
-- that of one token, or the end of the line, or none.
theorem parse_respaced {source source' : List Char} {line line' : List Token}
    (hlength : source.length ≤ 10000) (hlength' : source'.length ≤ 10000)
    (hscan : scanLine source = .ok line) (hscan' : scanLine source' = .ok line')
    (h : Respaced line line') :
    (∃ s, parse source = .ok s ∧ parse source' = .ok s) ∨
      ∃ e e', parse source = .error e ∧ parse source' = .error e' ∧ SameFault line line' e e' := by
  obtain ⟨ts, hts, hline⟩ := bind_eq_ok.mp hscan
  obtain ⟨us, hus, hline'⟩ := bind_eq_ok.mp hscan'
  obtain rfl := Except.ok.inj hline
  obtain rfl := Except.ok.inj hline'
  have haligned : Aligned (Opposite (ts ++ [⟨.finish, "", source.length⟩])
      (us ++ [⟨.finish, "", source'.length⟩])) ts us := by
    refine h.of_append_singleton.aligned.mono ?_
    rintro t u ⟨i, ht, hu⟩
    refine ⟨i, ?_, ?_⟩
    · rw [List.getElem?_append_left (List.getElem?_eq_some_iff.mp ht).1, ht]
    · rw [List.getElem?_append_left (List.getElem?_eq_some_iff.mp hu).1, hu]
  have hread := read_paired hlength hlength' hts hus haligned
  have hparse : parse source = (read source).mapError (SyntaxError.mk source) := rfl
  have hparse' : parse source' = (read source').mapError (SyntaxError.mk source') := rfl
  rw [hparse, hparse']
  cases hleft : read source <;> cases hright : read source'
  case ok.ok s s' =>
    rw [hleft, hright] at hread
    obtain rfl : s = s' := hread
    exact .inl ⟨s, rfl, rfl⟩
  case error.error e e' =>
    rw [hleft, hright] at hread
    refine .inr ⟨_, _, rfl, rfl, sameFault_of_alike ?_ hread⟩
    have hlast : ts.length = us.length := h.of_append_singleton.length
    exact ⟨ts.length, ⟨.finish, "", source.length⟩, ⟨.finish, "", source'.length⟩, by simp,
      by simp [hlast], rfl, rfl⟩
  all_goals
    rw [hleft, hright] at hread
    exact hread.elim

-- The number that cannot be read is told at its sign, wherever the sign stands.
theorem parse_respaced_sign :
    ∃ e e' tokens tokens', scanLine "f(a , -1.2.3)".toList = .ok tokens ∧
      scanLine "f(a,-1.2.3 )".toList = .ok tokens' ∧
      parse "f(a , -1.2.3)".toList = .error e ∧ parse "f(a,-1.2.3 )".toList = .error e' ∧
      SameFault tokens tokens' e e' ∧ e.position? = some 6 := by
  have hscan : scanLine "f(a , -1.2.3)".toList = .ok
      [⟨.name, "f", 0⟩, ⟨.opening, "(", 1⟩, ⟨.name, "a", 2⟩, ⟨.comma, ",", 4⟩,
        ⟨.operator .sub, "-", 6⟩, ⟨.number, "1.2.3", 7⟩, ⟨.closing, ")", 12⟩,
        ⟨.finish, "", 13⟩] := by cbv
  have hscan' : scanLine "f(a,-1.2.3 )".toList = .ok
      [⟨.name, "f", 0⟩, ⟨.opening, "(", 1⟩, ⟨.name, "a", 2⟩, ⟨.comma, ",", 3⟩,
        ⟨.operator .sub, "-", 4⟩, ⟨.number, "1.2.3", 5⟩, ⟨.closing, ")", 11⟩,
        ⟨.finish, "", 12⟩] := by cbv
  have herror : parse "f(a , -1.2.3)".toList =
      .error ⟨"f(a , -1.2.3)".toList, .invalidNumber true ⟨.number, "1.2.3", 7⟩⟩ := by cbv
  refine (parse_respaced (by decide) (by decide) hscan hscan' ⟨rfl, rfl, ?_⟩).elim ?_ ?_
  · intro i minus literal minus' literal' hminus hliteral hminus' hliteral' hsub hnumber
    have hi : i < 7 := Nat.lt_of_succ_lt_succ (List.getElem?_eq_some_iff.mp hliteral).1
    interval_cases i
    all_goals
      obtain rfl := Option.some.inj hminus
      obtain rfl := Option.some.inj hliteral
      obtain rfl := Option.some.inj hminus'
      obtain rfl := Option.some.inj hliteral'
      simp at hsub hnumber ⊢
  · rintro ⟨s, hs, -⟩
    cases herror.symm.trans hs
  · rintro ⟨e, e', he, he', hsame⟩
    obtain rfl := Except.error.inj (herror.symm.trans he)
    exact ⟨_, e', _, _, hscan, hscan', he, he', hsame, rfl⟩

end Statement

end Reckon
