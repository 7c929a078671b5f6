import Reckon.Proofs.Token.Lexeme

namespace Reckon.Token

-- The tokens close `n` open parentheses, those that they open, and no others.
def Closes : Nat → List Token → Prop
  | n, [] => n = 0
  | n, t :: ts =>
    if t.kind = .opening then Closes (n + 1) ts
    else if t.kind = .closing then ∃ m, n = m + 1 ∧ Closes m ts
    else Closes n ts

section Closes

variable {n : Nat} {t : Token} {ts : List Token}

theorem closes_opening (h : t.kind = .opening) : Closes n (t :: ts) ↔ Closes (n + 1) ts := by
  simp [Closes, h]

theorem closes_closing (h : t.kind = .closing) : Closes (n + 1) (t :: ts) ↔ Closes n ts := by
  simp [Closes, h]

theorem closes_skip (hopening : t.kind ≠ .opening) (hclosing : t.kind ≠ .closing) :
    Closes n (t :: ts) ↔ Closes n ts := by
  simp [Closes, hopening, hclosing]

end Closes

-- Neither parenthesis is part of a number or a name.

theorem not_parenthesis_of_isDigit {c : Char} (h : Text.isDigit c = true) : c ≠ '(' ∧ c ≠ ')' :=
  ⟨Number.ne_of_isDigit h (by decide), Number.ne_of_isDigit h (by decide)⟩

theorem not_parenthesis_of_toNat {c : Char} (h : 48 ≤ c.toNat) : c ≠ '(' ∧ c ≠ ')' := by
  constructor
  · rintro rfl
    exact absurd h (by decide)
  · rintro rfl
    exact absurd h (by decide)

theorem not_parenthesis_of_mem_exponent {e : List Char} (he : Number.Exponent e) :
    ∀ d ∈ e, d ≠ '(' ∧ d ≠ ')' := by
  cases he with
  | none => simp
  | some hletter hsign _ hdigits =>
    intro d hd
    rcases List.mem_cons.mp hd with rfl | hd
    · rcases hletter with rfl | rfl <;> decide
    · rcases List.mem_append.mp hd with hd | hd
      · rcases hsign with rfl | rfl | rfl
        · cases hd
        · obtain rfl := List.mem_singleton.mp hd
          decide
        · obtain rfl := List.mem_singleton.mp hd
          decide
      · exact not_parenthesis_of_isDigit (hdigits d hd)

theorem not_parenthesis_of_mem_numberRest {cs : List Char} :
    ∀ d ∈ numberRest cs, d ≠ '(' ∧ d ≠ ')' := by
  intro d hd
  rcases List.mem_append.mp hd with hd | hd
  · have hpart := List.all_eq_true.mp List.all_takeWhile d hd
    rcases Bool.or_eq_true_iff.mp hpart with hdigit | hpoint
    · exact not_parenthesis_of_isDigit hdigit
    · obtain rfl : d = '.' := by simpa using hpoint
      decide
  · exact not_parenthesis_of_mem_exponent (Number.exponent_exponentPart _) d hd

-- What a lexeme takes behind its first character.
theorem not_parenthesis_of_lexeme? {c : Char} {cs : List Char} {kind : TokenKind} {length : Nat}
    (h : lexeme? c cs = some (kind, length)) :
    ∀ d ∈ cs.take (length - 1), d ≠ '(' ∧ d ≠ ')' := by
  rcases lexeme?_cases h with ⟨-, -, rfl⟩ | ⟨-, -, rfl⟩ | ⟨-, -, rfl, hassign⟩ | ⟨rfl, -⟩
  · rw [Nat.add_sub_cancel, take_numberRest]
    exact not_parenthesis_of_mem_numberRest
  · intro d hd
    rw [Nat.add_sub_cancel, ← List.prefix_iff_eq_take.mp (List.takeWhile_prefix _)] at hd
    have hrest := List.all_eq_true.mp List.all_takeWhile d hd
    exact not_parenthesis_of_toNat (toNat_of_isNameRest hrest).1
  · obtain ⟨rest, rfl⟩ := List.head?_eq_some_iff.mp hassign
    simp
  · simp

theorem kind_of_lexeme? {c : Char} {cs : List Char} {kind : TokenKind} {length : Nat}
    (h : lexeme? c cs = some (kind, length)) :
    (c = '(' ↔ kind = .opening) ∧ (c = ')' ↔ kind = .closing) := by
  rcases lexeme?_cases h with ⟨hdigit, rfl, -⟩ | ⟨hname, rfl, -⟩ | ⟨rfl, rfl, -⟩ |
    ⟨-, ⟨rfl, rfl⟩ | ⟨rfl, rfl⟩ | ⟨rfl, rfl⟩ | ⟨rfl, rfl⟩ | ⟨o, rfl, rfl⟩⟩
  · simp [not_parenthesis_of_isDigit hdigit]
  · have hlow := (toNat_of_isNameStart hname).1
    simp [not_parenthesis_of_toNat (show 48 ≤ c.toNat by omega)]
  · decide
  · decide
  · decide
  · decide
  · decide
  · cases o <;> decide

end Reckon.Token

namespace Reckon.Parenthesis

open Token

-- The parenthesis among the tokens at which the balance fails, the innermost open one first.
def unbalanced? : (opened : List Token) → List Token → Option Token
  | opened, [] => opened.getLast?
  | opened, t :: ts =>
    if t.kind = .opening then unbalanced? (t :: opened) ts
    else if t.kind = .closing then
      match opened with
      | [] => some t
      | _ :: outer => unbalanced? outer ts
    else unbalanced? opened ts

-- The balance of the characters is that of the tokens. A lexeme that has been read in part has no
-- parenthesis among the characters to be skipped.
theorem faultFrom_scanFrom (opened : List Token) {position skip : Nat} {cs : List Char}
    {tokens : List Token} (hskip : ∀ d ∈ cs.take skip, d ≠ '(' ∧ d ≠ ')')
    (hscan : scanFrom position skip cs = .ok tokens) :
    faultFrom position (opened.map Token.position) cs =
      (unbalanced? opened tokens).map Token.position := by
  induction cs generalizing position skip opened tokens with
  | nil =>
    obtain rfl : [] = tokens := by simpa [scanFrom] using hscan
    simp [faultFrom, unbalanced?]
  | cons c cs ih =>
    simp only [faultFrom]
    cases skip with
    | succ skip =>
      rw [List.take_succ_cons] at hskip
      obtain ⟨⟨hopening, hclosing⟩, hskip⟩ := List.forall_mem_cons.mp hskip
      rw [if_neg hopening, if_neg hclosing]
      exact ih opened hskip hscan
    | zero =>
      rcases scanFrom_zero_eq_ok.mp hscan with
        ⟨hblank, hscan⟩ | ⟨kind, length, rest, -, hlexeme, hrest, rfl⟩
      · rw [if_neg (by rintro rfl; cases hblank), if_neg (by rintro rfl; cases hblank)]
        exact ih opened (by simp) hscan
      · have hskip := not_parenthesis_of_lexeme? hlexeme
        obtain ⟨hopening, hclosing⟩ := kind_of_lexeme? hlexeme
        simp only [unbalanced?, ← hopening, ← hclosing]
        split_ifs
        · exact ih (⟨kind, _, position⟩ :: opened) hskip hrest
        · cases opened with
          | nil => rfl
          | cons t outer => exact ih outer hskip hrest
        · exact ih opened hskip hrest

theorem fault?_scan {source : List Char} {tokens : List Token} (h : scan source = .ok tokens) :
    fault? source = (unbalanced? [] tokens).map Token.position :=
  faultFrom_scanFrom [] (by simp) h

end Reckon.Parenthesis

namespace Reckon.Token

theorem closes_of_unbalanced? {opened tokens : List Token}
    (h : Parenthesis.unbalanced? opened tokens = none) : Closes opened.length tokens := by
  induction tokens generalizing opened with
  | nil =>
    obtain rfl : opened = [] := by simpa [Parenthesis.unbalanced?] using h
    rfl
  | cons t ts ih =>
    simp only [Parenthesis.unbalanced?] at h
    split_ifs at h with hopening hclosing
    · exact (closes_opening hopening).mpr (ih h)
    · cases opened with
      | nil => cases h
      | cons q outer => exact (closes_closing hclosing).mpr (ih h)
    · exact (closes_skip hopening hclosing).mpr (ih h)

theorem closes_scan {source : List Char} {tokens : List Token}
    (hbalanced : Parenthesis.fault? source = none) (hscan : scan source = .ok tokens) :
    Closes 0 tokens := by
  rw [Parenthesis.fault?_scan hscan, Option.map_eq_none_iff] at hbalanced
  exact closes_of_unbalanced? hbalanced

end Reckon.Token
