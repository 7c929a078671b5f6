import Reckon.Proofs.Token.Scan
import Reckon.Proofs.Token.Shift

namespace Reckon.Token

theorem isDigit_of_isBlank {c : Char} (h : Text.isBlank c = true) : Text.isDigit c = false := by
  have hzeros : ∀ first ∈ Text.digitZeros, first = 48 ∨ (0x660 ≤ first ∧ first + 10 ≤ 0x1680) ∨
      (0x1681 ≤ first ∧ first + 10 ≤ 0x2000) ∨ 0x3001 ≤ first := by decide
  simp only [Text.isBlank, Bool.or_eq_true, Bool.and_eq_true, decide_eq_true_eq, beq_iff_eq] at h
  simp only [Text.isDigit, Text.digitValue?, Option.isSome_map, List.find?_isSome,
    Bool.eq_false_iff, ne_eq, not_exists, not_and, Bool.and_eq_true, decide_eq_true_eq]
  intro first hfirst
  have := hzeros first hfirst
  omega

-- The lexemes by their first character. All but numbers, names and `:=` are one character long.
theorem lexeme?_cases {c : Char} {cs : List Char} {kind : TokenKind} {length : Nat}
    (h : lexeme? c cs = some (kind, length)) :
    (Text.isDigit c = true ∧ kind = .number ∧ length = (numberRest cs).length + 1) ∨
    (isNameStart c = true ∧ kind = .name ∧ length = (cs.takeWhile isNameRest).length + 1) ∨
    (c = ':' ∧ kind = .assign ∧ length = 2 ∧ cs.head? = some '=') ∨
    (length = 1 ∧ (c = '(' ∧ kind = .opening ∨ c = ')' ∧ kind = .closing ∨
      c = ',' ∧ kind = .comma ∨ c = '=' ∧ kind = .equals ∨
      ∃ o, c = Operation.sign o ∧ kind = .operator o)) := by
  unfold lexeme? at h
  split_ifs at h with hdigit hname hcolon hopening hclosing hcomma hequals
  · obtain ⟨rfl, rfl⟩ := Prod.mk.inj (Option.some.inj h)
    exact .inl ⟨hdigit, rfl, rfl⟩
  · obtain ⟨rfl, rfl⟩ := Prod.mk.inj (Option.some.inj h)
    exact .inr (.inl ⟨hname, rfl, rfl⟩)
  · split at h
    · obtain ⟨rfl, rfl⟩ := Prod.mk.inj (Option.some.inj h)
      exact .inr (.inr (.inl ⟨hcolon, rfl, rfl, rfl⟩))
    · cases h
  · obtain ⟨rfl, rfl⟩ := Prod.mk.inj (Option.some.inj h)
    exact .inr (.inr (.inr ⟨rfl, .inl ⟨hopening, rfl⟩⟩))
  · obtain ⟨rfl, rfl⟩ := Prod.mk.inj (Option.some.inj h)
    exact .inr (.inr (.inr ⟨rfl, .inr (.inl ⟨hclosing, rfl⟩)⟩))
  · obtain ⟨rfl, rfl⟩ := Prod.mk.inj (Option.some.inj h)
    exact .inr (.inr (.inr ⟨rfl, .inr (.inr (.inl ⟨hcomma, rfl⟩))⟩))
  · obtain ⟨rfl, rfl⟩ := Prod.mk.inj (Option.some.inj h)
    exact .inr (.inr (.inr ⟨rfl, .inr (.inr (.inr (.inl ⟨hequals, rfl⟩)))⟩))
  · obtain ⟨o, ho, he⟩ := Option.map_eq_some_iff.mp h
    obtain ⟨rfl, rfl⟩ := Prod.mk.inj he
    have hsign : o.sign = c := by simpa using List.find?_some ho
    exact .inr (.inr (.inr ⟨rfl, .inr (.inr (.inr (.inr ⟨o, hsign.symm, rfl⟩)))⟩))

-- No lexeme starts with a blank.
theorem isBlank_of_lexeme? {c : Char} {cs : List Char} {kind : TokenKind} {length : Nat}
    (h : lexeme? c cs = some (kind, length)) : Text.isBlank c = false := by
  rcases lexeme?_cases h with ⟨hdigit, -⟩ | ⟨hname, -⟩ | ⟨rfl, -⟩ |
    ⟨-, ⟨rfl, -⟩ | ⟨rfl, -⟩ | ⟨rfl, -⟩ | ⟨rfl, -⟩ | ⟨o, rfl, -⟩⟩
  · by_contra hblank
    simp [isDigit_of_isBlank (by simpa using hblank)] at hdigit
  · exact isBlank_of_isNameStart hname
  · decide
  · decide
  · decide
  · decide
  · decide
  · cases o <;> decide

end Reckon.Token
