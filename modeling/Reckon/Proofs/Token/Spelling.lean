import Reckon.Proofs.Token.Lexeme

namespace Reckon.Token

open Text Number

inductive Spelled : TokenKind → List Char → Prop
  | number {c : Char} {mantissa exponent : List Char} : isDigit c = true →
      (∀ d ∈ mantissa, isMantissa d = true) → Exponent exponent →
      Spelled .number (c :: (mantissa ++ exponent))
  | name {c : Char} {cs : List Char} : isNameStart c = true → (∀ d ∈ cs, isNameRest d = true) →
      Spelled .name (c :: cs)
  | assign : Spelled .assign [':', '=']
  | operator (o : Operation) : Spelled (.operator o) [o.sign]
  | opening : Spelled .opening ['(']
  | closing : Spelled .closing [')']
  | comma : Spelled .comma [',']
  | equals : Spelled .equals ['=']

section Blanks

variable {c : Char}

theorem isBlank_of_isDigit (h : isDigit c = true) : isBlank c = false := by
  by_contra hblank
  rw [isDigit_of_isBlank (by simpa using hblank)] at h
  cases h

theorem isBlank_of_isNameRest (h : isNameRest c = true) : isBlank c = false := by
  obtain ⟨hlow, hhigh⟩ := toNat_of_isNameRest h
  simp only [isBlank, Bool.or_eq_false_iff, Bool.and_eq_false_iff, decide_eq_false_iff_not,
    beq_eq_false_iff_ne]
  omega

theorem isBlank_of_isMantissa (h : isMantissa c = true) : isBlank c = false := by
  rcases Bool.or_eq_true_iff.mp h with hdigit | hpoint
  · exact isBlank_of_isDigit hdigit
  · rw [beq_iff_eq.mp hpoint]
    decide

theorem isBlank_of_mem_exponent {exponent : List Char} (h : Exponent exponent) :
    ∀ d ∈ exponent, isBlank d = false := by
  cases h with
  | none => simp
  | some he hsign _ hdigits =>
    intro d hd
    rcases List.mem_cons.mp hd with rfl | hd
    · rcases he with rfl | rfl <;> decide
    · rcases List.mem_append.mp hd with hd | hd
      · rcases hsign with rfl | rfl | rfl
        · cases hd
        · rw [List.mem_singleton.mp hd]
          decide
        · rw [List.mem_singleton.mp hd]
          decide
      · exact isBlank_of_isDigit (hdigits d hd)

-- There are no blanks in lexemes.
theorem Spelled.isBlank {kind : TokenKind} {word : List Char} (h : Spelled kind word) :
    ∀ d ∈ word, isBlank d = false := by
  cases h with
  | number hc hmantissa hexponent =>
    refine List.forall_mem_cons.mpr ⟨isBlank_of_isDigit hc, fun d hd => ?_⟩
    rcases List.mem_append.mp hd with hd | hd
    · exact isBlank_of_isMantissa (hmantissa d hd)
    · exact isBlank_of_mem_exponent hexponent d hd
  | name hc hcs =>
    exact List.forall_mem_cons.mpr
      ⟨isBlank_of_isNameStart hc, fun d hd => isBlank_of_isNameRest (hcs d hd)⟩
  | assign =>
    intro d hd
    rcases List.mem_pair.mp hd with rfl | rfl <;> decide
  | operator o =>
    intro d hd
    rw [List.mem_singleton.mp hd]
    cases o <;> decide
  | _ =>
    intro d hd
    rw [List.mem_singleton.mp hd]
    decide

end Blanks

theorem Spelled.ne_nil {kind : TokenKind} {word : List Char} (h : Spelled kind word) :
    word ≠ [] := by
  cases h <;> exact List.cons_ne_nil _ _

section Lexemes

variable {c : Char} {cs word : List Char} {kind : TokenKind} {length : Nat}

theorem length_le_takeWhile {α : Type} {p : α → Bool} {front xs : List α} (h : front <+: xs)
    (hp : ∀ x ∈ front, p x = true) : front.length ≤ (xs.takeWhile p).length := by
  obtain ⟨rest, rfl⟩ := h
  rw [List.takeWhile_append_of_pos hp, List.length_append]
  exact Nat.le_add_right _ _

-- An exponent goes on as long as there are digits.
theorem length_le_exponentPart {exponent : List Char} (h : Exponent exponent) (rest : List Char) :
    exponent.length ≤ (exponentPart (exponent ++ rest)).length := by
  cases h with
  | none => exact Nat.zero_le _
  | @some e sign digits he hsign hne hdigits =>
    have hrun := length_le_takeWhile (List.prefix_append digits rest) hdigits
    obtain ⟨d, ds, rfl⟩ := List.exists_cons_of_ne_nil hne
    have hd : isDigit d = true := hdigits d List.mem_cons_self
    have hplus : d ≠ '+' := ne_of_isDigit hd (by decide)
    have hminus : d ≠ '-' := ne_of_isDigit hd (by decide)
    have hpart : exponentPart (e :: (sign ++ d :: ds) ++ rest) =
        e :: (sign ++ (d :: ds ++ rest).takeWhile isDigit) := by
      rcases hsign with rfl | rfl | rfl <;> simp [exponentPart, he, hd, hplus, hminus]
    rw [hpart]
    simp only [List.length_cons, List.length_append] at hrun ⊢
    omega

theorem length_le_numberRest {mantissa exponent : List Char}
    (hmantissa : ∀ d ∈ mantissa, isMantissa d = true) (hexponent : Exponent exponent)
    (hfront : mantissa ++ exponent <+: cs) :
    (mantissa ++ exponent).length ≤ (numberRest cs).length := by
  obtain ⟨rest, rfl⟩ := hfront
  have hnumber : numberRest (mantissa ++ exponent ++ rest) =
      (mantissa ++ exponent ++ rest).takeWhile isMantissa ++
        exponentPart ((mantissa ++ exponent ++ rest).dropWhile isMantissa) := rfl
  have hbehind := length_le_exponentPart hexponent rest
  rw [hnumber, List.append_assoc, List.takeWhile_append_of_pos hmantissa,
    List.dropWhile_append_of_pos hmantissa]
  cases hexponent with
  | none => simp
  | @some e sign digits he _ _ _ =>
    -- the `e` ends the mantissa
    have hend : isMantissa e = false := by rcases he with rfl | rfl <;> decide
    rw [List.cons_append] at hbehind ⊢
    rw [List.takeWhile_cons_of_neg (by simp [hend]), List.dropWhile_cons_of_neg (by simp [hend])]
    simp only [List.length_append, List.length_nil, List.length_cons] at hbehind ⊢
    omega

theorem Spelled.exists_lexeme (h : Spelled kind word) (hfront : word <+: c :: cs) :
    ∃ length, lexeme? c cs = some (kind, length) ∧ word.length ≤ length := by
  cases h with
  | number hc hmantissa hexponent =>
    obtain ⟨rfl, hrest⟩ := List.cons_prefix_cons.mp hfront
    refine ⟨_, if_pos hc, ?_⟩
    rw [List.length_cons]
    exact Nat.succ_le_succ (length_le_numberRest hmantissa hexponent hrest)
  | name hc hcs =>
    obtain ⟨rfl, hrest⟩ := List.cons_prefix_cons.mp hfront
    refine ⟨(cs.takeWhile isNameRest).length + 1, ?_,
      Nat.succ_le_succ (length_le_takeWhile hrest hcs)⟩
    simp only [lexeme?, isDigit_of_isNameStart hc, hc, Bool.false_eq_true, ite_false, ite_true]
  | assign =>
    obtain ⟨rfl, hrest⟩ := List.cons_prefix_cons.mp hfront
    obtain ⟨rest, rfl⟩ := hrest
    exact ⟨2, rfl, le_rfl⟩
  | operator o =>
    obtain ⟨rfl, -⟩ := List.cons_prefix_cons.mp hfront
    cases o <;> exact ⟨1, rfl, le_rfl⟩
  | opening | closing | comma | equals =>
    obtain ⟨rfl, -⟩ := List.cons_prefix_cons.mp hfront
    exact ⟨1, rfl, le_rfl⟩

theorem spelled_of_lexeme? (h : lexeme? c cs = some (kind, length)) :
    Spelled kind ((c :: cs).take length) := by
  rcases lexeme?_cases h with ⟨hc, rfl, rfl⟩ | ⟨hc, rfl, rfl⟩ | ⟨rfl, rfl, rfl, hequals⟩ |
    ⟨rfl, ⟨rfl, rfl⟩ | ⟨rfl, rfl⟩ | ⟨rfl, rfl⟩ | ⟨rfl, rfl⟩ | ⟨o, rfl, rfl⟩⟩
  · rw [List.take_succ_cons, take_numberRest]
    exact .number hc (List.all_eq_true.mp List.all_takeWhile) (exponent_exponentPart _)
  · rw [List.take_succ_cons, ← List.prefix_iff_eq_take.mp (List.takeWhile_prefix _)]
    exact .name hc (List.all_eq_true.mp List.all_takeWhile)
  · cases cs with
    | nil => cases hequals
    | cons d cs =>
      obtain rfl := Option.some.inj hequals
      exact .assign
  · exact .opening
  · exact .closing
  · exact .comma
  · exact .equals
  · exact .operator o

theorem length_le_of_lexeme? (h : lexeme? c cs = some (kind, length)) :
    length ≤ (c :: cs).length := by
  rcases lexeme?_cases h with ⟨-, -, rfl⟩ | ⟨-, -, rfl⟩ | ⟨-, -, rfl, hequals⟩ | ⟨rfl, -⟩
  · have hrest := List.length_take_le' (numberRest cs).length cs
    rw [take_numberRest] at hrest
    exact Nat.succ_le_succ hrest
  · exact Nat.succ_le_succ (List.takeWhile_prefix _).length_le
  · cases cs with
    | nil => cases hequals
    | cons d cs => simp
  · simp

-- The longest front that is spelled like a lexeme.
structure Longest (cs : List Char) (kind : TokenKind) (word : List Char) : Prop where
  spelled : Spelled kind word
  front : word <+: cs
  greatest : ∀ {kind' word'}, Spelled kind' word' → word' <+: cs →
    kind' = kind ∧ word'.length ≤ word.length

-- Main statement.
theorem longest_iff_lexeme? : Longest (c :: cs) kind word ↔
    word <+: c :: cs ∧ lexeme? c cs = some (kind, word.length) := by
  constructor
  · intro h
    obtain ⟨length, hlexeme, hle⟩ := h.spelled.exists_lexeme h.front
    have hge := (h.greatest (spelled_of_lexeme? hlexeme) (List.take_prefix _ _)).2
    rw [List.length_take, min_eq_left (length_le_of_lexeme? hlexeme)] at hge
    exact ⟨h.front, by rw [hlexeme, le_antisymm hge hle]⟩
  · rintro ⟨hfront, hlexeme⟩
    refine ⟨?_, hfront, fun hspelled hfront' => ?_⟩
    · rw [List.prefix_iff_eq_take.mp hfront]
      exact spelled_of_lexeme? hlexeme
    · obtain ⟨length, hlexeme', hle⟩ := hspelled.exists_lexeme hfront'
      obtain ⟨rfl, rfl⟩ := Prod.mk.inj (Option.some.inj (hlexeme.symm.trans hlexeme'))
      exact ⟨rfl, hle⟩

theorem exists_longest (h : lexeme? c cs = some (kind, length)) :
    ∃ word rest, c :: cs = word ++ rest ∧ Longest (word ++ rest) kind word := by
  refine ⟨(c :: cs).take length, (c :: cs).drop length, (List.take_append_drop _ _).symm, ?_⟩
  rw [List.take_append_drop, longest_iff_lexeme?, List.length_take,
    min_eq_left (length_le_of_lexeme? h)]
  exact ⟨List.take_prefix _ _, h⟩

theorem lexeme?_eq_none : lexeme? c cs = none ↔
    ∀ kind word, Spelled kind word → ¬word <+: c :: cs := by
  constructor
  · intro hnone kind word hspelled hfront
    obtain ⟨length, hlexeme, -⟩ := hspelled.exists_lexeme hfront
    rw [hnone] at hlexeme
    cases hlexeme
  · intro h
    by_contra hsome
    obtain ⟨⟨kind, length⟩, hlexeme⟩ := Option.ne_none_iff_exists'.mp hsome
    exact h _ _ (spelled_of_lexeme? hlexeme) (List.take_prefix _ _)

end Lexemes

namespace Longest

variable {cs cs' word rest : List Char} {kind : TokenKind}

theorem mono (h : Longest cs kind word) (hfront : word <+: cs')
    (hsub : ∀ {kind' word'}, Spelled kind' word' → word' <+: cs' → word' <+: cs) :
    Longest cs' kind word where
  spelled := h.spelled
  front := hfront
  greatest := fun hspelled hfront' => h.greatest hspelled (hsub hspelled hfront')

-- It is found in a shorter line, too.
theorem cut (h : Longest (word ++ (cs ++ rest)) kind word) : Longest (word ++ cs) kind word :=
  h.mono (List.prefix_append word cs) fun _ hfront => by
    rw [← List.append_assoc]
    exact hfront.trans (List.prefix_append _ rest)

-- A blank ends it, whatever it was before.
theorem before_blank (h : Longest cs kind word)
    (hrest : ∀ c, rest.head? = some c → isBlank c = true) : Longest (word ++ rest) kind word := by
  refine h.mono (List.prefix_append word rest) fun {kind' word'} hspelled hfront => ?_
  suffices hle : word'.length ≤ word.length from
    (List.prefix_of_prefix_length_le hfront (List.prefix_append word rest) hle).trans h.front
  by_contra hlt
  obtain ⟨more, rfl⟩ := List.prefix_of_prefix_length_le (List.prefix_append word rest) hfront
    (by omega)
  rw [List.prefix_append_right_inj] at hfront
  cases more with
  | nil => simp at hlt
  | cons c more =>
    obtain ⟨rest', rfl⟩ := hfront
    have hblank := hspelled.isBlank c (by simp)
    rw [hrest c rfl] at hblank
    cases hblank

-- It is one by itself.
theorem alone (h : Longest cs kind word) : Longest word kind word := by
  have hend := h.before_blank (by simp : ∀ c, ([] : List Char).head? = some c → isBlank c = true)
  rwa [List.append_nil] at hend

end Longest

end Reckon.Token
