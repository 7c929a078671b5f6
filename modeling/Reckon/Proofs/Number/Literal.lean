import Reckon.Token
import Reckon.Number.Reading
import Mathlib.Data.List.Basic

namespace Reckon.Number

open Text

-- A character before the exponent of a literal.
def isMantissa (c : Char) : Bool := isDigit c || c == '.'

def exponentValue : List Char → Int
  | [] => 0
  | _ :: '-' :: digits => -(digitsValue (digits.filterMap digitValue?) : Int)
  | _ :: digits => digitsValue (digits.filterMap digitValue?)

def literalValue (cs : List Char) : Float :=
  let mantissa := cs.takeWhile isMantissa
  let decimals := (mantissa.dropWhile (· != '.')).filterMap digitValue?
  nearest (digitsValue (mantissa.filterMap digitValue?))
    (exponentValue (cs.dropWhile isMantissa) - decimals.length)

-- The characters of a number token.
def Lexeme (cs : List Char) : Prop :=
  ∃ c rest, isDigit c = true ∧ cs = c :: Token.numberRest rest

-- An exponent has at least one digit, or is missing altogether.
inductive Exponent : List Char → Prop
  | none : Exponent []
  | some {e : Char} {sign digits : List Char} : e = 'e' ∨ e = 'E' →
      sign = [] ∨ sign = ['+'] ∨ sign = ['-'] → digits ≠ [] →
      (∀ d ∈ digits, isDigit d = true) → Exponent (e :: (sign ++ digits))

theorem exponent_exponentPart (cs : List Char) : Exponent (Token.exponentPart cs) := by
  cases cs with
  | nil => exact .none
  | cons e cs =>
    simp only [Token.exponentPart]
    split
    · rename_i he
      have hdigits : ∀ rest : List Char, ∀ d ∈ rest.takeWhile isDigit, isDigit d = true :=
        fun rest => List.all_eq_true.mp List.all_takeWhile
      cases cs with
      | nil => exact .none
      | cons s rest =>
        by_cases hs : s = '+' ∨ s = '-'
        · simp only [hs, ite_true]
          split
          · exact .none
          · rename_i hne
            refine .some he ?_ hne (hdigits rest)
            rcases hs with rfl | rfl <;> simp
        · simp only [hs, ite_false]
          split
          · exact .none
          · rename_i hne
            exact .some he (Or.inl rfl) hne (hdigits _)
    · exact .none

theorem ne_of_isDigit {c d : Char} (hc : isDigit c = true) (hd : isDigit d = false) : c ≠ d := by
  rintro rfl
  simp [hc] at hd

private theorem isDigit_point : isDigit '.' = false := by decide

private theorem isDigit_minus : isDigit '-' = false := by decide

private theorem isDigit_plus : isDigit '+' = false := by decide

-- Digits in front of anything that does not start with one are split off as a whole.
theorem spanDigits_append (digits rest : List Char) (hdigits : ∀ d ∈ digits, isDigit d = true)
    (hrest : ∀ c, rest.head? = some c → isDigit c = false) :
    spanDigits (digits ++ rest) = (digits.filterMap digitValue?, rest) := by
  have htake : rest.takeWhile isDigit = [] := by
    cases rest with
    | nil => rfl
    | cons c rest => simp [hrest c rfl]
  have hdrop : rest.dropWhile isDigit = rest := by
    cases rest with
    | nil => rfl
    | cons c rest => simp [hrest c rfl]
  rw [spanDigits, List.takeWhile_append_of_pos hdigits, List.dropWhile_append_of_pos hdigits,
    htake, hdrop, List.append_nil]

theorem filterMap_digitValue?_ne_nil {digits : List Char} (hne : digits ≠ [])
    (hdigits : ∀ d ∈ digits, isDigit d = true) : digits.filterMap digitValue? ≠ [] := by
  cases digits with
  | nil => exact absurd rfl hne
  | cons d ds =>
    obtain ⟨n, hn⟩ := Option.isSome_iff_exists.mp (hdigits d (by simp))
    simp [hn]

theorem readDigits?_eq {digits : List Char} (hne : digits ≠ [])
    (hdigits : ∀ d ∈ digits, isDigit d = true) :
    readDigits? digits = some (digitsValue (digits.filterMap digitValue?)) := by
  have hspan := spanDigits_append digits [] hdigits (by simp)
  rw [List.append_nil] at hspan
  have hmapped := filterMap_digitValue?_ne_nil hne hdigits
  simp only [readDigits?, hspan]

-- What is read behind the `e` of an exponent is the value of the exponent.
theorem readExponent?_eq {e : Char} {sign digits : List Char}
    (hsign : sign = [] ∨ sign = ['+'] ∨ sign = ['-']) (hne : digits ≠ [])
    (hdigits : ∀ d ∈ digits, isDigit d = true) :
    readExponent? (sign ++ digits) = some (exponentValue (e :: (sign ++ digits))) := by
  have hread := readDigits?_eq hne hdigits
  rcases hsign with rfl | rfl | rfl
  · cases digits with
    | nil => exact absurd rfl hne
    | cons d ds =>
      have hd : isDigit d = true := hdigits d (by simp)
      have hminus : d ≠ '-' := ne_of_isDigit hd isDigit_minus
      have hplus : d ≠ '+' := ne_of_isDigit hd isDigit_plus
      simp [readExponent?, exponentValue, hminus, hplus, hread]
  · have hplus : digitValue? '+' = none := by decide
    simp [readExponent?, exponentValue, hread, hplus]
  · simp [readExponent?, exponentValue, hread]

theorem isDigit_eq_false_of_exponent {e : List Char} (he : Exponent e) :
    ∀ c, e.head? = some c → isDigit c = false ∧ isMantissa c = false := by
  intro c hc
  cases he with
  | none => simp at hc
  | some h _ _ _ =>
    obtain rfl : _ = c := by simpa using hc
    rcases h with rfl | rfl <;> decide

theorem point_notMem_exponent {e : List Char} (he : Exponent e) : '.' ∉ e := by
  cases he with
  | none => simp
  | some h hsign _ hdigits =>
    intro hm
    rcases List.mem_cons.mp hm with rfl | hm
    · simp at h
    · rcases List.mem_append.mp hm with hm | hm
      · rcases hsign with rfl | rfl | rfl <;> simp at hm
      · exact ne_of_isDigit (hdigits _ hm) isDigit_point rfl

theorem literalValue_append {mantissa e : List Char}
    (hm : ∀ c ∈ mantissa, isMantissa c = true) (he : Exponent e) :
    literalValue (mantissa ++ e) =
      nearest (digitsValue (mantissa.filterMap digitValue?)) (exponentValue e -
        ((mantissa.dropWhile (· != '.')).filterMap digitValue?).length) := by
  have htake : e.takeWhile isMantissa = [] := by
    cases e with
    | nil => rfl
    | cons c e => simp [(isDigit_eq_false_of_exponent he c rfl).2]
  have hdrop : e.dropWhile isMantissa = e := by
    cases e with
    | nil => rfl
    | cons c e => simp [(isDigit_eq_false_of_exponent he c rfl).2]
  simp only [literalValue, List.takeWhile_append_of_pos hm, List.dropWhile_append_of_pos hm,
    htake, hdrop, List.append_nil]

-- An exponent scales the digits.
theorem readScaled?_exponent (value : Int → Float) {e : List Char} (he : Exponent e) :
    readScaled? value e = some (value (exponentValue e)) := by
  cases he with
  | none => rfl
  | @some e sign digits h hsign hne hdigits =>
    simp only [readScaled?, h, ite_true, readExponent?_eq (e := e) hsign hne hdigits,
      Option.map_some]

theorem spanFraction_of_no_point {e : List Char} (he : Exponent e) :
    spanFraction e = ([], e) := by
  cases e with
  | nil => rfl
  | cons c rest =>
    have hc : c ≠ '.' := fun h => point_notMem_exponent he (by simp [h])
    simp [spanFraction, hc]

-- The three ways in which digits and points can follow each other in front of an exponent: no
-- point, one, or two and more.
theorem readUnsigned?_whole {digits e : List Char} (hne : digits ≠ [])
    (hd : ∀ d ∈ digits, isDigit d = true) (he : Exponent e) :
    readUnsigned? (digits ++ e) =
      some (nearest (digitsValue (digits.filterMap digitValue?)) (exponentValue e)) := by
  have hspan := spanDigits_append digits e hd fun c hc => (isDigit_eq_false_of_exponent he c hc).1
  have hmapped := filterMap_digitValue?_ne_nil hne hd
  simp [readUnsigned?, hspan, spanFraction_of_no_point he, hmapped, readScaled?_exponent _ he]

theorem readUnsigned?_fraction {digits decimals e : List Char} (hne : digits ≠ [])
    (hd : ∀ d ∈ digits, isDigit d = true) (hf : ∀ d ∈ decimals, isDigit d = true)
    (he : Exponent e) :
    readUnsigned? (digits ++ '.' :: (decimals ++ e)) =
      some (nearest (digitsValue ((digits ++ decimals).filterMap digitValue?))
        (exponentValue e - (decimals.filterMap digitValue?).length)) := by
  have hspan := spanDigits_append digits ('.' :: (decimals ++ e)) hd (by simp [isDigit_point])
  have hfraction := spanDigits_append decimals e hf
    fun c hc => (isDigit_eq_false_of_exponent he c hc).1
  have hmapped := filterMap_digitValue?_ne_nil hne hd
  simp [readUnsigned?, hspan, spanFraction, hfraction, hmapped, readScaled?_exponent _ he]

theorem readUnsigned?_points {digits decimals rest : List Char}
    (hd : ∀ d ∈ digits, isDigit d = true) (hf : ∀ d ∈ decimals, isDigit d = true) :
    readUnsigned? (digits ++ '.' :: (decimals ++ '.' :: rest)) = none := by
  have hspan := spanDigits_append digits ('.' :: (decimals ++ '.' :: rest)) hd
    (by simp [isDigit_point])
  have hfraction := spanDigits_append decimals ('.' :: rest) hf (by simp [isDigit_point])
  simp [readUnsigned?, hspan, spanFraction, hfraction, readScaled?]

theorem digits_or_point (mantissa : List Char) (hm : ∀ c ∈ mantissa, isMantissa c = true) :
    (∀ d ∈ mantissa, isDigit d = true) ∨
      ∃ digits rest, mantissa = digits ++ '.' :: rest ∧ (∀ d ∈ digits, isDigit d = true) ∧
        ∀ c ∈ rest, isMantissa c = true := by
  induction mantissa with
  | nil => exact Or.inl (by simp)
  | cons c cs ih =>
    have hc : isDigit c = true ∨ c = '.' := by simpa [isMantissa] using hm c (by simp)
    have hcs : ∀ c ∈ cs, isMantissa c = true := fun c h => hm c (List.mem_cons_of_mem _ h)
    rcases hc with hc | rfl
    · rcases ih hcs with h | ⟨digits, rest, rfl, hd, hr⟩
      · exact Or.inl (by simpa [hc] using h)
      · exact Or.inr ⟨c :: digits, rest, rfl, by simpa [hc] using hd, hr⟩
    · exact Or.inr ⟨[], cs, rfl, by simp, hcs⟩

theorem count_point_digits {digits : List Char} (hd : ∀ d ∈ digits, isDigit d = true) :
    digits.count '.' = 0 :=
  List.count_eq_zero.mpr fun h => ne_of_isDigit (hd _ h) isDigit_point rfl

theorem decimals_digits {digits : List Char} (hd : ∀ d ∈ digits, isDigit d = true)
    (rest : List Char) : (digits ++ rest).dropWhile (· != '.') = rest.dropWhile (· != '.') :=
  List.dropWhile_append_of_pos fun d h => by simpa using ne_of_isDigit (hd d h) isDigit_point

theorem isMantissa_of_isDigit {c : Char} (h : isDigit c = true) : isMantissa c = true := by
  simp [isMantissa, h]

-- A lexeme is split into what stands before its exponent, with a digit in front, and its exponent.
theorem Lexeme.exists_mantissa {cs : List Char} (h : Lexeme cs) :
    ∃ mantissa e, cs = mantissa ++ e ∧ (∀ c ∈ mantissa, isMantissa c = true) ∧
      (∃ c, mantissa.head? = some c ∧ isDigit c = true) ∧ Exponent e := by
  obtain ⟨c, rest, hc, rfl⟩ := h
  refine ⟨c :: rest.takeWhile isMantissa, Token.exponentPart (rest.dropWhile isMantissa), rfl, ?_,
    ⟨c, rfl, hc⟩, exponent_exponentPart _⟩
  intro d hd
  rcases List.mem_cons.mp hd with rfl | hd
  · exact isMantissa_of_isDigit hc
  · exact List.all_eq_true.mp List.all_takeWhile d hd

-- What the reader makes of a number token.
theorem readUnsigned?_lexeme {cs : List Char} (h : Lexeme cs) :
    readUnsigned? cs = if cs.count '.' ≤ 1 then some (literalValue cs) else none := by
  obtain ⟨mantissa, e, rfl, hm, ⟨c, hhead, hc⟩, he⟩ := h.exists_mantissa
  have hcount : e.count '.' = 0 := List.count_eq_zero.mpr (point_notMem_exponent he)
  rw [literalValue_append hm he]
  have hpoint : digitValue? '.' = none := by decide
  rcases digits_or_point mantissa hm with hd | ⟨digits, rest, rfl, hd, hr⟩
  · have hne : mantissa ≠ [] := by
      rintro rfl
      simp at hhead
    have hdrop : mantissa.dropWhile (· != '.') = [] := by
      simpa using decimals_digits hd []
    rw [readUnsigned?_whole hne hd he, hdrop]
    simp [count_point_digits hd, hcount]
  · have hne : digits ≠ [] := by
      rintro rfl
      obtain rfl : '.' = c := by simpa using hhead
      simp [isDigit_point] at hc
    rcases digits_or_point rest hr with hf | ⟨decimals, more, rfl, hf, -⟩
    · rw [List.append_assoc, List.cons_append, readUnsigned?_fraction hne hd hf he,
        decimals_digits hd]
      simp [count_point_digits hd, count_point_digits hf, hcount, hpoint]
    · rw [List.append_assoc, List.cons_append, List.append_assoc, List.cons_append,
        readUnsigned?_points hd hf]
      simp [count_point_digits hd, count_point_digits hf]

end Reckon.Number
