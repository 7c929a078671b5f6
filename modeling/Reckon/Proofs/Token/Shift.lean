import Reckon.Parenthesis
import Reckon.Proofs.Grammar.Names

namespace Reckon

namespace Parenthesis

theorem faultFrom_shift (k position : Nat) (opened : List Nat) (cs : List Char) :
    faultFrom (position + k) (opened.map (· + k)) cs =
      (faultFrom position opened cs).map (· + k) := by
  induction cs generalizing position opened with
  | nil => simp only [faultFrom, List.getLast?_map]
  | cons c cs ih =>
    simp only [faultFrom, Nat.add_right_comm position k 1]
    split_ifs
    · exact ih (position + 1) (position :: opened)
    · cases opened with
      | nil => rfl
      | cons _ outer => exact ih (position + 1) outer
    · exact ih (position + 1) opened

theorem faultFrom_append {front : List Char} (hfront : ∀ c ∈ front, c ≠ '(' ∧ c ≠ ')')
    (position : Nat) (opened : List Nat) (cs : List Char) :
    faultFrom position opened (front ++ cs) = faultFrom (position + front.length) opened cs := by
  induction front generalizing position with
  | nil => rfl
  | cons c front ih =>
    obtain ⟨⟨hopening, hclosing⟩, hfront⟩ := List.forall_mem_cons.mp hfront
    simp only [List.cons_append, faultFrom, hopening, hclosing, ite_false]
    rw [ih hfront, List.length_cons, Nat.add_assoc, Nat.add_comm 1]

theorem fault?_append {front : List Char} (hfront : ∀ c ∈ front, c ≠ '(' ∧ c ≠ ')')
    (cs : List Char) : fault? (front ++ cs) = (fault? cs).map (· + front.length) := by
  rw [fault?, faultFrom_append hfront]
  exact faultFrom_shift front.length 0 [] cs

end Parenthesis

namespace Token

open Text

-- The token as it stands behind `k` more characters.
def shift (k : Nat) (t : Token) : Token := { t with position := t.position + k }

section Shift

variable (k : Nat) (t : Token)

@[simp] theorem kind_shift : (t.shift k).kind = t.kind := rfl

@[simp] theorem text_shift : (t.shift k).text = t.text := rfl

@[simp] theorem position_shift : (t.shift k).position = t.position + k := rfl

end Shift

theorem scanFrom_shift (k : Nat) {position skip : Nat} {cs : List Char} {tokens : List Token}
    (h : scanFrom position skip cs = .ok tokens) :
    scanFrom (position + k) skip cs = .ok (tokens.map (shift k)) := by
  induction cs generalizing position skip tokens with
  | nil =>
    obtain rfl : [] = tokens := by simpa [scanFrom] using h
    simp [scanFrom]
  | cons c cs ih =>
    cases skip with
    | succ skip =>
      rw [scanFrom, Nat.add_right_comm]
      exact ih h
    | zero =>
      rw [scanFrom_zero_eq_ok, Nat.add_right_comm position k 1]
      rcases scanFrom_zero_eq_ok.mp h with
        ⟨hblank, hscan⟩ | ⟨kind, length, rest, hblank, hlexeme, hrest, rfl⟩
      · exact .inl ⟨hblank, ih hscan⟩
      · exact .inr ⟨kind, length, rest.map (shift k), hblank, hlexeme, ih hrest, rfl⟩

-- A lexeme that has been read is skipped.
theorem scanFrom_skip (word : List Char) (position : Nat) (rest : List Char) :
    scanFrom position word.length (word ++ rest) = scanFrom (position + word.length) 0 rest := by
  induction word generalizing position with
  | nil => rfl
  | cons c word ih =>
    rw [List.cons_append, List.length_cons, scanFrom, ih, Nat.add_assoc, Nat.add_comm 1]

theorem scanFrom_lexeme {c : Char} {word rest : List Char} {kind : TokenKind}
    (hblank : isBlank c = false) (h : lexeme? c (word ++ rest) = some (kind, word.length + 1))
    (position : Nat) :
    scanFrom position 0 (c :: (word ++ rest)) = (do
      let tokens ← scanFrom (position + (word.length + 1)) 0 rest
      return ⟨kind, String.ofList (c :: word), position⟩ :: tokens) := by
  rw [scanFrom, hblank, h]
  simp only [Bool.false_eq_true, ite_false, Nat.add_sub_cancel]
  rw [scanFrom_skip, List.take_succ_cons, List.take_left, Nat.add_assoc, Nat.add_comm 1]

theorem scanFrom_blank {c : Char} (hblank : isBlank c = true) (position : Nat) (rest : List Char) :
    scanFrom position 0 (c :: rest) = scanFrom (position + 1) 0 rest := by
  rw [scanFrom, if_pos hblank]

theorem isName_start {name : String} (h : isName name = true) :
    ∃ c cs, name.toList = c :: cs ∧ isNameStart c = true ∧ (∀ d ∈ cs, isNameRest d = true) ∧
      name ∉ keywords := by
  unfold isName at h
  cases hname : name.toList with
  | nil => simp [hname] at h
  | cons c cs =>
    simp only [hname, Bool.and_eq_true, List.all_eq_true, Bool.not_eq_true',
      List.contains_eq_mem, decide_eq_false_iff_not] at h
    exact ⟨c, cs, rfl, h.1.1, h.1.2, h.2⟩

theorem isNameRest_of_isName {name : String} (h : isName name = true) :
    ∀ c ∈ name.toList, isNameRest c = true := by
  obtain ⟨c, cs, hname, hstart, hrest, -⟩ := isName_start h
  have hc : isNameRest c = true := by
    simp only [isNameStart, Bool.or_eq_true] at hstart
    simp only [isNameRest, Char.isAlphanum, Bool.or_eq_true]
    exact hstart.imp_left .inl
  rw [hname]
  exact List.forall_mem_cons.mpr ⟨hc, hrest⟩

-- Letters and the underscore stand between the digits of ASCII and those of other scripts.
theorem toNat_of_isNameStart {c : Char} (h : isNameStart c = true) :
    65 ≤ c.toNat ∧ c.toNat ≤ 122 := by
  simp only [isNameStart, Char.isAlpha, Char.isUpper, Char.isLower, Bool.or_eq_true,
    Bool.and_eq_true, decide_eq_true_eq, beq_iff_eq, UInt32.le_iff_toNat_le] at h
  rcases h with (h | h) | rfl
  · exact ⟨h.1, h.2.trans (by decide)⟩
  · exact ⟨h.1.trans' (by decide), h.2⟩
  · decide

theorem toNat_of_isNameRest {c : Char} (h : isNameRest c = true) :
    48 ≤ c.toNat ∧ c.toNat ≤ 122 := by
  simp only [isNameRest, Char.isAlphanum, Char.isDigit, Bool.or_eq_true, Bool.and_eq_true,
    decide_eq_true_eq, UInt32.le_iff_toNat_le] at h
  rcases h with (h | h) | h
  · obtain ⟨hlow, hhigh⟩ := toNat_of_isNameStart (c := c) (by simp [isNameStart, h])
    exact ⟨by omega, hhigh⟩
  · exact ⟨h.1, h.2.trans (by decide)⟩
  · obtain rfl : c = '_' := by simpa using h
    decide

theorem isBlank_of_isNameStart {c : Char} (h : isNameStart c = true) : isBlank c = false := by
  obtain ⟨hlow, hhigh⟩ := toNat_of_isNameStart h
  simp only [isBlank, Bool.or_eq_false_iff, Bool.and_eq_false_iff, decide_eq_false_iff_not,
    beq_eq_false_iff_ne]
  omega

theorem isDigit_of_isNameStart {c : Char} (h : isNameStart c = true) : isDigit c = false := by
  obtain ⟨hlow, hhigh⟩ := toNat_of_isNameStart h
  have hzeros : ∀ first ∈ digitZeros, first = 48 ∨ 0x660 ≤ first := by decide
  simp only [isDigit, digitValue?, Option.isSome_map, List.find?_isSome, Bool.eq_false_iff, ne_eq,
    not_exists, not_and, Bool.and_eq_true, decide_eq_true_eq]
  intro first hfirst
  have := hzeros first hfirst
  omega

theorem lexeme?_of_isName {c : Char} {word rest : List Char} (hstart : isNameStart c = true)
    (hword : ∀ d ∈ word, isNameRest d = true)
    (hrest : ∀ d, rest.head? = some d → isNameRest d = false) :
    lexeme? c (word ++ rest) = some (.name, word.length + 1) := by
  have hnone : rest.takeWhile isNameRest = [] := by
    cases rest with
    | nil => rfl
    | cons d rest => simp [hrest d rfl]
  have htake : (word ++ rest).takeWhile isNameRest = word := by
    rw [List.takeWhile_append_of_pos hword, hnone, List.append_nil]
  simp only [lexeme?, isDigit_of_isNameStart hstart, hstart, htake, Bool.false_eq_true, ite_false,
    ite_true]

theorem scanFrom_name {name : String} (hname : isName name = true) {rest : List Char}
    (hrest : ∀ c, rest.head? = some c → isNameRest c = false) (position : Nat) :
    scanFrom position 0 (name.toList ++ rest) = (do
      let tokens ← scanFrom (position + name.length) 0 rest
      return ⟨.name, name, position⟩ :: tokens) := by
  obtain ⟨c, word, hlist, hstart, hword, -⟩ := isName_start hname
  have hlength : name.length = word.length + 1 := by
    rw [← String.length_toList, hlist, List.length_cons]
  have hlexeme := lexeme?_of_isName hstart hword hrest
  rw [hlist, List.cons_append, scanFrom_lexeme (isBlank_of_isNameStart hstart) hlexeme, ← hlist,
    String.ofList_toList, hlength]

-- A name by itself.
theorem scan_name {name : String} (hname : isName name = true) :
    scan name.toList = .ok [⟨.name, name, 0⟩] := by
  have hnone : ∀ c, ([] : List Char).head? = some c → isNameRest c = false := by simp
  have hscan := scanFrom_name hname hnone 0
  rw [List.append_nil] at hscan
  rw [scan, hscan]
  rfl

-- A name and a `:=` in front of a text.
theorem scan_assignment {name : String} (hname : isName name = true) {cs : List Char}
    {tokens : List Token} (h : scan cs = .ok tokens) :
    scan (name.toList ++ (' ' :: ':' :: '=' :: ' ' :: cs)) =
      .ok (⟨.name, name, 0⟩ :: ⟨.assign, ":=", name.length + 1⟩ ::
        tokens.map (shift (name.length + 4))) := by
  have hblank : isBlank ' ' = true := by decide
  have hspace : ∀ c, (' ' :: ':' :: '=' :: ' ' :: cs).head? = some c → isNameRest c = false := by
    intro c hc
    obtain rfl : ' ' = c := Option.some.inj hc
    decide
  have hlexeme : lexeme? ':' (['='] ++ ' ' :: cs) = some (.assign, 2) := by rfl
  have hassign : scanFrom (name.length + 1) 0 (':' :: '=' :: ' ' :: cs) = (do
      let tokens ← scanFrom (name.length + 3) 0 (' ' :: cs)
      return ⟨.assign, ":=", name.length + 1⟩ :: tokens) :=
    scanFrom_lexeme (by decide) hlexeme (name.length + 1)
  have hrest : scanFrom (name.length + 4) 0 cs = .ok (tokens.map (shift (name.length + 4))) := by
    rw [← scanFrom_shift (name.length + 4) h, Nat.zero_add]
  rw [scan, scanFrom_name hname hspace, Nat.zero_add, scanFrom_blank hblank, hassign,
    scanFrom_blank hblank, hrest]
  rfl

end Token

end Reckon
