import Reckon.Token
import Reckon.Proofs.Number.Literal
import Reckon.Proofs.Outcome

namespace Reckon.Token

open Text Number

-- A token as the scanner cuts it out of a line.
def OccursIn (source : List Char) (t : Token) : Prop :=
  ∃ c cs length, source.drop t.position = c :: cs ∧ lexeme? c cs = some (t.kind, length) ∧
    t.text = String.ofList ((c :: cs).take length)

-- How the scanner gets past a character that belongs to no lexeme before it.
theorem scanFrom_zero_eq_ok {position : Nat} {c : Char} {cs : List Char} {tokens : List Token} :
    scanFrom position 0 (c :: cs) = .ok tokens ↔
      (isBlank c = true ∧ scanFrom (position + 1) 0 cs = .ok tokens) ∨
      ∃ kind length rest, isBlank c = false ∧ lexeme? c cs = some (kind, length) ∧
        scanFrom (position + 1) (length - 1) cs = .ok rest ∧
        tokens = ⟨kind, String.ofList ((c :: cs).take length), position⟩ :: rest := by
  rw [scanFrom]
  cases isBlank c with
  | true => simp
  | false =>
    cases lexeme? c cs with
    | none => simp
    | some lexeme =>
      obtain ⟨kind, length⟩ := lexeme
      simp [bind_eq_ok, pure, Except.pure, eq_comm (b := tokens)]

theorem scanFrom_occurs (source : List Char) {position skip : Nat} {cs : List Char}
    {tokens : List Token} (hcs : source.drop position = cs)
    (hscan : scanFrom position skip cs = .ok tokens) : ∀ t ∈ tokens, t.OccursIn source := by
  induction cs generalizing position skip tokens with
  | nil =>
    obtain rfl : [] = tokens := by simpa [scanFrom] using hscan
    simp
  | cons c cs ih =>
    have hnext : source.drop (position + 1) = cs := by
      rw [← List.drop_drop, hcs, List.drop_one, List.tail_cons]
    cases skip with
    | succ skip => exact ih hnext hscan
    | zero =>
      rcases scanFrom_zero_eq_ok.mp hscan with
        ⟨-, hscan⟩ | ⟨kind, length, rest, -, hlexeme, hrest, rfl⟩
      · exact ih hnext hscan
      · intro t ht
        rcases List.mem_cons.mp ht with rfl | ht
        · exact ⟨c, cs, length, hcs, hlexeme, rfl⟩
        · exact ih hnext hrest t ht

theorem exists_exponentPart_append (cs : List Char) :
    ∃ rest, exponentPart cs ++ rest = cs := by
  cases cs with
  | nil => exact ⟨[], rfl⟩
  | cons e cs =>
    simp only [exponentPart]
    split
    · cases cs with
      | nil => exact ⟨[e], rfl⟩
      | cons s rest =>
        by_cases hs : s = '+' ∨ s = '-'
        · simp only [hs, ite_true]
          split
          · exact ⟨_, List.nil_append _⟩
          · exact ⟨rest.dropWhile isDigit, by simp⟩
        · simp only [hs, ite_false]
          split
          · exact ⟨_, List.nil_append _⟩
          · exact ⟨(s :: rest).dropWhile isDigit, by simp⟩
    · exact ⟨_, List.nil_append _⟩

-- The scanner takes just the characters that belong to a number.
theorem take_numberRest (cs : List Char) : cs.take (numberRest cs).length = numberRest cs := by
  obtain ⟨rest, hrest⟩ := exists_exponentPart_append (cs.dropWhile isMantissa)
  have happend : numberRest cs ++ rest = cs := by
    change cs.takeWhile isMantissa ++ exponentPart (cs.dropWhile isMantissa) ++ rest = cs
    rw [List.append_assoc, hrest, List.takeWhile_append_dropWhile]
  have htake := congrArg (List.take (numberRest cs).length) happend
  rw [List.take_left] at htake
  exact htake.symm

theorem lexeme?_number {c : Char} {cs : List Char} {length : Nat}
    (h : lexeme? c cs = some (.number, length)) :
    isDigit c = true ∧ length = (numberRest cs).length + 1 := by
  unfold lexeme? at h
  split at h
  · rename_i hc
    exact ⟨hc, by simpa using h.symm⟩
  · cases hsign : Operation.ofSign? c <;> grind

theorem OccursIn.lexeme {source : List Char} {t : Token} (h : t.OccursIn source)
    (hkind : t.kind = .number) : Lexeme t.text.toList := by
  obtain ⟨c, cs, length, -, hlexeme, htext⟩ := h
  rw [hkind] at hlexeme
  obtain ⟨hc, rfl⟩ := lexeme?_number hlexeme
  exact ⟨c, cs, hc, by rw [htext, String.toList_ofList, List.take_succ_cons, take_numberRest]⟩

-- A list of tokens in which every number is a lexeme that starts with a digit.
def Numeric (tokens : List Token) : Prop :=
  ∀ t ∈ tokens, t.kind = .number → Lexeme t.text.toList

@[simp] theorem numeric_append {ts us : List Token} :
    Numeric (ts ++ us) ↔ Numeric ts ∧ Numeric us := by
  simp only [Numeric, List.mem_append, or_imp, forall_and]

@[simp] theorem numeric_cons {t : Token} {ts : List Token} :
    Numeric (t :: ts) ↔ (t.kind = .number → Lexeme t.text.toList) ∧ Numeric ts := by
  simp only [Numeric, List.mem_cons, or_imp, forall_and, forall_eq]

theorem numeric_scan {source : List Char} {tokens : List Token} (h : scan source = .ok tokens) :
    Numeric tokens :=
  fun t ht => (scanFrom_occurs source List.drop_zero h t ht).lexeme

end Reckon.Token
