import Reckon.Proofs.Parenthesis
import Reckon.Proofs.Reader.Failure
import Reckon.Proofs.Reader.Invariant
import Reckon.Proofs.Token.Excerpt

namespace Reckon

namespace Token

-- The character that starts no lexeme stands where it is told.
theorem scanFrom_eq_error {source : List Char} {position skip : Nat} {cs : List Char} {s : Stray}
    (hcs : source.drop position = cs) (h : scanFrom position skip cs = .error s) :
    ∃ rest, source.drop s.position = s.character :: rest := by
  induction cs generalizing position skip with
  | nil => simp [scanFrom] at h
  | cons c cs ih =>
    have hnext : source.drop (position + 1) = cs := by
      rw [← List.drop_drop, hcs, List.drop_one, List.tail_cons]
    cases skip with
    | succ skip => exact ih hnext h
    | zero =>
      rw [scanFrom] at h
      split at h
      · exact ih hnext h
      · split at h
        · obtain rfl := Except.error.inj h
          exact ⟨cs, hcs⟩
        · rcases bind_eq_error.mp h with hrest | ⟨_, -, hpure⟩
          · exact ih hnext hrest
          · cases hpure

end Token

namespace Reader

variable {source : List Char}

-- Every token that is left occurs in the line, so a fault that is told at one quotes it.
theorem invariant_quotes :
    Invariant (fun _ ts => ∀ t ∈ ts, t.OccursIn source) (Fault.Quotes source) where
  next hts _ _ := (List.forall_mem_cons.mp hts).2
  opening hts _ := (List.forall_mem_cons.mp hts).2
  closing hts _ := (List.forall_mem_cons.mp hts).2
  told hts hplace _ := Fault.quotes_of_place hplace fun t ht => hts t (List.mem_of_head? ht)
  sign hts htouches := by
    intro position hposition
    obtain rfl : _ = position := by simpa [Fault.position?, htouches.position] using hposition
    exact Token.OccursIn.excerpt_signed (hts _ (by simp)) (hts _ (by simp)) htouches
  unclosed _ hplace := Fault.quotes_of_place hplace (by simp)
  emptyStatement := by simp [Fault.Quotes, Fault.position?]
  plotNameMissing := by simp [Fault.Quotes, Fault.position?]

end Reader

namespace Statement

theorem quotes_of_tokens_eq_error {limits : Limits} {source : List Char} {e : Fault}
    (h : Statement.tokens limits source = .error e) : e.Quotes source := by
  rcases tokens_error_cases h with rfl | ⟨p, hp, rfl⟩ | ⟨s, hs, rfl⟩
  · simp [Fault.Quotes, Fault.position?]
  · rintro _ ⟨⟩
    have hlt := Parenthesis.fault?_lt hp
    refine ⟨by omega, ?_⟩
    rw [Fault.text, Fault.characterAt, String.toList_ofList]
    exact List.take_prefix 1 _
  · rintro _ ⟨⟩
    obtain ⟨rest, hrest⟩ := Token.scanFrom_eq_error List.drop_zero hs
    refine .of_drop hrest ?_
    rw [Fault.text, String.toList_singleton]
    exact List.prefix_append [s.character] rest

-- Which tokens a line has does not matter here, only that they are those of the line.
theorem quotes_of_ofTokens_eq_error {limits : Limits} {source : List Char} {tokens : List Token}
    {limit budget : Nat} {e : Fault} (htokens : Statement.tokens limits source = .ok tokens)
    (h : Reader.ofTokens limit budget tokens = .error e) : e.Quotes source := by
  obtain ⟨-, -, hscan⟩ := tokens_eq_ok.mp htokens
  have hoccurs := Token.scanFrom_occurs source List.drop_zero hscan
  exact (Reader.ofTokens_ends Reader.invariant_quotes limit budget hoccurs).of_error h

-- The text of a fault is what stands in the line at the position of the fault.
theorem parse_error_text {source : List Char} {e : SyntaxError} {position : Nat}
    (herror : parse source = .error e) (hposition : e.position? = some position) :
    position ≤ source.length ∧
      e.text.toList = (source.drop position).take e.text.length := by
  obtain ⟨fault, rfl, hfault⟩ := parse_eq_error.mp herror
  have hquotes : fault.Quotes source := by
    rcases hfault with htokens | ⟨tokens, htokens, hread | ⟨s, -, -, rfl⟩⟩
    · exact quotes_of_tokens_eq_error htokens
    · exact quotes_of_ofTokens_eq_error htokens hread
    · simp [Fault.Quotes, Fault.position?]
  have hexcerpt := hquotes position hposition
  exact ⟨hexcerpt.bound, hexcerpt.take_eq⟩

-- A sign that touches a number is quoted with it.
theorem parse_error_text_signed :
    ∃ e, parse "x * -1.2.3".toList = .error e ∧ e.position? = some 4 ∧ e.text = "-1.2.3" ∧
      4 ≤ "x * -1.2.3".toList.length ∧
      e.text.toList = ("x * -1.2.3".toList.drop 4).take e.text.length := by
  have herror : parse "x * -1.2.3".toList =
      .error ⟨"x * -1.2.3".toList, .invalidNumber true ⟨.number, "1.2.3", 5⟩⟩ := by cbv
  exact ⟨_, herror, by decide, by decide, parse_error_text herror (by decide)⟩

end Statement

end Reckon
