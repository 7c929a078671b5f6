import Reckon.Proofs.Grammar.Completeness
import Reckon.Proofs.Reader.Budget

namespace Reckon.Grammar

open Reader Token

theorem parse_eq {source : List Char} {tokens : List Token} (hlength : source.length ≤ 10000)
    (hbalanced : Parenthesis.fault? source = none) (hscan : scan source = .ok tokens) :
    Statement.parse source =
      (do
        let s ← ofTokens 100 200 tokens
        Statement.checkDepth Limits.standard s
        return s : Except Fault (Statement Float)).mapError (SyntaxError.mk source) := by
  have htokens : Statement.tokens Limits.standard source = .ok tokens := by
    have hlimit : ¬Limits.standard.length < source.length := by
      simp only [Limits.standard]
      omega
    simp [Statement.tokens, hlimit, hbalanced, hscan, Except.mapError]
  simp only [Statement.parse, htokens, ok_bind]
  rfl

theorem checkDepth_cases (limits : Limits) (s : Statement Float) :
    Statement.checkDepth limits s = .ok () ∨
      Statement.checkDepth limits s = .error (.tooDeep limits.depth none) := by
  unfold Statement.checkDepth
  split_ifs
  · exact Or.inr rfl
  · exact Or.inl rfl

-- The grammar derives at most one statement from the tokens of a line.
theorem line_unique {tokens : List Token} {s s' : Statement Float} (hnumeric : Numeric tokens)
    (h : Line tokens s) (h' : Line tokens s') : s = s' := by
  have hs := line_complete 0 hnumeric (Nat.le_refl _) h
  have hs' := line_complete 0 hnumeric (Nat.le_refl _) h'
  exact Except.ok.inj (hs.symm.trans hs')

-- A derived statement is read, or the line is refused for its depth.
theorem ofTokens_of_line {limit budget : Nat} {tokens : List Token} {s : Statement Float}
    (hnumeric : Numeric tokens) (h : Line tokens s) :
    Refines (ofTokens limit budget tokens) (.ok s) := by
  have hs := line_complete limit hnumeric (Nat.le_max_right budget tokens.length) h
  rw [← hs]
  exact ofTokens_refines limit (Nat.le_max_left _ _) tokens

-- A line that is balanced and can be cut into tokens is read as what the grammar derives from
-- them, which is one statement at the most. Only a line that nests too deeply is derived and
-- not read.
theorem parse_iff_line {source : List Char} {tokens : List Token}
    (hlength : source.length ≤ 10000) (hbalanced : Parenthesis.fault? source = none)
    (hscan : scan source = .ok tokens) :
    (∀ s, Statement.parse source = .ok s → Line tokens s) ∧
    (∀ s, Line tokens s →
      (∀ e, Statement.parse source = .error e → e.code ≠ "TOO_DEEP") →
        Statement.parse source = .ok s) ∧
    ∀ s s', Line tokens s → Line tokens s' → s = s' := by
  have hnumeric := numeric_scan hscan
  have hparse := parse_eq hlength hbalanced hscan
  refine ⟨?_, ?_, fun _ _ => line_unique hnumeric⟩
  · intro s hs
    rw [hparse] at hs
    cases hread : ofTokens 100 200 tokens with
    | error fault =>
      rw [hread] at hs
      simp [Except.mapError] at hs
    | ok s' =>
      rw [hread, ok_bind] at hs
      rcases checkDepth_cases Limits.standard s' with hdepth | hdepth
      · rw [hdepth] at hs
        obtain rfl : s' = s := Except.ok.inj hs
        exact line_sound hnumeric hread
      · rw [hdepth] at hs
        simp [Except.mapError] at hs
  · intro s hs hshallow
    have hrefines : Refines (ofTokens 100 200 tokens) (.ok s) := ofTokens_of_line hnumeric hs
    rcases hrefines with hread | ⟨limit, at?, hread⟩
    · rw [hread, ok_bind] at hparse
      rcases checkDepth_cases Limits.standard s with hdepth | hdepth
      · rw [hdepth] at hparse
        exact hparse
      · rw [hdepth] at hparse
        exact absurd rfl (hshallow _ hparse)
    · rw [hread] at hparse
      exact absurd rfl (hshallow _ hparse)

-- Differences nest to the left and powers to the right.
theorem parse_iff_line_chain :
    Statement.parse "a - b - c ^ d ^ e".toList = .ok (.expression
      (.term .sub (.term .sub (.symbol "a") (.symbol "b"))
        (.term .pow (.symbol "c") (.term .pow (.symbol "d") (.symbol "e"))))) ∧
    ∃ tokens, scan "a - b - c ^ d ^ e".toList = .ok tokens ∧
      ∀ s, Line tokens s ↔ s = .expression
        (.term .sub (.term .sub (.symbol "a") (.symbol "b"))
          (.term .pow (.symbol "c") (.term .pow (.symbol "d") (.symbol "e")))) := by
  have hparse : Statement.parse "a - b - c ^ d ^ e".toList = .ok (.expression
      (.term .sub (.term .sub (.symbol "a") (.symbol "b"))
        (.term .pow (.symbol "c") (.term .pow (.symbol "d") (.symbol "e"))))) := by cbv
  have hscan : scan "a - b - c ^ d ^ e".toList = .ok
      [⟨.name, "a", 0⟩, ⟨.operator .sub, "-", 2⟩, ⟨.name, "b", 4⟩, ⟨.operator .sub, "-", 6⟩,
        ⟨.name, "c", 8⟩, ⟨.operator .pow, "^", 10⟩, ⟨.name, "d", 12⟩, ⟨.operator .pow, "^", 14⟩,
        ⟨.name, "e", 16⟩] := by cbv
  obtain ⟨hsound, -, hunique⟩ := parse_iff_line (by decide) (by decide) hscan
  refine ⟨hparse, _, hscan, fun s => ⟨fun hs => hunique _ _ hs (hsound _ hparse), ?_⟩⟩
  rintro rfl
  exact hsound _ hparse

end Reckon.Grammar
