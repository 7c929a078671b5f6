import Reckon.Proofs.Reader.Failure
import Reckon.Proofs.Reader.Invariant
import Reckon.Proofs.Token.Balance

namespace Reckon.Reader

open Token

-- The tokens that are left close the parentheses that are open.
theorem invariant_closes : Invariant Closes fun e => ¬e.Unclosed where
  next hts hopening hclosing := (closes_skip hopening hclosing).mp hts
  opening hts hkind := (closes_opening hkind).mp hts
  closing hts hkind := (closes_closing hkind).mp hts
  told _ _ hclosed := hclosed
  sign _ _ := id
  unclosed hts _ := nomatch hts
  emptyStatement := id
  plotNameMissing := id

-- The places behind a parenthesis where an operand is read: directly behind it, where that of a
-- group and the first argument of a call start, and behind each comma that follows on an operand.
inductive Inside (read : Step (Operand Float)) : List Token → List Token → Prop
  | behind {opening : Token} {ts : List Token} :
      opening.kind = .opening → Inside read (opening :: ts) ts
  | next {ts us rest : List Token} {x : Operand Float} {comma : Token} :
      Inside read ts us → read us = .ok (x, comma :: rest) → comma.kind = .comma →
      Inside read ts rest

theorem closes_inside {read : Step (Operand Float)} {n : Nat} {ts us : List Token}
    (hread : Keeps Closes (fun e => ¬e.Unclosed) read) (h : Inside read ts us)
    (hts : Closes n ts) : Closes (n + 1) us := by
  induction h with
  | behind hkind => exact (closes_opening hkind).mp hts
  | next _ hx hcomma ih =>
    have hrest := ((hread _ _ (ih hts)).of_ok hx).1
    exact invariant_closes.skip hrest hcomma (by simp)

-- What is left at any place closes what is open there.
theorem exists_closes {before after : List Token} {n : Nat} (h : Closes n (before ++ after)) :
    ∃ m, Closes m after := by
  induction before generalizing n with
  | nil => exact ⟨n, h⟩
  | cons t before ih =>
    rw [List.cons_append, Closes] at h
    split_ifs at h
    · exact ih h
    · obtain ⟨m, -, h⟩ := h
      exact ih h
    · exact ih h

-- In a balanced line something is left behind every operand that is read inside of a parenthesis,
-- no list of parameters comes to the end of the line, and no fault of the line says that a
-- parenthesis is missing.
theorem rest_ne_nil_of_balanced {source : List Char} {tokens : List Token}
    (hbalanced : Parenthesis.fault? source = none) (hscan : scan source = .ok tokens) :
    (∀ limit budget before after inside x rest, tokens = before ++ after →
      Inside (operand limit budget 1) after inside →
      operand limit budget 1 inside = .ok (x, rest) → rest ≠ []) ∧
    (∀ before opening inside name e, tokens = before ++ opening :: inside →
      opening.kind = .opening → parameterList name inside = .error e → ¬e.Unclosed) ∧
    ∀ e, Statement.parse source = .error e → ¬e.fault.Unclosed := by
  have htokens := closes_scan hbalanced hscan
  refine ⟨?_, ?_, ?_⟩
  · rintro limit budget before after inside x rest rfl hinside hx rfl
    have hread := operand_ends invariant_closes limit budget 1
    obtain ⟨n, hafter⟩ := exists_closes htokens
    have hrest := (hread _ _ (closes_inside hread hinside hafter)).of_ok hx
    cases hrest.1
  · rintro before opening inside name e rfl hopening he
    obtain ⟨n, hafter⟩ := exists_closes htokens
    have hinside := (closes_opening hopening).mp hafter
    exact (parameterList_ends invariant_closes name hinside).of_error he
  · rintro e he
    obtain ⟨fault, rfl, hfault⟩ := Statement.parse_eq_error.mp he
    rcases hfault with hlost | ⟨ts, hts, hread | ⟨s, -, -, rfl⟩⟩
    · rcases Statement.tokens_error_cases hlost with rfl | ⟨p, -, rfl⟩ | ⟨s, -, rfl⟩
      all_goals exact id
    · obtain ⟨-, -, hscan'⟩ := Statement.tokens_eq_ok.mp hts
      obtain rfl := Except.ok.inj (hscan.symm.trans hscan')
      exact (ofTokens_ends invariant_closes _ _ htokens).of_error hread
    · exact id

-- The second argument of a call, which is a group.
theorem rest_ne_nil_of_balanced_argument :
    ∃ inside rest, scan "f(a, (b))".toList = .ok
        (⟨.name, "f", 0⟩ :: ⟨.opening, "(", 1⟩ :: ⟨.name, "a", 2⟩ :: ⟨.comma, ",", 3⟩ :: inside) ∧
      operand 100 199 1 inside = .ok (.symbol "b", rest) ∧ rest ≠ [] ∧
      ∀ e, Statement.parse "f(a, (b))".toList = .error e → ¬e.fault.Unclosed := by
  have hscan : scan "f(a, (b))".toList = .ok
      [⟨.name, "f", 0⟩, ⟨.opening, "(", 1⟩, ⟨.name, "a", 2⟩, ⟨.comma, ",", 3⟩, ⟨.opening, "(", 5⟩,
        ⟨.name, "b", 6⟩, ⟨.closing, ")", 7⟩, ⟨.closing, ")", 8⟩] := by cbv
  obtain ⟨hrest, -, hclosed⟩ := rest_ne_nil_of_balanced (by decide) hscan
  have hfirst : operand 100 199 1 [⟨.name, "a", 2⟩, ⟨.comma, ",", 3⟩, ⟨.opening, "(", 5⟩,
      ⟨.name, "b", 6⟩, ⟨.closing, ")", 7⟩, ⟨.closing, ")", 8⟩] = .ok (.symbol "a",
        [⟨.comma, ",", 3⟩, ⟨.opening, "(", 5⟩, ⟨.name, "b", 6⟩, ⟨.closing, ")", 7⟩,
          ⟨.closing, ")", 8⟩]) := by rfl
  have hsecond : operand 100 199 1 [⟨.opening, "(", 5⟩, ⟨.name, "b", 6⟩, ⟨.closing, ")", 7⟩,
      ⟨.closing, ")", 8⟩] = .ok (.symbol "b", [⟨.closing, ")", 8⟩]) := by rfl
  exact ⟨_, _, hscan, hsecond, hrest 100 199 [⟨.name, "f", 0⟩] _ _ _ _ rfl
    (.next (.behind rfl) hfirst rfl) hsecond, hclosed⟩

end Reckon.Reader
