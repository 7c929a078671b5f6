import Reckon.Proofs.Grammar.Completeness
import Reckon.Proofs.Grammar.Prefix

namespace Reckon.Grammar

open Reader Token

-- A line that only an expression can make: it can be cut into tokens, and it has the form of no
-- other statement.
structure ExpressionLine (source : List Char) (tokens : List Token) : Prop where
  short : source.length ≤ Limits.standard.length
  balanced : Parenthesis.fault? source = none
  scanned : scan source = .ok tokens
  visible : ∃ c ∈ source, Text.isBlank c = false
  noAssign : NoAssign tokens
  noKeyword : ∀ t, tokens.head? = some t → ∀ word ∈ keywords, t.isKeyword word = false

theorem scanFrom_eq_nil {position : Nat} {cs : List Char} (h : scanFrom position 0 cs = .ok []) :
    ∀ c ∈ cs, Text.isBlank c = true := by
  induction cs generalizing position with
  | nil => simp
  | cons c cs ih =>
    rcases scanFrom_zero_eq_ok.mp h with ⟨hblank, hrest⟩ | ⟨kind, length, rest, -, -, -, htokens⟩
    · exact List.forall_mem_cons.mpr ⟨hblank, ih hrest⟩
    · cases htokens

theorem isSymbol_of_noKeyword {t : Token} (hkind : t.kind = .name)
    (h : ∀ word ∈ keywords, t.isKeyword word = false) : t.isSymbol = true := by
  by_contra hsymbol
  have hword : t.text ∈ keywords := by simpa [isSymbol, hkind] using hsymbol
  have := h _ hword
  simp [isKeyword, hkind] at this

theorem ExpressionLine.statement_eq {source : List Char} {tokens : List Token}
    (h : ExpressionLine source tokens) (read : Step (Operand Float)) :
    statement read tokens = expression read tokens := by
  cases tokens with
  | nil =>
    obtain ⟨c, hc, hvisible⟩ := h.visible
    have hblank := scanFrom_eq_nil h.scanned c hc
    simp [hblank] at hvisible
  | cons t ts =>
    have hkeyword := h.noKeyword t rfl
    have hassign : (t :: ts).any (·.kind == .assign) = false := by
      simpa [NoAssign] using h.noAssign
    have hsymbol : ¬(t.kind = .name ∧ (!t.isSymbol) = true) := by
      rintro ⟨hkind, hsymbol⟩
      simp [isSymbol_of_noKeyword hkind hkeyword] at hsymbol
    rw [statement, if_neg (by simp [hkeyword "solve" (by decide)]),
      if_neg (by simp [hkeyword "plot" (by decide)]), if_neg (by simp [hassign]), if_neg hsymbol]

-- An expression fails in its operand, or at what stands behind it.
theorem blocks_expression {read : Nat → Step (Operand Float)} (hread : Prompt read) :
    Blocks (fun tokens r => r = expression (read 1) tokens) fun ts => ∃ x, Sum ts x := by
  intro tokens e hnumeric h
  rcases expression_eq_error.mp h.symm with hoperand | ⟨x, t, rest, hx, rfl⟩
  · refine Blocked.within [] (hread.blocks 1 _ e hnumeric hoperand.symm) ?_ ?_
    · rintro us ⟨x, hx⟩
      exact ⟨[], x, by simpa using show Sum us x from hx⟩
    · rintro us _ hagree rfl
      exact ⟨_, rfl, fun e' he' => expression_eq_error.mpr (.inl he')⟩
  · obtain ⟨before, rfl, hlevel, -, hother⟩ := hread.of_ok hnumeric hx
    refine ⟨before, t :: rest, [], rfl, .next (leftover_place? t),
      ⟨x, by simpa using show Sum before x from hlevel⟩, ?_⟩
    rintro us _ hagree rfl
    obtain ⟨rest', hrest', hdrop, hagree'⟩ := hother 1 us hagree
    obtain ⟨t', rest', rfl, hkind, -⟩ := hagree'.exists_cons
    rw [hdrop]
    exact ⟨_, expression_eq_error.mpr (.inr ⟨x, t', rest', hrest', rfl⟩), leftover_code hkind,
      .next (leftover_place? t')⟩

theorem ExpressionLine.parse_eq_error {source : List Char} {tokens : List Token} {e : SyntaxError}
    (h : ExpressionLine source tokens) (hdeep : e.code ≠ "TOO_DEEP") :
    Statement.parse source = .error e ↔ ∃ fault, e = ⟨source, fault⟩ ∧
      expression (operand Limits.standard.depth Limits.standard.budget 1) tokens =
        .error fault := by
  have htokens : Statement.tokens Limits.standard source = .ok tokens :=
    Statement.tokens_eq_ok.mpr ⟨h.short, h.balanced, h.scanned⟩
  rw [Statement.parse_eq_error]
  refine exists_congr fun fault => and_congr_right fun hfault => ?_
  rw [← h.statement_eq, ← ofTokens]
  constructor
  · rintro (hlost | ⟨ts, hts, hread | ⟨s, -, -, rfl⟩⟩)
    · cases htokens.symm.trans hlost
    · obtain rfl := Except.ok.inj (htokens.symm.trans hts)
      exact hread
    · subst hfault
      exact absurd rfl hdeep
  · exact fun hread => .inr ⟨tokens, htokens, .inl hread⟩

-- A token list agrees with another one as far as `Agree` says if kinds, texts and touching
-- neighbours do; only whether a minus touches its number matters.
theorem parse_error_first {source : List Char} {tokens : List Token} {e : SyntaxError}
    (hline : ExpressionLine source tokens) (herror : Statement.parse source = .error e)
    (hdeep : e.code ≠ "TOO_DEEP") :
    ∃ before after, tokens = before ++ after ∧
      e.position? = some (Fault.positionOf source after.head?) ∧
      (∃ more x, Sum (before ++ more) x) ∧
      ∀ source' tokens', ExpressionLine source' tokens' →
        Agree (before.length + 2) tokens tokens' →
        ∃ e', Statement.parse source' = .error e' ∧ e'.code = e.code ∧
          e'.position? = some (Fault.positionOf source' (tokens'.drop before.length).head?) := by
  obtain ⟨fault, rfl, hfault⟩ := (hline.parse_eq_error hdeep).mp herror
  obtain ⟨before, after, more, htokens, hstuck, hmore, hother⟩ :=
    blocks_expression (prompt_operand _ _) tokens fault (numeric_scan hline.scanned) hfault.symm
  refine ⟨before, after, htokens, hstuck.position?_eq source, ⟨more, hmore⟩, ?_⟩
  intro source' tokens' hline' hagree
  obtain ⟨fault', hfault', hcode, hstuck'⟩ := hother tokens' _ hagree rfl
  have hdeep' : SyntaxError.code ⟨source', fault'⟩ ≠ "TOO_DEEP" :=
    fun h => hdeep (hcode.symm.trans h)
  exact ⟨⟨source', fault'⟩, (hline'.parse_eq_error hdeep').mpr ⟨fault', rfl, hfault'⟩, hcode,
    hstuck'.position?_eq source'⟩

-- The name that no argument goes on with is at fault, whatever comes behind the parenthesis.
theorem parse_error_first_argument :
    (∃ more x, Sum ([⟨.name, "f", 0⟩, ⟨.opening, "(", 1⟩, ⟨.name, "a", 2⟩, ⟨.comma, ",", 3⟩,
      ⟨.name, "b", 5⟩] ++ more) x) ∧
    ∃ e e', Statement.parse "f(a, b c) + d".toList = .error e ∧ e.position? = some 7 ∧
      Statement.parse "f(a,b c)^*".toList = .error e' ∧ e'.position? = some 6 ∧
      e'.code = e.code := by
  have hscan : scan "f(a, b c) + d".toList = .ok
      [⟨.name, "f", 0⟩, ⟨.opening, "(", 1⟩, ⟨.name, "a", 2⟩, ⟨.comma, ",", 3⟩, ⟨.name, "b", 5⟩,
        ⟨.name, "c", 7⟩, ⟨.closing, ")", 8⟩, ⟨.operator .add, "+", 10⟩, ⟨.name, "d", 12⟩] := by
    cbv
  have hscan' : scan "f(a,b c)^*".toList = .ok
      [⟨.name, "f", 0⟩, ⟨.opening, "(", 1⟩, ⟨.name, "a", 2⟩, ⟨.comma, ",", 3⟩, ⟨.name, "b", 4⟩,
        ⟨.name, "c", 6⟩, ⟨.closing, ")", 7⟩, ⟨.operator .pow, "^", 8⟩,
        ⟨.operator .mul, "*", 9⟩] := by
    cbv
  have hline : ExpressionLine "f(a, b c) + d".toList _ :=
    ⟨by decide, by decide, hscan, ⟨'f', by decide, by decide⟩, by simp [NoAssign], by decide⟩
  have hline' : ExpressionLine "f(a,b c)^*".toList _ :=
    ⟨by decide, by decide, hscan', ⟨'f', by decide, by decide⟩, by simp [NoAssign], by decide⟩
  have herror : Statement.parse "f(a, b c) + d".toList =
      .error ⟨"f(a, b c) + d".toList, .operationExpected ⟨.name, "c", 7⟩⟩ := by cbv
  obtain ⟨before, after, htokens, hposition, hmore, hother⟩ :=
    parse_error_first hline herror (by decide)
  -- No other token starts at the place of the fault.
  have hbefore : before.length = 5 := by
    have hlength : before.length ≤ 9 := by
      have := congrArg List.length htokens
      simp at this
      omega
    have hafter := congrArg (List.drop before.length) htokens
    rw [List.drop_left] at hafter
    rw [← hafter] at hposition
    clear hother hmore
    generalize before.length = n at *
    interval_cases n
    all_goals simp [SyntaxError.position?, Fault.position?, Fault.positionOf] at hposition ⊢
  have hfront := congrArg (List.take before.length) htokens
  rw [List.take_left, hbefore] at hfront
  rw [← hfront] at hmore
  have hline'' := hother _ _ hline'
  rw [hbefore] at hline''
  obtain ⟨e', herror', hcode, hposition'⟩ := hline'' <|
    .cons rfl rfl (by simp) <| .cons rfl rfl (by simp) <| .cons rfl rfl (by simp) <|
    .cons rfl rfl (by simp) <| .cons rfl rfl (by simp) <| .cons rfl rfl (by simp) <|
    .cons rfl rfl (by simp) .unseen
  exact ⟨hmore, _, e', herror, by rfl, herror', hposition', hcode⟩

end Reckon.Grammar
