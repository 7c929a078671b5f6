import Reckon.Proofs.Grammar.Theorems
import Reckon.Proofs.Reader.Shift

namespace Reckon.Statement

open Token Reader Grammar

-- The tokens of an expression are read as an operand up to the last.
theorem read_of_expression {limit budget : Nat} {tokens : List Token} {x : Operand Float}
    (hnumeric : Numeric tokens) (h : ofTokens limit budget tokens = .ok (.expression x)) :
    operand limit budget 1 tokens = .ok (x, []) := by
  have hline := line_sound hnumeric h
  cases hline with
  | expression hsum =>
    rw [ofTokens, statement_expression hsum] at h
    obtain ⟨y, hread, hexpression⟩ := expression_eq_ok.mp h
    obtain rfl := Statement.expression.inj hexpression
    exact hread

theorem isSymbol_of_isName {name : String} (hname : isName name = true) (position : Nat) :
    isSymbol ⟨.name, name, position⟩ = true := by
  obtain ⟨-, -, -, -, -, hkeyword⟩ := isName_start hname
  simp [isSymbol, hkeyword]

theorem no_parenthesis_of_isName {name : String} (hname : isName name = true) :
    ∀ c ∈ name.toList, c ≠ '(' ∧ c ≠ ')' := by
  intro c hc
  have hrest := toNat_of_isNameRest (isNameRest_of_isName hname c hc)
  constructor
  · rintro rfl
    exact absurd hrest (by decide)
  · rintro rfl
    exact absurd hrest (by decide)

-- A name by itself is a symbol.
theorem parse_name {name : String} (hname : isName name = true)
    (hlength : name.length ≤ Limits.standard.length) :
    parse name.toList = .ok (.expression (.symbol name)) := by
  have hsymbol := isSymbol_of_isName hname 0
  have hsum : Sum [⟨.name, name, 0⟩] (.symbol name) := .product (.power (.atom (.symbol hsymbol)))
  have hbalanced : Parenthesis.fault? name.toList = none := by
    have happend := Parenthesis.fault?_append (no_parenthesis_of_isName hname) []
    rwa [List.append_nil] at happend
  refine parse_eq_ok.mpr ⟨by rwa [String.length_toList], hbalanced, ?_, _, scan_name hname, ?_⟩
  · intro t ht
    obtain rfl := List.mem_singleton.mp ht
    simp [Operand.depthByStack, Operand.deepestLevel, Limits.standard]
  · rw [ofTokens, statement_expression hsum]
    refine expression_eq_ok.mpr ⟨.symbol name, level_eq_ok.mpr ⟨_, [], ?_, rfl⟩, rfl⟩
    exact atom_eq_ok.mpr (.inr (.inr (.inl ⟨hsymbol, by simp, rfl, rfl⟩)))

theorem parse_assignment {name : String} (hname : isName name = true) {source : List Char}
    {x : Operand Float} (h : parse source = .ok (.expression x))
    (hlength : name.length + 4 + source.length ≤ Limits.standard.length) :
    parse (name.toList ++ ' ' :: ':' :: '=' :: ' ' :: source) = .ok (.assignment name x) := by
  obtain ⟨-, hbalanced, hdepth, tokens, hscan, hread⟩ := parse_eq_ok.mp h
  have hoperand := read_of_expression (numeric_scan hscan) hread
  have hsymbol := isSymbol_of_isName hname 0
  have hmoved := operand_steady (k := name.length + 4) _ _ _ _ _ _ hoperand
  have hfront : ∀ c ∈ name.toList ++ [' ', ':', '=', ' '], c ≠ '(' ∧ c ≠ ')' := by
    refine List.forall_mem_append.mpr ⟨no_parenthesis_of_isName hname, ?_⟩
    simp
  refine parse_eq_ok.mpr ⟨?_, ?_, hdepth, _, scan_assignment hname hscan, ?_⟩
  · simp only [List.length_append, String.length_toList, List.length_cons]
    omega
  · have happend := Parenthesis.fault?_append hfront source
    rw [hbalanced, List.append_assoc] at happend
    exact happend
  · have hne : tokens ≠ [] := by
      rintro rfl
      cases hread
    rw [ofTokens, statement_definition hsymbol ⟨_, List.mem_cons_self .., rfl⟩]
    refine definition_eq_ok.mpr ⟨_, _, rfl, hsymbol, .inr ⟨by simp, x, ?_, rfl⟩⟩
    exact assigned_eq_ok.mpr ⟨_, _, rfl, rfl, by simpa using hne, hmoved⟩

end Reckon.Statement
