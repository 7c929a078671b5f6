import Reckon.Proofs.Grammar.Soundness

namespace Reckon

namespace Token

-- Words that variables, functions and parameters may be called by.
def isName (word : String) : Bool :=
  match word.toList with
  | [] => false
  | c :: cs => isNameStart c && cs.all isNameRest && !keywords.contains word

theorem lexeme?_name {c : Char} {cs : List Char} {length : Nat}
    (h : lexeme? c cs = some (.name, length)) :
    isNameStart c = true ∧ length = (cs.takeWhile isNameRest).length + 1 := by
  unfold lexeme? at h
  split at h
  · simp at h
  · split at h
    · rename_i hc
      exact ⟨hc, by simpa using h.symm⟩
    · cases hsign : Operation.ofSign? c <;> grind

theorem OccursIn.isName {source : List Char} {t : Token} (h : t.OccursIn source)
    (hsymbol : t.isSymbol = true) : isName t.text = true := by
  obtain ⟨c, cs, length, -, hlexeme, htext⟩ := h
  obtain ⟨hkind, hkeyword⟩ : t.kind = .name ∧ t.text ∉ keywords := by
    simpa [isSymbol] using hsymbol
  rw [hkind] at hlexeme
  obtain ⟨hstart, rfl⟩ := lexeme?_name hlexeme
  have hword : t.text.toList = c :: cs.takeWhile isNameRest := by
    rw [htext, String.toList_ofList, List.take_succ_cons,
      ← List.prefix_iff_eq_take.mp (List.takeWhile_prefix _)]
  have hrest : (cs.takeWhile isNameRest).all isNameRest = true := List.all_takeWhile
  simp [Token.isName, hword, hstart, hrest, hkeyword]

-- A list of tokens in which everything that stands for a name is one.
def Named (tokens : List Token) : Prop := ∀ t ∈ tokens, t.isSymbol = true → isName t.text = true

theorem named_scan {source : List Char} {tokens : List Token} (h : scan source = .ok tokens) :
    Named tokens :=
  fun t ht => (scanFrom_occurs source List.drop_zero h t ht).isName

end Token

-- What a function can be defined with.
structure Definable {α : Type} (params : List String) (body : Operand α) : Prop where
  nodup : params.Nodup
  names : ∀ param ∈ params, Token.isName param = true
  depth : body.depthByStack ≤ Limits.standard.depth

-- A statement that binds names only.
def Statement.Binds {α : Type} : Statement α → Prop
  | .assignment target _ => Token.isName target = true
  | .definition name params body => Token.isName name = true ∧ Definable params body
  | _ => True

namespace Grammar

open Token

theorem Parameters.isName {ts : List Token} {names : List String} (h : Parameters ts names)
    (hnamed : Named ts) : ∀ name ∈ names, isName name = true := by
  induction h with
  | last hsymbol => exact List.forall_mem_singleton.mpr (hnamed _ (List.mem_cons_self ..) hsymbol)
  | more hsymbol _ _ ih =>
    obtain ⟨hname, -, hrest⟩ : _ ∧ _ ∧ Named _ := by
      simpa only [Named, List.forall_mem_cons] using hnamed
    exact List.forall_mem_cons.mpr ⟨hname hsymbol, ih hrest⟩

theorem ParameterList.definable {ts : List Token} {params : List String}
    (h : ParameterList ts params) (hnamed : Named ts) {body : Operand Float}
    (hdepth : body.depthByStack ≤ Limits.standard.depth) : Definable params body := by
  cases h with
  | empty => exact ⟨List.nodup_nil, by simp, hdepth⟩
  | names h hnodup => exact ⟨hnodup, h.isName hnamed, hdepth⟩

theorem Line.binds {tokens : List Token} {s : Statement Float} (h : Line tokens s)
    (hnamed : Named tokens)
    (hdepth : ∀ t ∈ s.operands, t.depthByStack ≤ Limits.standard.depth) : s.Binds := by
  cases h with
  | expression => trivial
  | plot => trivial
  | solve => trivial
  | assignment htarget => exact hnamed _ (List.mem_cons_self ..) htarget
  | definition hname _ hparams =>
    obtain ⟨hname', -, hps, -⟩ : _ ∧ _ ∧ Named _ ∧ _ := by
      simpa only [Named, List.forall_mem_cons, List.forall_mem_append] using hnamed
    exact ⟨hname' hname, hparams.definable hps (hdepth _ (by simp [Statement.operands]))⟩

end Grammar

namespace Statement

-- What is read from a line binds names, none of them a keyword.
theorem binds_of_parse {source : List Char} {s : Statement Float} (h : parse source = .ok s) :
    s.Binds := by
  obtain ⟨-, -, hdepth, tokens, hscan, hread⟩ := parse_eq_ok.mp h
  exact (Grammar.line_sound (Token.numeric_scan hscan) hread).binds (Token.named_scan hscan) hdepth

end Statement

end Reckon
