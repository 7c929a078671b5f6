import Reckon.Proofs.Reader.Place
import Reckon.Proofs.Token.Lexeme
import Mathlib.Data.List.DropRight

namespace Reckon

open Token

structure Excerpt (source : List Char) (position : Nat) (text : String) : Prop where
  bound : position ≤ source.length
  quoted : text.toList <+: source.drop position

variable {source : List Char}

theorem Excerpt.empty {position : Nat} (h : position ≤ source.length) :
    Excerpt source position "" :=
  ⟨h, List.nil_prefix⟩

theorem Excerpt.of_drop {position : Nat} {c : Char} {cs : List Char} {text : String}
    (hdrop : source.drop position = c :: cs) (h : text.toList <+: c :: cs) :
    Excerpt source position text := by
  refine ⟨?_, hdrop ▸ h⟩
  have hlength := congrArg List.length hdrop
  simp only [List.length_drop, List.length_cons] at hlength
  omega

theorem Excerpt.take_eq {position : Nat} {text : String} (h : Excerpt source position text) :
    text.toList = (source.drop position).take text.length :=
  List.prefix_iff_eq_take.mp h.quoted

namespace Token

theorem OccursIn.excerpt {t : Token} (h : t.OccursIn source) :
    Excerpt source t.position t.text := by
  obtain ⟨c, cs, length, hdrop, -, htext⟩ := h
  refine .of_drop hdrop ?_
  rw [htext, String.toList_ofList]
  exact List.take_prefix _ _

-- The rest of the line starts with the token, so only its end is stripped.
theorem OccursIn.excerpt_stripped {t : Token} (h : t.OccursIn source) :
    Excerpt source t.position (Fault.stripped source t.position) := by
  obtain ⟨c, cs, length, hdrop, hlexeme, -⟩ := h
  refine .of_drop hdrop ?_
  have hfront : (c :: cs).dropWhile Text.isBlank = c :: cs :=
    List.dropWhile_cons_of_neg (by simp [isBlank_of_lexeme? hlexeme])
  rw [Fault.stripped, String.toList_ofList, Text.strip, Text.stripWhile, hdrop, hfront]
  exact List.rdropWhile_prefix Text.isBlank (c :: cs)

-- A number with the minus that touches it.
theorem OccursIn.excerpt_signed {minus literal : Token} (hminus : minus.OccursIn source)
    (hliteral : literal.OccursIn source) (htouches : Grammar.Touches minus literal) :
    Excerpt source minus.position ("-" ++ literal.text) := by
  have hquoted := hliteral.excerpt.quoted
  obtain ⟨c, cs, length, hdrop, hlexeme, -⟩ := hminus
  rw [htouches.kind] at hlexeme
  obtain rfl : c = '-' := by
    rcases lexeme?_cases hlexeme with ⟨-, hkind, -⟩ | ⟨-, hkind, -⟩ | ⟨-, hkind, -⟩ |
      ⟨-, ⟨-, hkind⟩ | ⟨-, hkind⟩ | ⟨-, hkind⟩ | ⟨-, hkind⟩ | ⟨o, rfl, hkind⟩⟩
    all_goals cases hkind
    rfl
  have hrest : source.drop literal.position = cs := by
    rw [htouches.position, ← List.drop_drop, hdrop, List.drop_one, List.tail_cons]
  rw [hrest] at hquoted
  refine .of_drop hdrop ?_
  rw [String.toList_append]
  exact List.cons_prefix_cons.mpr ⟨rfl, hquoted⟩

end Token

-- Where a fault names a place, it quotes the text there.
def Fault.Quotes (source : List Char) (e : Fault) : Prop :=
  ∀ position, e.position? source = some position → Excerpt source position (e.text source)

-- A fault quotes nothing, the token that it is told at, or the rest of the line from there.
theorem Fault.text_of_place {e : Fault} {at? : Option Token} (h : e.place? = some at?)
    (source : List Char) :
    e.text source = "" ∨ e.text source = textOf at? ∨
      ∃ t, at? = some t ∧ e.text source = stripped source t.position := by
  cases e with
  | tooDeep limit t? =>
    obtain ⟨t, rfl, rfl⟩ := Option.map_eq_some_iff.mp h
    exact .inr (.inl rfl)
  | invalidNumber negative literal =>
    cases negative with
    | false =>
      obtain rfl := Option.some.inj h
      exact .inr (.inl rfl)
    | true => cases h
  | plotNameExpected t | targetMissing t =>
    obtain rfl := Option.some.inj h
    exact .inr (.inr ⟨t, rfl, rfl⟩)
  | _ => cases h <;> simp [text, textOf]

theorem Fault.quotes_of_place {e : Fault} {at? : Option Token} (hplace : e.place? = some at?)
    (hoccurs : ∀ t, at? = some t → t.OccursIn source) : e.Quotes source := by
  intro position hposition
  obtain rfl := Option.some.inj ((position?_of_place hplace source).symm.trans hposition)
  cases at? with
  | none =>
    have htext : e.text source = "" := by simpa [textOf] using text_of_place hplace source
    rw [htext]
    exact .empty (Nat.le_refl _)
  | some t =>
    have ht := hoccurs t rfl
    rcases text_of_place hplace source with htext | htext | ⟨t', ht', htext⟩
    · rw [htext]
      exact .empty ht.excerpt.bound
    · rw [htext]
      exact ht.excerpt
    · obtain rfl := Option.some.inj ht'
      rw [htext]
      exact ht.excerpt_stripped

end Reckon
