import Reckon.Statement.Reader
import Reckon.Proofs.Outcome
import Mathlib.Tactic.Common

namespace Reckon.Reader

variable {β γ : Type}

-- The same outcome, unless the first one is cut off for its depth.
def Refines (r r' : Except Fault β) : Prop :=
  r = r' ∨ ∃ limit at?, r = .error (.tooDeep limit at?)

theorem Refines.refl (r : Except Fault β) : Refines r r := Or.inl rfl

theorem Refines.trans {r r' r'' : Except Fault β} (h : Refines r r') (h' : Refines r' r'') :
    Refines r r'' := by
  rcases h with rfl | h
  · exact h'
  · exact Or.inr h

theorem Refines.bind {r r' : Except Fault β} {f f' : β → Except Fault γ} (h : Refines r r')
    (hf : ∀ b, Refines (f b) (f' b)) : Refines (r >>= f) (r' >>= f') := by
  rcases h with rfl | ⟨limit, at?, rfl⟩
  · cases r with
    | error e => exact .refl _
    | ok b => exact hf b
  · exact Or.inr ⟨limit, at?, rfl⟩

-- Readers of operands at all levels.
def ReadRefines (read read' : Nat → Step (Operand Float)) : Prop :=
  ∀ least tokens, Refines (read least tokens) (read' least tokens)

-- Opening a level is cut off, or both levels are open.
def InnerRefines (inner inner' : Inner) : Prop :=
  ∀ t, (∃ limit at?, inner t = .error (.tooDeep limit at?)) ∨
    ∃ read read', inner t = .ok read ∧ inner' t = .ok read' ∧ ReadRefines read read'

section Levels

variable {inner inner' : Inner}

theorem InnerRefines.bind (h : InnerRefines inner inner') (t : Token)
    {f f' : (Nat → Step (Operand Float)) → Except Fault β}
    (hf : ∀ read read', ReadRefines read read' → Refines (f read) (f' read')) :
    Refines (inner t >>= f) (inner' t >>= f') := by
  rcases h t with ⟨limit, at?, ht⟩ | ⟨read, read', ht, ht', hread⟩
  · rw [ht]
    exact Or.inr ⟨limit, at?, rfl⟩
  · rw [ht, ht']
    exact hf read read' hread

theorem arguments_refines {read read' : Nat → Step (Operand Float)} (h : ReadRefines read read')
    (name : Token) (bound : Nat) (tokens : List Token) :
    Refines (arguments (read 1) name bound tokens) (arguments (read' 1) name bound tokens) := by
  induction bound generalizing tokens with
  | zero => exact .refl _
  | succ bound ih =>
    rw [arguments, arguments]
    refine .bind (.refl _) fun _ => (h 1 tokens).bind fun _ => .bind (.refl _) fun next => ?_
    obtain ⟨separator, rest⟩ := next
    by_cases hcomma : separator.kind = .comma
    · simp only [hcomma, ite_true]
      exact (ih rest).bind fun _ => .refl _
    · simp only [hcomma, ite_false]
      exact .refl _

theorem call_refines (h : InnerRefines inner inner') (name opening : Token)
    (tokens : List Token) :
    Refines (call inner name opening tokens) (call inner' name opening tokens) := by
  refine h.bind opening fun read read' hread => ?_
  split
  · exact .refl _
  · exact (arguments_refines hread _ _ _).bind fun _ => .refl _

theorem group_refines (h : InnerRefines inner inner') (opening : Token) (tokens : List Token) :
    Refines (group inner opening tokens) (group inner' opening tokens) :=
  h.bind opening fun _ _ hread => (hread 1 tokens).bind fun _ => .refl _

theorem atom_refines (h : InnerRefines inner inner') (tokens : List Token) :
    Refines (atom inner tokens) (atom inner' tokens) := by
  cases tokens with
  | nil => exact .refl _
  | cons t ts =>
    simp only [atom]
    split
    · exact .refl _
    · exact .refl _
    · split
      · split
        · split
          · exact call_refines h _ _ _
          · exact .refl _
        · exact .refl _
      · exact .refl _
    · exact group_refines h _ _
    · exact .refl _

theorem chainFrom_refines (h : InnerRefines inner inner') (least bound : Nat)
    (lhs : Operand Float) (tokens : List Token) :
    Refines (chainFrom inner least bound lhs tokens) (chainFrom inner' least bound lhs tokens) := by
  induction bound generalizing lhs tokens with
  | zero => exact .refl _
  | succ bound ih =>
    cases tokens with
    | nil => exact .refl _
    | cons t ts =>
      simp only [chainFrom]
      split
      · split
        · exact .refl _
        · exact h.bind t fun _ _ hread => (hread _ ts).bind fun next => ih _ next.2
      · exact .refl _

theorem level_refines (h : InnerRefines inner inner') :
    ReadRefines (level inner) (level inner') :=
  fun least tokens => (atom_refines h tokens).bind fun first =>
    chainFrom_refines h least first.2.length first.1 first.2

end Levels

theorem operand_refines_succ (limit budget : Nat) :
    ReadRefines (operand limit budget) (operand limit (budget + 1)) := by
  induction budget with
  | zero => exact level_refines fun t => Or.inl ⟨limit, some t, rfl⟩
  | succ budget ih => exact level_refines fun _ => Or.inr ⟨_, _, rfl, rfl, ih⟩

theorem operand_refines (limit : Nat) {budget budget' : Nat} (h : budget ≤ budget') :
    ReadRefines (operand limit budget) (operand limit budget') := by
  induction budget' with
  | zero =>
    obtain rfl : budget = 0 := by omega
    exact fun _ _ => .refl _
  | succ budget' ih =>
    rcases Nat.lt_or_ge budget' budget with hlt | hge
    · obtain rfl : budget = budget' + 1 := by omega
      exact fun _ _ => .refl _
    · exact fun least tokens =>
        (ih hge least tokens).trans (operand_refines_succ limit budget' least tokens)

section Forms

variable {read read' : Step (Operand Float)} (h : ∀ tokens, Refines (read tokens) (read' tokens))
include h

theorem assigned_refines (missing : Fault) (tokens : List Token) :
    Refines (assigned read missing tokens) (assigned read' missing tokens) :=
  .bind (.refl _) fun next => .bind (.refl _) fun _ => (h next.2).bind fun _ => .refl _

theorem solve_refines (tokens : List Token) : Refines (solve read tokens) (solve read' tokens) :=
  .bind (.refl _) fun _ => (h tokens).bind fun _ => .bind (.refl _) fun next =>
    .bind (.refl _) fun _ => (h next.2).bind fun _ => .refl _

theorem definition_refines (tokens : List Token) :
    Refines (definition read tokens) (definition read' tokens) := by
  cases tokens with
  | nil => exact .refl _
  | cons t ts =>
    simp only [definition]
    split_ifs
    · exact .refl _
    · exact .refl _
    · exact .refl _
    · exact .bind (.refl _) fun next => (assigned_refines h _ next.2).bind fun _ => .refl _
    · exact (assigned_refines h _ ts).bind fun _ => .refl _

theorem statement_refines (tokens : List Token) :
    Refines (statement read tokens) (statement read' tokens) := by
  cases tokens with
  | nil => exact .refl _
  | cons t ts =>
    simp only [statement]
    split_ifs
    · exact solve_refines h ts
    · exact .refl _
    · exact definition_refines h (t :: ts)
    · exact .refl _
    · exact (h (t :: ts)).bind fun _ => .refl _

end Forms

-- Reading with less budget is reading with more, unless it is cut off.
theorem ofTokens_refines (limit : Nat) {budget budget' : Nat} (h : budget ≤ budget')
    (tokens : List Token) :
    Refines (ofTokens limit budget tokens) (ofTokens limit budget' tokens) :=
  statement_refines (operand_refines limit h 1) tokens

end Reckon.Reader
