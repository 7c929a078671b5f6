import Reckon.Proofs.Reader.Outcome
import Reckon.Proofs.Token.Shift

namespace Reckon.Reader

open Token (shift)

variable {k : Nat}

-- A reader that takes moved tokens for what they were.
def Steady {β : Type} (k : Nat) (read : Step β) : Prop :=
  ∀ tokens x rest, read tokens = .ok (x, rest) →
    read (tokens.map (shift k)) = .ok (x, rest.map (shift k))

-- A level that is open before a token is open before the moved token, and steady.
def InnerSteady (k : Nat) (inner : Inner) : Prop :=
  ∀ t read, inner t = .ok read → inner (t.shift k) = .ok read ∧ ∀ least, Steady k (read least)

theorem head?_map_shift {tokens : List Token} {t : Token}
    (h : (tokens.map (shift k)).head? = some t) : ∃ next, tokens.head? = some next ∧
      t = next.shift k := by
  rw [List.head?_map] at h
  obtain ⟨next, hnext, ht⟩ := Option.map_eq_some_iff.mp h
  exact ⟨next, hnext, ht.symm⟩

theorem number_shift {negative : Bool} {t : Token} {x : Operand Float}
    (h : number negative t = .ok x) : number negative (t.shift k) = .ok x := by
  obtain ⟨value, hvalue, hx⟩ := number_eq_ok.mp h
  exact number_eq_ok.mpr ⟨value, hvalue, hx⟩

theorem arguments_shift {read : Step (Operand Float)} (hread : Steady k read) {name : Token}
    {bound : Nat} {tokens rest : List Token} {args : List (Operand Float)}
    (h : arguments read name bound tokens = .ok (args, rest)) :
    arguments read (name.shift k) bound (tokens.map (shift k)) =
      .ok (args, rest.map (shift k)) := by
  induction bound generalizing tokens args with
  | zero => cases h
  | succ bound ih =>
    obtain ⟨⟨t, ts, rfl, hcomma, hclosing⟩, arg, separator, after, harg, hcases⟩ :=
      arguments_succ_eq_ok.mp h
    refine arguments_succ_eq_ok.mpr ⟨⟨t.shift k, ts.map (shift k), rfl, hcomma, hclosing⟩, ?_⟩
    refine ⟨arg, separator.shift k, after.map (shift k), hread _ _ _ harg, ?_⟩
    rcases hcases with ⟨hkind, rfl, rfl⟩ | ⟨more, hkind, hmore, rfl⟩
    · exact .inl ⟨hkind, rfl, rfl⟩
    · exact .inr ⟨more, hkind, ih hmore, rfl⟩

section Inner

variable {inner : Inner} (hinner : InnerSteady k inner)

include hinner

theorem call_shift {name opening : Token} {tokens rest : List Token} {x : Operand Float}
    (h : call inner name opening tokens = .ok (x, rest)) :
    call inner (name.shift k) (opening.shift k) (tokens.map (shift k)) =
      .ok (x, rest.map (shift k)) := by
  obtain ⟨read, hread, hcases⟩ := call_eq_ok.mp h
  obtain ⟨hread, hsteady⟩ := hinner _ _ hread
  refine call_eq_ok.mpr ⟨read, hread, ?_⟩
  rcases hcases with ⟨closing, rfl, hclosing, rfl⟩ | ⟨args, hargs, rfl⟩
  · exact .inl ⟨closing.shift k, rfl, hclosing, rfl⟩
  · rw [List.length_map]
    exact .inr ⟨args, arguments_shift (hsteady 1) hargs, rfl⟩

theorem group_shift {opening : Token} {tokens rest : List Token} {x : Operand Float}
    (h : group inner opening tokens = .ok (x, rest)) :
    group inner (opening.shift k) (tokens.map (shift k)) = .ok (x, rest.map (shift k)) := by
  obtain ⟨read, closing, hread, hx, hclosing⟩ := group_eq_ok.mp h
  obtain ⟨hread, hsteady⟩ := hinner _ _ hread
  exact group_eq_ok.mpr ⟨read, closing.shift k, hread, hsteady 1 _ _ _ hx, hclosing⟩

-- Only a minus asks where the next token stands, and it asks for the distance.
theorem atom_steady : Steady k (atom inner) := by
  intro tokens x rest h
  cases tokens with
  | nil => cases h
  | cons t ts =>
    refine atom_eq_ok.mpr ?_
    rcases atom_eq_ok.mp h with ⟨hkind, hx, rfl⟩ | ⟨literal, hkind, rfl, hliteral, hposition, hx⟩ |
      ⟨hsymbol, hhead, rfl, rfl⟩ | ⟨opening, after, hsymbol, rfl, hopening, hcall⟩ |
      ⟨hopening, hgroup⟩
    · exact .inl ⟨hkind, number_shift hx, rfl⟩
    · have hmoved : (literal.shift k).position = (t.shift k).position + 1 := by
        simp only [Token.position_shift, hposition]
        omega
      exact .inr (.inl ⟨literal.shift k, hkind, rfl, hliteral, hmoved, number_shift hx⟩)
    · have hmoved : ∀ o, (rest.map (shift k)).head? = some o → o.kind ≠ .opening := by
        intro o ho
        obtain ⟨next, hnext, rfl⟩ := head?_map_shift ho
        exact hhead next hnext
      exact .inr (.inr (.inl ⟨hsymbol, hmoved, rfl, rfl⟩))
    · exact .inr (.inr (.inr (.inl ⟨opening.shift k, after.map (shift k), hsymbol, rfl, hopening,
        call_shift hinner hcall⟩)))
    · exact .inr (.inr (.inr (.inr ⟨hopening, group_shift hinner hgroup⟩)))

theorem chainFrom_steady (least bound : Nat) (lhs : Operand Float) :
    Steady k (chainFrom inner least bound lhs) := by
  induction bound generalizing lhs with
  | zero =>
    intro tokens x rest h
    obtain ⟨rfl, rfl⟩ := Prod.mk.inj (Except.ok.inj h)
    rfl
  | succ bound ih =>
    intro tokens x rest h
    by_cases hstop : ∀ t, tokens.head? = some t → ∀ o, t.kind = .operator o → o.precedence < least
    · rw [chainFrom_stop hstop] at h
      obtain ⟨rfl, rfl⟩ := Prod.mk.inj (Except.ok.inj h)
      refine chainFrom_stop fun t ht o ho => ?_
      obtain ⟨next, hnext, rfl⟩ := head?_map_shift ht
      exact hstop next hnext o ho
    · simp only [not_forall] at hstop
      obtain ⟨t, hhead, o, ho, hleast⟩ := hstop
      obtain ⟨ts, rfl⟩ := List.head?_eq_some_iff.mp hhead
      rw [chainFrom_operator ho hleast] at h
      simp only [bind_eq_ok, Prod.exists] at h
      obtain ⟨read, hread, rhs, after, hrhs, h⟩ := h
      obtain ⟨hread, hsteady⟩ := hinner _ _ hread
      rw [List.map_cons, chainFrom_operator (t := t.shift k) ho hleast]
      simp only [bind_eq_ok, Prod.exists]
      exact ⟨read, hread, rhs, _, hsteady _ _ _ _ hrhs, ih _ _ _ _ h⟩

theorem level_steady (least : Nat) : Steady k (level inner least) := by
  intro tokens x rest h
  obtain ⟨lhs, after, hatom, hchain⟩ := level_eq_ok.mp h
  refine level_eq_ok.mpr ⟨lhs, after.map (shift k), atom_steady hinner _ _ _ hatom, ?_⟩
  rw [List.length_map]
  exact chainFrom_steady hinner _ _ _ _ _ _ hchain

end Inner

theorem operand_steady (limit budget least : Nat) : Steady k (operand limit budget least) := by
  induction budget generalizing least with
  | zero =>
    refine level_steady (fun t read h => ?_) least
    cases h
  | succ budget ih =>
    refine level_steady (fun t read h => ?_) least
    obtain rfl : operand limit budget = read := Except.ok.inj h
    exact ⟨rfl, ih⟩

end Reckon.Reader
