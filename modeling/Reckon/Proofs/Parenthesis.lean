import Reckon.Parenthesis
import Mathlib.Combinatorics.Enumerative.DyckWord
import Mathlib.Order.Bounds.Basic

namespace Reckon.Parenthesis

open DyckStep

def step? (c : Char) : Option DyckStep :=
  if c = '(' then some U else if c = ')' then some D else none

-- The parentheses of a text, other characters left out.
def steps (cs : List Char) : List DyckStep := cs.filterMap step?

def Balanced (cs : List Char) : Prop := ∃ word : DyckWord, word.toList = steps cs

-- The `)` at `i` closes more than has been opened before it.
def Surplus (cs : List Char) (i : Nat) : Prop :=
  cs[i]? = some ')' ∧ (cs.take i).count '(' < (cs.take (i + 1)).count ')'

-- The `)` at `j` closes the `(` at `i`.
def Closes (cs : List Char) (i j : Nat) : Prop :=
  cs[i]? = some '(' ∧ cs[j]? = some ')' ∧ i < j ∧ Balanced ((cs.take j).drop (i + 1))

-- The `(` at `i` is never closed.
def Unclosed (cs : List Char) (i : Nat) : Prop := cs[i]? = some '(' ∧ ∀ j, ¬Closes cs i j

-- No part from the beginning on closes more than it opens.
def Covered (cs : List Char) : Prop :=
  ∀ n, (cs.take n).count ')' ≤ (cs.take n).count '('

section Balanced

variable {c : Char} {xs ys : List Char}

theorem steps_append : steps (xs ++ ys) = steps xs ++ steps ys := List.filterMap_append

theorem steps_group : steps ('(' :: xs ++ [')']) = [U] ++ steps xs ++ [D] := steps_append

theorem steps_other (hopening : c ≠ '(') (hclosing : c ≠ ')') : steps (c :: xs) = steps xs :=
  List.filterMap_cons_none (by rw [step?, if_neg hopening, if_neg hclosing])

theorem count_steps (cs : List Char) :
    (steps cs).count U = cs.count '(' ∧ (steps cs).count D = cs.count ')' := by
  induction cs with
  | nil => exact ⟨rfl, rfl⟩
  | cons c cs ih =>
    obtain ⟨hU, hD⟩ := ih
    by_cases hopening : c = '('
    · subst hopening
      simpa [steps, step?] using And.intro hU hD
    · by_cases hclosing : c = ')'
      · subst hclosing
        simpa [steps, step?] using And.intro hU hD
      · rw [steps_other hopening hclosing, List.count_cons_of_ne hopening,
          List.count_cons_of_ne hclosing]
        exact ⟨hU, hD⟩

theorem Covered.append (hxs : Covered xs) (hys : Covered ys) : Covered (xs ++ ys) := by
  intro n
  rw [List.take_append, List.count_append, List.count_append]
  exact Nat.add_le_add (hxs n) (hys (n - xs.length))

theorem Covered.of_append (h : Covered (xs ++ ys)) : Covered xs := by
  intro n
  have hpart := h (min n xs.length)
  rwa [List.take_append_of_le_length (Nat.min_le_right _ _), ← List.take_eq_take_min] at hpart

theorem Covered.opening (h : Covered xs) : Covered ('(' :: xs) := by
  intro n
  cases n with
  | zero => simp
  | succ n =>
    rw [List.take_succ_cons, List.count_cons_self, List.count_cons_of_ne (by decide)]
    exact Nat.le_succ_of_le (h n)

theorem balanced_iff : Balanced xs ↔ xs.count '(' = xs.count ')' ∧ Covered xs := by
  obtain ⟨hU, hD⟩ := count_steps xs
  constructor
  · rintro ⟨word, hword⟩
    refine ⟨by rw [← hU, ← hD, ← hword, word.count_U_eq_count_D], fun n => ?_⟩
    have hle := word.count_D_le_count_U (steps (xs.take n)).length
    have hsplit : word.toList = steps (xs.take n) ++ steps (xs.drop n) := by
      rw [hword, ← steps_append, List.take_append_drop]
    obtain ⟨hU, hD⟩ := count_steps (xs.take n)
    rwa [hsplit, List.take_left, hU, hD] at hle
  · rintro ⟨hcount, hcovered⟩
    refine ⟨⟨steps xs, by rw [hU, hD, hcount], fun i => ?_⟩, rfl⟩
    obtain ⟨front, back, rfl, hfront, -⟩ :=
      List.filterMap_eq_append_iff.mp (List.take_append_drop i (steps xs)).symm
    obtain ⟨hU, hD⟩ := count_steps front
    rw [steps] at hU hD
    rw [← hfront, hU, hD]
    simpa using hcovered front.length

theorem balanced_nil : Balanced [] := ⟨0, rfl⟩

theorem Balanced.append (hxs : Balanced xs) (hys : Balanced ys) : Balanced (xs ++ ys) := by
  obtain ⟨v, hv⟩ := hxs
  obtain ⟨w, hw⟩ := hys
  exact ⟨v + w, by rw [steps_append, ← hv, ← hw]; rfl⟩

theorem Balanced.group (h : Balanced xs) : Balanced ('(' :: xs ++ [')']) := by
  obtain ⟨w, hw⟩ := h
  exact ⟨w.nest, by rw [steps_group, ← hw]; rfl⟩

theorem balanced_other (hopening : c ≠ '(') (hclosing : c ≠ ')') : Balanced [c] :=
  ⟨0, by rw [steps_other hopening hclosing]; rfl⟩

end Balanced

section Closing

variable {cs : List Char}

theorem count_take_succ {c : Char} {n : Nat} (h : cs[n]? = some c) (d : Char) :
    (cs.take (n + 1)).count d = (cs.take n).count d + if c = d then 1 else 0 := by
  rw [List.take_add_one, h, Option.toList_some, List.count_append, List.count_singleton]
  simp only [beq_iff_eq]

-- A text that closes too much does so first behind a balanced part.
theorem exists_balanced_of_not_covered (h : ¬Covered cs) :
    ∃ n, cs[n]? = some ')' ∧ Balanced (cs.take n) := by
  simp only [Covered, not_forall, Nat.not_le] at h
  have hfirst := Nat.find_spec h
  have hbefore := fun k => @Nat.find_min _ _ h k
  generalize Nat.find h = n at hfirst hbefore
  cases n with
  | zero => cases hfirst
  | succ n =>
    have hle := Nat.not_lt.mp (hbefore n n.lt_succ_self)
    cases hc : cs[n]? with
    | none =>
      rw [List.take_add_one, hc, Option.toList_none, List.append_nil] at hfirst
      omega
    | some c =>
      rw [count_take_succ hc, count_take_succ hc] at hfirst
      obtain rfl : c = ')' := by
        by_contra hclosing
        rw [if_neg hclosing] at hfirst
        omega
      rw [if_neg (by decide), if_pos rfl] at hfirst
      refine ⟨n, hc, balanced_iff.mpr ⟨by omega, fun k => ?_⟩⟩
      rw [List.take_take]
      exact Nat.not_lt.mp (hbefore _ (by omega))

theorem covered_iff : Covered cs ↔ ∀ n, cs[n]? = some ')' → ¬Balanced (cs.take n) := by
  constructor
  · intro hcovered n hclosing hbalanced
    have hcount := (balanced_iff.mp hbalanced).1
    have hnext := hcovered (n + 1)
    rw [count_take_succ hclosing, count_take_succ hclosing, if_pos rfl, if_neg (by decide)] at hnext
    omega
  · intro hclosing
    by_contra hcovered
    obtain ⟨n, hn, hbalanced⟩ := exists_balanced_of_not_covered hcovered
    exact hclosing n hn hbalanced

theorem unclosed_iff {i : Nat} :
    Unclosed cs i ↔ cs[i]? = some '(' ∧ Covered (cs.drop (i + 1)) := by
  rw [Unclosed, covered_iff]
  refine and_congr_right fun hopening => ⟨fun hfree n hclosing hbalanced => ?_,
    fun hfree j hcloses => ?_⟩
  · rw [List.getElem?_drop] at hclosing
    rw [List.take_drop] at hbalanced
    exact hfree (i + 1 + n) ⟨hopening, hclosing, by omega, hbalanced⟩
  · obtain ⟨-, hclosing, hij, hbalanced⟩ := hcloses
    obtain ⟨n, rfl⟩ := Nat.exists_eq_add_of_le (Nat.succ_le_of_lt hij)
    refine hfree n ?_ ?_
    · rwa [List.getElem?_drop]
    · rwa [List.take_drop]

theorem Covered.not_surplus (h : Covered cs) (i : Nat) : ¬Surplus cs i := by
  rintro ⟨hclosing, hcount⟩
  have hle := h (i + 1)
  rw [count_take_succ hclosing '(', if_neg (by decide)] at hle
  omega

theorem surplus_append {i : Nat} {ds : List Char} (h : i < cs.length) :
    Surplus (cs ++ ds) i ↔ Surplus cs i := by
  rw [Surplus, List.getElem?_append_left h, List.take_append_of_le_length h.le,
    List.take_append_of_le_length h, Surplus]

-- In a balanced text every `(` is closed.
theorem Balanced.not_covered_drop (h : Balanced cs) {i : Nat} (hopening : cs[i]? = some '(') :
    ¬Covered (cs.drop (i + 1)) := by
  intro hcovered
  obtain ⟨hcount, hbefore⟩ := balanced_iff.mp h
  have hle := hbefore i
  have hrest := hcovered (cs.drop (i + 1)).length
  rw [List.take_length] at hrest
  rw [← List.take_append_drop (i + 1) cs, List.count_append, List.count_append,
    count_take_succ hopening, count_take_succ hopening, if_pos rfl, if_neg (by decide)] at hcount
  omega

end Closing

-- What a text leaves open: the positions of parentheses, the innermost first, that cut it into
-- balanced pieces.
inductive Leaves : List Char → List Nat → Prop
  | balanced {xs : List Char} : Balanced xs → Leaves xs []
  | opening {xs ys : List Char} {opened : List Nat} :
      Leaves xs opened → Balanced ys → Leaves (xs ++ '(' :: ys) (xs.length :: opened)

namespace Leaves

variable {xs ys : List Char} {opened outer : List Nat} {p i : Nat}

theorem append (h : Leaves xs opened) (hys : Balanced ys) : Leaves (xs ++ ys) opened := by
  cases h with
  | balanced hxs => exact .balanced (hxs.append hys)
  | opening h hzs =>
    rw [List.append_assoc, List.cons_append]
    exact .opening h (hzs.append hys)

-- A `)` joins the innermost group with the piece in front of it.
theorem closing (h : Leaves xs (p :: outer)) : Leaves (xs ++ [')']) outer := by
  cases h with
  | opening h hys =>
    rw [List.append_assoc]
    exact h.append hys.group

theorem count_eq (h : Leaves xs opened) : xs.count '(' = xs.count ')' + opened.length := by
  induction h with
  | balanced hxs => exact (balanced_iff.mp hxs).1
  | opening _ hys ih =>
    have hcount := (balanced_iff.mp hys).1
    rw [List.count_append, List.count_append, List.count_cons_self,
      List.count_cons_of_ne (by decide), List.length_cons]
    omega

theorem covered (h : Leaves xs opened) : Covered xs := by
  induction h with
  | balanced hxs => exact (balanced_iff.mp hxs).2
  | opening _ hys ih => exact ih.append (balanced_iff.mp hys).2.opening

theorem balanced_iff_nil (h : Leaves xs opened) : Balanced xs ↔ opened = [] := by
  constructor
  · intro hxs
    have hcount := h.count_eq
    rw [(balanced_iff.mp hxs).1] at hcount
    exact List.length_eq_zero_iff.mp (by omega)
  · rintro rfl
    cases h with
    | balanced hxs => exact hxs

theorem mem_iff (h : Leaves xs opened) : i ∈ opened ↔ Unclosed xs i := by
  rw [unclosed_iff]
  induction h with
  | balanced hxs =>
    simp only [List.not_mem_nil, false_iff, not_and]
    exact hxs.not_covered_drop
  | @opening xs ys opened h hys ih =>
    have hcovered := (balanced_iff.mp hys).2
    rw [List.mem_cons, ih]
    rcases Nat.lt_trichotomy i xs.length with hlt | rfl | hlt
    · rw [List.getElem?_append_left hlt, List.drop_append_of_le_length hlt]
      have hcut : Covered (xs.drop (i + 1) ++ '(' :: ys) ↔ Covered (xs.drop (i + 1)) :=
        ⟨Covered.of_append, fun hxs => hxs.append hcovered.opening⟩
      rw [hcut, or_iff_right (Nat.ne_of_lt hlt)]
    · simp [hcovered]
    · obtain ⟨k, rfl⟩ := Nat.exists_eq_add_of_lt hlt
      have hindex : (xs ++ '(' :: ys)[xs.length + k + 1]? = ys[k]? := by
        rw [Nat.add_assoc, List.getElem?_append_right (Nat.le_add_right _ _),
          Nat.add_sub_cancel_left, List.getElem?_cons_succ]
      have hdrop : (xs ++ '(' :: ys).drop (xs.length + k + 1 + 1) = ys.drop (k + 1) := by
        rw [Nat.add_assoc, Nat.add_assoc, List.drop_length_add_append, List.drop_succ_cons]
      rw [hindex, hdrop, List.getElem?_eq_none (Nat.le_of_lt hlt)]
      refine iff_of_false ?_ ?_
      · rintro (heq | ⟨hnone, -⟩)
        · omega
        · cases hnone
      · rintro ⟨hopening, hrest⟩
        exact hys.not_covered_drop hopening hrest

-- With nothing left open, a `)` is the first one in surplus.
theorem isLeast_surplus (h : Leaves xs []) (ys : List Char) :
    IsLeast {i | Surplus (xs ++ ')' :: ys) i} xs.length := by
  have hcount := h.count_eq
  have hclosing : (xs ++ ')' :: ys)[xs.length]? = some ')' := by simp
  constructor
  · refine ⟨hclosing, ?_⟩
    rw [count_take_succ hclosing, if_pos rfl, List.take_left, hcount]
    exact Nat.lt_succ_self _
  · intro i hi
    by_contra hlt
    exact h.covered.not_surplus i ((surplus_append (Nat.not_le.mp hlt)).mp hi)

theorem pairwise (h : Leaves xs opened) : opened.Pairwise (· > ·) := by
  induction h with
  | balanced _ => exact .nil
  | opening h _ ih =>
    refine .cons (fun q hq => ?_) ih
    obtain ⟨hlt, -⟩ := List.getElem?_eq_some_iff.mp (h.mem_iff.mp hq).1
    exact hlt

theorem isLeast_of_getLast? (h : Leaves xs opened) (hp : opened.getLast? = some p) :
    IsLeast {i | Unclosed xs i} p := by
  obtain ⟨inner, rfl⟩ := List.getLast?_eq_some_iff.mp hp
  obtain ⟨-, -, hinner⟩ := List.pairwise_append.mp h.pairwise
  refine ⟨h.mem_iff.mp (by simp), fun i hi => ?_⟩
  rcases List.mem_append.mp (h.mem_iff.mpr hi) with hi | hi
  · exact Nat.le_of_lt (hinner i hi p (by simp))
  · exact Nat.le_of_eq (List.mem_singleton.mp hi).symm

end Leaves

-- Reading on, either the whole text has been read and the open parentheses are those that it
-- leaves open, or a `)` was the first in surplus.
theorem faultFrom_cases {before : List Char} {opened : List Nat} (h : Leaves before opened)
    (cs : List Char) :
    (∃ left, Leaves (before ++ cs) left ∧
      faultFrom before.length opened cs = left.getLast?) ∨
    ∃ i, IsLeast {i | Surplus (before ++ cs) i} i ∧
      faultFrom before.length opened cs = some i := by
  induction cs generalizing before opened with
  | nil => exact .inl ⟨opened, by rwa [List.append_nil], rfl⟩
  | cons c cs ih =>
    have hnext {opened' : List Nat} (h' : Leaves (before ++ [c]) opened') := ih h'
    simp only [List.append_assoc, List.length_append, List.length_singleton,
      List.singleton_append] at hnext
    simp only [faultFrom]
    split_ifs with hopening hclosing
    · subst hopening
      exact hnext (h.opening balanced_nil)
    · subst hclosing
      cases opened with
      | nil => exact .inr ⟨before.length, h.isLeast_surplus cs, rfl⟩
      | cons q outer => exact hnext h.closing
    · exact hnext (h.append (balanced_other hopening hclosing))

theorem fault?_cases (source : List Char) :
    (∃ left, Leaves source left ∧ fault? source = left.getLast?) ∨
    ∃ i, IsLeast {i | Surplus source i} i ∧ fault? source = some i :=
  faultFrom_cases (.balanced balanced_nil) source

theorem fault?_lt {source : List Char} {p : Nat} (h : fault? source = some p) :
    p < source.length := by
  rcases fault?_cases source with ⟨left, hleft, hfault⟩ | ⟨i, hi, hfault⟩
  · have hp := hleft.isLeast_of_getLast? (hfault.symm.trans h)
    exact (List.getElem?_eq_some_iff.mp hp.1.1).1
  · obtain rfl := Option.some.inj (hfault.symm.trans h)
    exact (List.getElem?_eq_some_iff.mp hi.1.1).1

-- No fault is found in a text if and only if its parentheses balance. Else the fault is at the
-- first `)` that closes more than has been opened, or at the first `(` that is never closed, if
-- there is no such `)`.
theorem fault_located (source : List Char) :
    (fault? source = none ↔ Balanced source) ∧
    ∀ p, fault? source = some p ↔
      IsLeast {i | Surplus source i} p ∨
        (∀ i, ¬Surplus source i) ∧ IsLeast {i | Unclosed source i} p := by
  rcases fault?_cases source with ⟨left, hleft, hfault⟩ | ⟨i, hi, hfault⟩
  · have hsurplus := hleft.covered.not_surplus
    rw [hfault, hleft.balanced_iff_nil, List.getLast?_eq_none_iff]
    refine ⟨Iff.rfl, fun p => ⟨fun hp => .inr ⟨hsurplus, hleft.isLeast_of_getLast? hp⟩, ?_⟩⟩
    rintro (hp | ⟨-, hp⟩)
    · exact absurd hp.1 (hsurplus p)
    · cases hlast : left.getLast? with
      | none =>
        rw [List.getLast?_eq_none_iff.mp hlast] at hleft
        cases hleft.mem_iff.mpr hp.1
      | some q => rw [(hleft.isLeast_of_getLast? hlast).unique hp]
  · have hsurplus : ¬Balanced source := fun h => (balanced_iff.mp h).2.not_surplus i hi.1
    rw [hfault]
    refine ⟨iff_of_false (by simp) hsurplus, fun p => ⟨?_, ?_⟩⟩
    · rintro ⟨rfl⟩
      exact .inl hi
    · rintro (hp | ⟨hnone, -⟩)
      · rw [hi.unique hp]
      · exact absurd hi.1 (hnone i)

-- The `)` in surplus stands in front of a `(` that is not closed.
example : fault? "(()))(".toList = some 4 := by decide

end Reckon.Parenthesis
