import Reckon.Proofs.Arithmetic.Zero
import Reckon.Proofs.Equation
import Reckon.Proofs.Number.Undefined

namespace Reckon

open Arithmetic

-- The errors that are told of the unknown.
def EquationError.blaming : List EquationError := [square, denominator, remainder, power]

namespace LinearForm

-- Whether the slope of an operation is not a number. Given are the same of both operands, and their
-- values.
def LosesSlope (operation : Operation) (lostLeft lostRight : Prop) (a b : Float) : Prop :=
  match operation with
  | .add | .sub => lostLeft ∨ lostRight
  | .mul => ¬a.isFinite = true ∨ ¬b.isFinite = true
  | .div => lostLeft ∨ (b == 0.0) = true ∨ b.isNaN = true
  | .rem | .pow => False

-- Whether an operation takes a slope that is not a number for one of the unknown.
def Refuses (operation : Operation) (lostLeft lostRight : Prop) : Prop :=
  match operation with
  | .add | .sub => False
  | .mul | .rem | .pow => lostLeft ∨ lostRight
  | .div => lostRight

section

variable (store : Store Float) (limit : Nat) (scope : Scope Float)

-- The slope of an operand without the unknown is not a number.
def SlopeLost : Operand Float → Prop
  | .number _ | .symbol _ | .call _ _ => False
  | .term operation lhs rhs =>
    ∃ a b, Evaluation.evaluate store limit scope lhs = .ok a ∧
      Evaluation.evaluate store limit scope rhs = .ok b ∧
      LosesSlope operation (SlopeLost lhs) (SlopeLost rhs) a b

-- An operand without the unknown holds an operation that refuses a slope, and what stands before
-- that operation has a value.
inductive Blamed : Operand Float → Prop where
  | left {operation : Operation} {lhs rhs : Operand Float} :
    Blamed lhs → Blamed (.term operation lhs rhs)
  | right {operation : Operation} {lhs rhs : Operand Float} {a : Float} :
    Evaluation.evaluate store limit scope lhs = .ok a → Blamed rhs →
      Blamed (.term operation lhs rhs)
  | here {operation : Operation} {lhs rhs : Operand Float} {a b : Float} :
    Evaluation.evaluate store limit scope lhs = .ok a →
    Evaluation.evaluate store limit scope rhs = .ok b →
    Refuses operation (SlopeLost store limit scope lhs) (SlopeLost store limit scope rhs) →
      Blamed (.term operation lhs rhs)

end

-- A slope of an operand without the unknown: a zero, unless it is lost.
def SlopeOf (lost : Prop) (slope : Float) : Prop :=
  (lost ∧ slope.isNaN = true) ∨ (¬lost ∧ isZero slope = true)

section Slopes

variable {lostLeft lostRight : Prop} {x y : Float}

theorem slopeOf_zero : SlopeOf False zero := .inr ⟨id, rfl⟩

theorem SlopeOf.congr (hlost : lostLeft ↔ lostRight) (h : SlopeOf lostLeft x) :
    SlopeOf lostRight x := by
  rwa [SlopeOf, ← hlost]

theorem SlopeOf.isZero_iff (h : SlopeOf lostLeft x) : isZero x = true ↔ ¬lostLeft := by
  rcases h with ⟨hlost, hnan⟩ | ⟨hlost, hzero⟩
  · have hzero : isZero x = false := Number.beq_zero_eq_false_of_isNaN hnan
    simp [hlost, hzero]
  · simp [hlost, hzero]

-- An operation that passes on what is not a number and keeps zeros.
theorem SlopeOf.or (hx : SlopeOf lostLeft x) (hy : SlopeOf lostRight y) {z : Float}
    (hnan : x.isNaN = true ∨ y.isNaN = true → z.isNaN = true)
    (hzero : isZero x = true → isZero y = true → isZero z = true) :
    SlopeOf (lostLeft ∨ lostRight) z := by
  rcases hx with ⟨hl, hx⟩ | ⟨hl, hx⟩
  · exact .inl ⟨.inl hl, hnan (.inl hx)⟩
  · rcases hy with ⟨hr, hy⟩ | ⟨hr, hy⟩
    · exact .inl ⟨.inr hr, hnan (.inr hy)⟩
    · exact .inr ⟨not_or.mpr ⟨hl, hr⟩, hzero hx hy⟩

theorem SlopeOf.add (hx : SlopeOf lostLeft x) (hy : SlopeOf lostRight y) :
    SlopeOf (lostLeft ∨ lostRight) (x + y) :=
  hx.or hy Number.isNaN_add Number.zeroLaws_float.isZero_add

theorem SlopeOf.sub (hx : SlopeOf lostLeft x) (hy : SlopeOf lostRight y) :
    SlopeOf (lostLeft ∨ lostRight) (x - y) :=
  hx.or hy Number.isNaN_sub Number.zeroLaws_float.isZero_sub

theorem SlopeOf.mul (hx : SlopeOf lostLeft x) (hy : SlopeOf lostRight y) :
    SlopeOf (lostLeft ∨ lostRight) (x * y) :=
  hx.or hy Number.isNaN_mul fun hx hy =>
    Number.zeroLaws_float.isZero_mul hx (Number.zeroLaws_float.finite_of_isZero hy)

-- The slope of a zero times a value.
theorem slopeOf_zero_mul (hx : isZero x = true) (y : Float) :
    SlopeOf (¬y.isFinite = true) (x * y) := by
  by_cases hy : y.isFinite = true
  · exact .inr ⟨not_not_intro hy, Number.zeroLaws_float.isZero_mul hx hy⟩
  · exact .inl ⟨hy, Number.isNaN_mul_of_not_isFinite hx hy⟩

theorem SlopeOf.div (hx : SlopeOf lostLeft x) (y : Float) :
    SlopeOf (lostLeft ∨ (y == 0.0) = true ∨ y.isNaN = true) (x / y) := by
  rcases hx with ⟨hl, hx⟩ | ⟨hl, hx⟩
  · exact .inl ⟨.inl hl, Number.isNaN_div (.inl hx)⟩
  · by_cases hy : (y == 0.0) = true ∨ y.isNaN = true
    · exact .inl ⟨.inr hy, Number.isNaN_zero_div hx hy⟩
    · exact .inr ⟨not_or.mpr ⟨hl, hy⟩, Number.zero_div_beq_zero hx hy⟩

end Slopes

-- What becomes of two forms without the unknown: an error that blames it, where a slope is refused,
-- and else the operation on their values.
theorem combine_of_slopeOf (operation : Operation) {l r : LinearForm Float}
    {lostLeft lostRight : Prop} (hl : SlopeOf lostLeft l.slope) (hr : SlopeOf lostRight r.slope) :
    (Refuses operation lostLeft lostRight ∧
      ∃ error ∈ EquationError.blaming, combine operation l r = .error error) ∨
    (¬Refuses operation lostLeft lostRight ∧ ∃ slope,
      SlopeOf (LosesSlope operation lostLeft lostRight l.intercept r.intercept) slope ∧
      combine operation l r = .ok ⟨slope, operation.apply l.intercept r.intercept⟩) := by
  have hboth : (isZero l.slope && isZero r.slope) = true ↔ ¬(lostLeft ∨ lostRight) := by
    rw [Bool.and_eq_true, hl.isZero_iff, hr.isZero_iff, not_or]
  cases operation with
  | add => exact .inr ⟨id, _, hl.add hr, rfl⟩
  | sub => exact .inr ⟨id, _, hl.sub hr, rfl⟩
  | mul =>
    have hsquare := (hl.mul hr).isZero_iff
    by_cases hlost : lostLeft ∨ lostRight
    · exact .inl ⟨hlost, .square, by decide, if_neg (mt hsquare.mp (not_not_intro hlost))⟩
    · obtain ⟨hl', hr'⟩ := not_or.mp hlost
      have hslope := (slopeOf_zero_mul (hl.isZero_iff.mpr hl') r.intercept).add
        (slopeOf_zero_mul (hr.isZero_iff.mpr hr') l.intercept)
      rw [or_comm] at hslope
      exact .inr ⟨hlost, _, hslope, if_pos (hsquare.mpr hlost)⟩
  | div =>
    by_cases hlost : lostRight
    · exact .inl ⟨hlost, .denominator, by decide, if_neg (mt hr.isZero_iff.mp (not_not_intro hlost))⟩
    · exact .inr ⟨hlost, _, hl.div r.intercept, if_pos (hr.isZero_iff.mpr hlost)⟩
  | rem =>
    by_cases hlost : lostLeft ∨ lostRight
    · exact .inl ⟨hlost, .remainder, by decide, if_neg (mt hboth.mp (not_not_intro hlost))⟩
    · exact .inr ⟨hlost, _, slopeOf_zero, if_pos (hboth.mpr hlost)⟩
  | pow =>
    by_cases hlost : lostLeft ∨ lostRight
    · exact .inl ⟨hlost, .power, by decide, if_neg (mt hboth.mp (not_not_intro hlost))⟩
    · exact .inr ⟨hlost, _, slopeOf_zero, if_pos (hboth.mpr hlost)⟩

section Operands

variable (store : Store Float) (limit : Nat) (scope : Scope Float) (x : String)

-- The form of an operand fails with an error that blames the unknown.
def BlamesUnknown (t : Operand Float) : Prop :=
  ∃ error ∈ EquationError.blaming, ofOperand store limit scope x t = .error (.fault error)

-- How the form of an operand without the unknown is tied to its value.
structure Constant (t : Operand Float) : Prop where
  evaluate_of_form : ∀ form, ofOperand store limit scope x t = .ok form →
    Evaluation.evaluate store limit scope t = .ok form.intercept ∧
      SlopeOf (SlopeLost store limit scope t) form.slope
  form_of_evaluate : ∀ value, Evaluation.evaluate store limit scope t = .ok value →
    (∃ form, ofOperand store limit scope x t = .ok form) ∨ BlamesUnknown store limit scope x t
  blames_iff : BlamesUnknown store limit scope x t ↔ Blamed store limit scope t

variable {store limit scope x} {operation : Operation} {lhs rhs : Operand Float}

theorem slopeLost_term {a b : Float} (ha : Evaluation.evaluate store limit scope lhs = .ok a)
    (hb : Evaluation.evaluate store limit scope rhs = .ok b) :
    SlopeLost store limit scope (.term operation lhs rhs) ↔
      LosesSlope operation (SlopeLost store limit scope lhs) (SlopeLost store limit scope rhs) a b := by
  constructor
  · rintro ⟨a', b', ha', hb', h⟩
    obtain rfl : a = a' := Except.ok.inj (ha.symm.trans ha')
    obtain rfl : b = b' := Except.ok.inj (hb.symm.trans hb')
    exact h
  · exact fun h => ⟨a, b, ha, hb, h⟩

theorem BlamesUnknown.left (h : BlamesUnknown store limit scope x lhs) :
    BlamesUnknown store limit scope x (.term operation lhs rhs) := by
  obtain ⟨error, hmem, h⟩ := h
  exact ⟨error, hmem, by rw [ofOperand_term, h, error_bind]⟩

theorem BlamesUnknown.right {form : LinearForm Float}
    (hl : ofOperand store limit scope x lhs = .ok form)
    (h : BlamesUnknown store limit scope x rhs) :
    BlamesUnknown store limit scope x (.term operation lhs rhs) := by
  obtain ⟨error, hmem, h⟩ := h
  exact ⟨error, hmem, by rw [ofOperand_term, hl, ok_bind, h, error_bind]⟩

theorem ofOperand_term_of_ok {l r : LinearForm Float}
    (hl : ofOperand store limit scope x lhs = .ok l)
    (hr : ofOperand store limit scope x rhs = .ok r) :
    ofOperand store limit scope x (.term operation lhs rhs) =
      (combine operation l r).mapError .fault := by
  rw [ofOperand_term, hl, hr]
  rfl

-- Numbers, symbols and calls have the form of a constant if they have a value, and blame nothing.
theorem constant_of_leaf {t : Operand Float} {f : Halt EvaluationError → Halt EquationError}
    (hform : ofOperand store limit scope x t =
      (Evaluation.evaluate store limit scope t).mapError f >>= fun value => .ok (constant value))
    (hf : ∀ halt, ∀ error ∈ EquationError.blaming, f halt ≠ .fault error)
    (hlost : ¬SlopeLost store limit scope t) (hblamed : ¬Blamed store limit scope t) :
    Constant store limit scope x t where
  evaluate_of_form := by
    intro form h
    rw [hform] at h
    obtain ⟨value, hvalue, h⟩ := bind_eq_ok.mp h
    obtain rfl := Except.ok.inj h
    exact ⟨mapError_eq_ok.mp hvalue, .inr ⟨hlost, Number.zeroLaws_float.isZero_zero⟩⟩
  form_of_evaluate := by
    intro value h
    refine .inl ⟨constant value, ?_⟩
    rw [hform, h]
    rfl
  blames_iff := by
    refine iff_of_false ?_ hblamed
    rintro ⟨error, hmem, h⟩
    rw [hform] at h
    cases hvalue : Evaluation.evaluate store limit scope t with
    | ok value =>
      rw [hvalue] at h
      cases h
    | error halt =>
      rw [hvalue] at h
      exact hf halt error hmem (Except.error.inj h)

section Term

variable (hl : Constant store limit scope x lhs) (hr : Constant store limit scope x rhs)
include hl hr

-- What a term comes to once both sides have forms.
theorem Constant.term_of_forms {l r : LinearForm Float}
    (hlform : ofOperand store limit scope x lhs = .ok l)
    (hrform : ofOperand store limit scope x rhs = .ok r) :
    (Refuses operation (SlopeLost store limit scope lhs) (SlopeLost store limit scope rhs) ∧
      BlamesUnknown store limit scope x (.term operation lhs rhs)) ∨
    (¬Refuses operation (SlopeLost store limit scope lhs) (SlopeLost store limit scope rhs) ∧
      ∃ form, ofOperand store limit scope x (.term operation lhs rhs) = .ok form ∧
        Evaluation.evaluate store limit scope (.term operation lhs rhs) = .ok form.intercept ∧
        SlopeOf (SlopeLost store limit scope (.term operation lhs rhs)) form.slope) := by
  obtain ⟨hlvalue, hlslope⟩ := hl.evaluate_of_form l hlform
  obtain ⟨hrvalue, hrslope⟩ := hr.evaluate_of_form r hrform
  rcases combine_of_slopeOf operation hlslope hrslope with
    ⟨hrefuses, error, hmem, hcombine⟩ | ⟨hrefuses, slope, hslope, hcombine⟩
  · refine .inl ⟨hrefuses, error, hmem, ?_⟩
    rw [ofOperand_term_of_ok hlform hrform, hcombine]
    rfl
  · have hvalue : Evaluation.evaluate store limit scope (.term operation lhs rhs) =
        .ok (operation.apply l.intercept r.intercept) :=
      Evaluation.evaluate_term_of_ok store limit scope operation hlvalue hrvalue
    have hform : ofOperand store limit scope x (.term operation lhs rhs) =
        .ok ⟨slope, operation.apply l.intercept r.intercept⟩ := by
      rw [ofOperand_term_of_ok hlform hrform, hcombine, Except.mapError]
    exact .inr ⟨hrefuses, _, hform, hvalue, hslope.congr (slopeLost_term hlvalue hrvalue).symm⟩

theorem Constant.blames_or_forms {a b : Float}
    (ha : Evaluation.evaluate store limit scope lhs = .ok a)
    (hb : Evaluation.evaluate store limit scope rhs = .ok b) :
    BlamesUnknown store limit scope x (.term operation lhs rhs) ∨
      ∃ l r, ofOperand store limit scope x lhs = .ok l ∧
        ofOperand store limit scope x rhs = .ok r := by
  rcases hl.form_of_evaluate a ha with ⟨l, hlform⟩ | hblames
  · rcases hr.form_of_evaluate b hb with ⟨r, hrform⟩ | hblames
    · exact .inr ⟨l, r, hlform, hrform⟩
    · exact .inl (hblames.right hlform)
  · exact .inl hblames.left

theorem Constant.term : Constant store limit scope x (.term operation lhs rhs) where
  evaluate_of_form := by
    intro form h
    have hforms := h
    rw [ofOperand_term] at hforms
    obtain ⟨l, hlform, hforms⟩ := bind_eq_ok.mp hforms
    obtain ⟨r, hrform, -⟩ := bind_eq_ok.mp hforms
    rcases hl.term_of_forms hr hlform hrform with ⟨-, error, -, herror⟩ | ⟨-, form', hform', hterm⟩
    · rw [h] at herror
      cases herror
    · obtain rfl := Except.ok.inj (h.symm.trans hform')
      exact hterm
  form_of_evaluate := by
    intro value h
    rw [Evaluation.evaluate_term] at h
    obtain ⟨a, ha, h⟩ := bind_eq_ok.mp h
    obtain ⟨b, hb, -⟩ := bind_eq_ok.mp h
    rcases hl.blames_or_forms hr ha hb with hblames | ⟨l, r, hlform, hrform⟩
    · exact .inr hblames
    · rcases hl.term_of_forms hr hlform hrform with ⟨-, hblames⟩ | ⟨-, form, hform, -⟩
      · exact .inr hblames
      · exact .inl ⟨form, hform⟩
  blames_iff := by
    constructor
    · rintro ⟨error, hmem, h⟩
      rw [ofOperand_term] at h
      rcases bind_eq_error.mp h with hlerror | ⟨l, hlform, h⟩
      · exact .left (hl.blames_iff.mp ⟨error, hmem, hlerror⟩)
      · obtain ⟨hlvalue, -⟩ := hl.evaluate_of_form l hlform
        rcases bind_eq_error.mp h with hrerror | ⟨r, hrform, h⟩
        · exact .right hlvalue (hr.blames_iff.mp ⟨error, hmem, hrerror⟩)
        · rcases hl.term_of_forms hr hlform hrform with ⟨hrefuses, -⟩ | ⟨-, form, hform, -⟩
          · exact .here hlvalue (hr.evaluate_of_form r hrform).1 hrefuses
          · rw [ofOperand_term_of_ok hlform hrform, h] at hform
            cases hform
    · intro h
      cases h with
      | left h => exact (hl.blames_iff.mpr h).left
      | right ha h =>
        rcases hl.form_of_evaluate _ ha with ⟨l, hlform⟩ | hblames
        · exact (hr.blames_iff.mpr h).right hlform
        · exact hblames.left
      | here ha hb hrefuses =>
        rcases hl.blames_or_forms hr ha hb with hblames | ⟨l, r, hlform, hrform⟩
        · exact hblames
        · rcases hl.term_of_forms hr hlform hrform with ⟨-, hblames⟩ | ⟨hnot, -⟩
          · exact hblames
          · exact absurd hrefuses hnot

end Term

-- What a call fails with is told as it is.
theorem map_operand_ne_blaming (halt : Halt EvaluationError) :
    ∀ error ∈ EquationError.blaming, Halt.map .operand halt ≠ .fault error := by
  cases halt <;> simp [EquationError.blaming, Halt.map]

theorem constant_of_notMem_outer : (t : Operand Float) → .symbol x ∉ t.outer →
    Constant store limit scope x t
  | .number value, _ => constant_of_leaf rfl map_operand_ne_blaming id nofun
  | .symbol name, hx => by
    have hname : name ≠ x := by
      rintro rfl
      exact hx (Operand.self_mem_outer _)
    refine constant_of_leaf (f := fun _ => .fault (.unknownVariable name)) ?_ ?_ id nofun
    · rw [ofOperand_symbol store limit scope x hname, Evaluation.evaluate_symbol]
      cases store.get? scope name <;> rfl
    · simp [EquationError.blaming]
  | .term operation lhs rhs, hx => by
    simp only [Operand.outer, List.mem_cons, List.mem_append, not_or] at hx
    exact (constant_of_notMem_outer lhs hx.2.1).term (constant_of_notMem_outer rhs hx.2.2)
  | .call name args, _ =>
    constant_of_leaf (ofOperand_call store limit scope x name args) map_operand_ne_blaming id nofun

end Operands

section Finite

variable {store : Store Float} {limit : Nat} {scope : Scope Float}

-- A part of the operand, itself included, has an infinity or no number for a value.
def HoldsNotFinite (store : Store Float) (limit : Nat) (scope : Scope Float) (t : Operand Float) :
    Prop :=
  ∃ u ∈ t.outer, ∃ value, Evaluation.evaluate store limit scope u = .ok value ∧
    ¬value.isFinite = true

variable {operation : Operation} {lhs rhs : Operand Float}

theorem HoldsNotFinite.left (h : HoldsNotFinite store limit scope lhs) :
    HoldsNotFinite store limit scope (.term operation lhs rhs) := by
  obtain ⟨u, hu, h⟩ := h
  exact ⟨u, List.mem_cons_of_mem _ (List.mem_append_left _ hu), h⟩

theorem HoldsNotFinite.right (h : HoldsNotFinite store limit scope rhs) :
    HoldsNotFinite store limit scope (.term operation lhs rhs) := by
  obtain ⟨u, hu, h⟩ := h
  exact ⟨u, List.mem_cons_of_mem _ (List.mem_append_right _ hu), h⟩

theorem holdsNotFinite_self {t : Operand Float} {value : Float}
    (h : Evaluation.evaluate store limit scope t = .ok value) (hvalue : ¬value.isFinite = true) :
    HoldsNotFinite store limit scope t :=
  ⟨t, t.self_mem_outer, value, h, hvalue⟩

theorem SlopeLost.holdsNotFinite : {t : Operand Float} → SlopeLost store limit scope t →
    HoldsNotFinite store limit scope t
  | .term operation lhs rhs, ⟨a, b, ha, hb, h⟩ => by
    cases operation with
    | add => exact h.elim (fun h => h.holdsNotFinite.left) fun h => h.holdsNotFinite.right
    | sub => exact h.elim (fun h => h.holdsNotFinite.left) fun h => h.holdsNotFinite.right
    | mul =>
      rcases h with h | h
      · exact (holdsNotFinite_self ha h).left
      · exact (holdsNotFinite_self hb h).right
    | div =>
      rcases h with h | h | h
      · exact h.holdsNotFinite.left
      · by_cases hfinite : a.isFinite = true
        · have hvalue := Evaluation.evaluate_term_of_ok store limit scope .div ha hb
          exact holdsNotFinite_self hvalue (Number.zeroLaws_float.not_finite_div hfinite h)
        · exact (holdsNotFinite_self ha hfinite).left
      · exact (holdsNotFinite_self hb (Number.not_isFinite_of_isNaN h)).right
    | rem => exact h.elim
    | pow => exact h.elim

theorem Refuses.lost {lostLeft lostRight : Prop} (h : Refuses operation lostLeft lostRight) :
    lostLeft ∨ lostRight := by
  cases operation with
  | add => exact h.elim
  | sub => exact h.elim
  | mul => exact h
  | div => exact .inr h
  | rem => exact h
  | pow => exact h

-- As long as all values are finite, nothing but the unknown is blamed.
theorem Blamed.holdsNotFinite {t : Operand Float} (h : Blamed store limit scope t) :
    HoldsNotFinite store limit scope t := by
  induction h with
  | left _ ih => exact ih.left
  | right _ _ ih => exact ih.right
  | here _ _ hrefuses =>
    rcases hrefuses.lost with h | h
    · exact h.holdsNotFinite.left
    · exact h.holdsNotFinite.right

end Finite

end LinearForm

open LinearForm

-- An operand that does not hold the unknown outside of its calls is refused for the unknown when one
-- of its operations takes a lost slope for it, and only then. That needs a value that is not finite.
theorem blames_absent_unknown_iff {store : Store Float} {limit : Nat} {scope : Scope Float}
    {x : String} {t : Operand Float} (hx : .symbol x ∉ t.outer) :
    (BlamesUnknown store limit scope x t ↔ Blamed store limit scope t) ∧
      (BlamesUnknown store limit scope x t → HoldsNotFinite store limit scope t) := by
  have hconstant : Constant store limit scope x t := constant_of_notMem_outer t hx
  exact ⟨hconstant.blames_iff, fun h => (hconstant.blames_iff.mp h).holdsNotFinite⟩

-- The infinity 1 / 0 has a slope of 0 / 0, and 5 cannot be divided by it.
theorem blames_absent_unknown_iff_ratio :
    let t : Operand Float :=
      .term .div (.number 5.0) (.term .div (.number 1.0) (.number 0.0))
    .symbol "x" ∉ t.outer ∧ BlamesUnknown .empty 0 (.ofRoot 0) "x" t := by
  intro t
  have hx : .symbol "x" ∉ t.outer := by simp [t, Operand.outer]
  have hlost : SlopeLost .empty 0 (.ofRoot 0) (.term .div (.number 1.0) (.number 0.0)) :=
    ⟨1.0, 0.0, rfl, rfl, .inr (.inl (by decide))⟩
  exact ⟨hx, (blames_absent_unknown_iff hx).1.mpr (.here rfl rfl hlost)⟩

-- Nothing of 1 / 0 * 2 + q is x squared, and q has no value.
theorem infinity_blamed :
    let t : Operand Float :=
      .term .add (.term .mul (.term .div (.number 1.0) (.number 0.0)) (.number 2.0)) (.symbol "q")
    .symbol "x" ∉ t.outer ∧
      ofOperand .empty 0 (.ofRoot 0) "x" t = .error (.fault .square) := by
  intro t
  have hx : .symbol "x" ∉ t.outer := by simp [t, Operand.outer]
  have hsquare : ofOperand .empty 0 (.ofRoot 0) "x" t = .error (.fault .square) := by
    decide +kernel
  exact ⟨hx, hsquare⟩

end Reckon
