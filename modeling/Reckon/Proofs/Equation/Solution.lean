import Mathlib.Tactic.LinearCombination
import Reckon.Proofs.Arithmetic.Rational
import Reckon.Proofs.Equation
import Reckon.Proofs.Evaluation.Bound

namespace Reckon

open Rational

variable {p : Primitives}

namespace LinearForm

-- The value of a form where the unknown is `v`.
def valueAt (form : LinearForm (Rational p)) (v : ℚ) : Rational p :=
  form.slope * of v + form.intercept

theorem valueAt_constant (value : Rational p) (v : ℚ) : (constant value).valueAt v = value := by
  cases value <;> simp [valueAt, constant, zero_eq, add_eq, mul_eq]

theorem valueAt_unknown (v : ℚ) : (unknown : LinearForm (Rational p)).valueAt v = of v := by
  simp [valueAt, unknown, zero_eq, one_eq, add_eq, mul_eq]

-- A form without a slope has its intercept everywhere.
theorem valueAt_of_isZero {form : LinearForm (Rational p)} {v : ℚ}
    (h : Arithmetic.isZero form.slope = true) : form.valueAt v = form.intercept := by
  rw [valueAt, (isZero_iff _).mp h]
  cases form.intercept <;> simp [add_eq, mul_eq]

theorem valueAt_add (l r : LinearForm (Rational p)) (v : ℚ) :
    valueAt ⟨l.slope + r.slope, l.intercept + r.intercept⟩ v = l.valueAt v + r.valueAt v := by
  obtain ⟨_ | ls, _ | li⟩ := l <;> obtain ⟨_ | rs, _ | ri⟩ := r <;> simp [valueAt, add_eq, mul_eq]
  ring

theorem valueAt_sub (l r : LinearForm (Rational p)) (v : ℚ) :
    valueAt ⟨l.slope - r.slope, l.intercept - r.intercept⟩ v = l.valueAt v - r.valueAt v := by
  obtain ⟨_ | ls, _ | li⟩ := l <;> obtain ⟨_ | rs, _ | ri⟩ := r <;>
    simp [valueAt, add_eq, sub_eq, mul_eq]
  ring

-- The square that a product leaves out has the coefficient zero.
theorem valueAt_mul (l r : LinearForm (Rational p)) (v : ℚ)
    (h : Arithmetic.isZero (l.slope * r.slope) = true) :
    valueAt ⟨l.slope * r.intercept + r.slope * l.intercept, l.intercept * r.intercept⟩ v =
      l.valueAt v * r.valueAt v := by
  obtain ⟨a, b, ha, hb, hab⟩ := exists_of_mul_eq_of ((isZero_iff _).mp h)
  obtain ⟨_, li⟩ := l
  obtain ⟨_, ri⟩ := r
  subst ha hb
  cases li with
  | undefined => simp [valueAt, add_eq, mul_eq]
  | of c =>
    cases ri with
    | undefined => simp [valueAt, add_eq, mul_eq]
    | of d =>
      have hproduct : (a * d + b * c) * v + c * d = (a * v + c) * (b * v + d) := by
        linear_combination -v ^ 2 * hab
      simp [valueAt, add_eq, mul_eq, hproduct]

theorem valueAt_div (l r : LinearForm (Rational p)) (v : ℚ)
    (h : Arithmetic.isZero r.slope = true) :
    valueAt ⟨l.slope / r.intercept, l.intercept / r.intercept⟩ v =
      l.valueAt v / r.valueAt v := by
  rw [valueAt_of_isZero h]
  obtain ⟨ls, li⟩ := l
  cases r.intercept with
  | undefined => simp [valueAt, add_eq, mul_eq, div_eq]
  | of d =>
    by_cases hd : d = 0
    · cases ls <;> cases li <;> simp [valueAt, add_eq, mul_eq, div_eq, hd]
    · cases ls <;> cases li <;> simp [valueAt, add_eq, mul_eq, div_eq, hd]
      ring

-- Remainders and powers are taken of the intercepts, where neither form has a slope.
theorem valueAt_of_intercepts (l r : LinearForm (Rational p)) (v : ℚ)
    (f : Rational p → Rational p → Rational p)
    (h : (Arithmetic.isZero l.slope && Arithmetic.isZero r.slope) = true) :
    (constant (f l.intercept r.intercept)).valueAt v = f (l.valueAt v) (r.valueAt v) := by
  obtain ⟨hl, hr⟩ := Bool.and_eq_true_iff.mp h
  rw [valueAt_constant, valueAt_of_isZero hl, valueAt_of_isZero hr]

-- A combination of two forms has the value of the operation on their values.
theorem valueAt_combine {operation : Operation} {l r form : LinearForm (Rational p)}
    (h : combine operation l r = .ok form) (v : ℚ) :
    form.valueAt v = operation.apply (l.valueAt v) (r.valueAt v) := by
  cases operation with
  | add =>
    obtain rfl := Except.ok.inj h
    exact valueAt_add l r v
  | sub =>
    obtain rfl := Except.ok.inj h
    exact valueAt_sub l r v
  | mul =>
    obtain ⟨hsquare, rfl⟩ := ite_eq_ok.mp h
    exact valueAt_mul l r v hsquare
  | div =>
    obtain ⟨hslope, rfl⟩ := ite_eq_ok.mp h
    exact valueAt_div l r v hslope
  | rem =>
    obtain ⟨hslopes, rfl⟩ := ite_eq_ok.mp h
    exact valueAt_of_intercepts l r v Arithmetic.rem hslopes
  | pow =>
    obtain ⟨hslopes, rfl⟩ := ite_eq_ok.mp h
    exact valueAt_of_intercepts l r v Arithmetic.pow hslopes

section Environment

variable {store store' : Store (Rational p)} {limit : Nat} {scope scope' : Scope (Rational p)}
  {x : String} {v : ℚ}

-- Induction on the operand: what the form of a term has at `v` is the operation on what the forms
-- of its sides have there, and a call that does not read `x` has the value it had without it.
theorem evaluate_of_form (hbound : Evaluation.Bound x (of v) store scope store' scope') :
    (t : Operand (Rational p)) → x ∉ t.argumentSymbols → ∀ form,
      ofOperand store limit scope x t = .ok form →
        Evaluation.evaluate store' limit scope' t = .ok (form.valueAt v)
  | .number value, _, form, h => by
    obtain rfl := Except.ok.inj h
    rw [valueAt_constant, Evaluation.evaluate_number]
  | .symbol name, _, form, h => by
    rw [Evaluation.evaluate_symbol]
    by_cases hx : name = x
    · subst hx
      rw [ofOperand_unknown] at h
      obtain rfl := Except.ok.inj h
      rw [hbound.get?_self, valueAt_unknown]
    · rw [ofOperand_symbol _ _ _ _ hx] at h
      rw [hbound.get?_of_ne hx]
      cases hget : store.get? scope name with
      | none =>
        rw [hget] at h
        cases h
      | some value =>
        rw [hget] at h
        obtain rfl := Except.ok.inj h
        rw [valueAt_constant]
  | .term operation lhs rhs, hx, form, h => by
    simp only [Operand.argumentSymbols, List.mem_append, not_or] at hx
    rw [ofOperand_term] at h
    obtain ⟨l, hl, h⟩ := bind_eq_ok.mp h
    obtain ⟨r, hr, h⟩ := bind_eq_ok.mp h
    rw [Evaluation.evaluate_term, evaluate_of_form hbound lhs hx.1 l hl,
      evaluate_of_form hbound rhs hx.2 r hr, valueAt_combine (mapError_eq_ok.mp h)]
    rfl
  | .call name args, hx, form, h => by
    have hcall : Evaluation.evaluate store' limit scope' (.call name args) =
        Evaluation.evaluate store limit scope (.call name args) :=
      Evaluation.evaluate_congr (hbound.sameCalls limit) (.call name args) fun n hn =>
        hbound.get?_of_ne fun he => hx (he ▸ hn)
    rw [ofOperand_call] at h
    obtain ⟨value, hvalue, h⟩ := bind_eq_ok.mp h
    obtain rfl := Except.ok.inj h
    rw [valueAt_constant, hcall, mapError_eq_ok.mp hvalue]

end Environment

end LinearForm

-- Both sides of an equation have values.
def SidesDefined (store : Store (Rational p)) (limit : Nat) (scope : Scope (Rational p))
    (lhs rhs : Operand (Rational p)) : Prop :=
  ∃ a b, Evaluation.evaluate store limit scope lhs = .ok (of a) ∧
    Evaluation.evaluate store limit scope rhs = .ok (of b)

-- Both sides have values, and these are equal.
def SidesEqual (store : Store (Rational p)) (limit : Nat) (scope : Scope (Rational p))
    (lhs rhs : Operand (Rational p)) : Prop :=
  ∃ a, Evaluation.evaluate store limit scope lhs = .ok (of a) ∧
    Evaluation.evaluate store limit scope rhs = .ok (of a)

section Sides

variable {store store' : Store (Rational p)} {limit : Nat} {scope scope' : Scope (Rational p)}
  {x : String} {lhs rhs : Operand (Rational p)} {l r : LinearForm (Rational p)} {v : ℚ}

theorem sidesDefined_iff (hl : Evaluation.evaluate store' limit scope' lhs = .ok (l.valueAt v))
    (hr : Evaluation.evaluate store' limit scope' rhs = .ok (r.valueAt v)) :
    SidesDefined store' limit scope' lhs rhs ↔ ∃ a b, l.valueAt v = of a ∧ r.valueAt v = of b := by
  simp [SidesDefined, hl, hr]

theorem sidesEqual_iff (hl : Evaluation.evaluate store' limit scope' lhs = .ok (l.valueAt v))
    (hr : Evaluation.evaluate store' limit scope' rhs = .ok (r.valueAt v)) :
    SidesEqual store' limit scope' lhs rhs ↔ ∃ a, l.valueAt v = of a ∧ r.valueAt v = of a := by
  simp [SidesEqual, hl, hr]

-- What is isolated is the only value at which the two forms are equal.
theorem valueAt_eq_iff_of_isolate (h : LinearForm.isolate l r = .ok (of v)) (u : ℚ) :
    (∃ a, l.valueAt u = of a ∧ r.valueAt u = of a) ↔ u = v := by
  have hsolution : (r.intercept - l.intercept) / (l.slope - r.slope) = of v := by
    unfold LinearForm.isolate at h
    dsimp only at h
    split at h
    · cases h
    · exact Except.ok.inj h
  obtain ⟨n, s, hn, hs, hne, hv⟩ := exists_of_div_eq_of hsolution
  obtain ⟨d, c, hd, hc, rfl⟩ := exists_of_sub_eq_of hn
  obtain ⟨a, b, ha, hb, rfl⟩ := exists_of_sub_eq_of hs
  have hl : l.valueAt u = of (a * u + c) := by simp [LinearForm.valueAt, ha, hc, add_eq, mul_eq]
  have hr : r.valueAt u = of (b * u + d) := by simp [LinearForm.valueAt, hb, hd, add_eq, mul_eq]
  rw [div_eq_iff hne] at hv
  constructor
  · rintro ⟨e, he, he'⟩
    have heq : a * u + c = b * u + d := by
      rw [hl] at he
      rw [hr] at he'
      exact Rational.of.inj (he.trans he'.symm)
    apply mul_right_cancel₀ hne
    linear_combination heq + hv
  · rintro rfl
    refine ⟨a * u + c, hl, ?_⟩
    rw [hr]
    congr 1
    linear_combination hv

-- Forms of the same slope are equal everywhere or nowhere.
theorem valueAt_eq_of_isZero (h : Arithmetic.isZero (l.slope - r.slope) = true) :
    (∀ u, (∃ a b, l.valueAt u = of a ∧ r.valueAt u = of b) →
      ∃ a, l.valueAt u = of a ∧ r.valueAt u = of a) ∨
    ∀ u, ¬∃ a, l.valueAt u = of a ∧ r.valueAt u = of a := by
  obtain ⟨a, b, ha, hb, hab⟩ := exists_of_sub_eq_of ((isZero_iff _).mp h)
  obtain rfl : a = b := sub_eq_zero.mp hab
  by_cases hintercept : l.intercept = r.intercept
  · refine Or.inl fun u => ?_
    rintro ⟨c, d, hc, hd⟩
    have hsame : l.valueAt u = r.valueAt u := by
      rw [LinearForm.valueAt, LinearForm.valueAt, ha, hb, hintercept]
    exact ⟨c, hc, hsame ▸ hc⟩
  · refine Or.inr fun u => ?_
    rintro ⟨c, hc, hd⟩
    obtain ⟨m, i, hm, hi, hmi⟩ := exists_of_add_eq_of hc
    obtain ⟨n, j, hn, hj, hnj⟩ := exists_of_add_eq_of hd
    have hmn : m = n := by
      rw [ha] at hm
      rw [hb, hm] at hn
      exact Rational.of.inj hn
    have hij : i = j := by linear_combination hmi - hnj - hmn
    exact hintercept (by rw [hi, hj, hij])

end Sides

-- The form of an operand says what the operand gives for every value of the unknown. A solution
-- therefore makes both sides equal, and nothing else does; where the unknown cancels out, the
-- sides are equal wherever they have values, or nowhere.
theorem solveFor_exact (store : Store (Rational p)) (limit : Nat) (scope : Scope (Rational p))
    (x : String) :
    (∀ t a₁ a₀, x ∉ t.argumentSymbols →
      LinearForm.ofOperand store limit scope x t = .ok ⟨of a₁, of a₀⟩ →
        ∀ v store' scope', Evaluation.Bound x (of v) store scope store' scope' →
          Evaluation.evaluate store' limit scope' t = .ok (of (a₁ * v + a₀))) ∧
    ∀ lhs rhs, x ∉ lhs.argumentSymbols → x ∉ rhs.argumentSymbols →
      (∀ v, solveFor store limit scope lhs rhs x = .ok (of v) →
        ∀ u store' scope', Evaluation.Bound x (of u) store scope store' scope' →
          (SidesEqual store' limit scope' lhs rhs ↔ u = v)) ∧
      (solveFor store limit scope lhs rhs x = .error (.fault .noVariable) →
        (∀ u store' scope', Evaluation.Bound x (of u) store scope store' scope' →
          SidesDefined store' limit scope' lhs rhs → SidesEqual store' limit scope' lhs rhs) ∨
        ∀ u store' scope', Evaluation.Bound x (of u) store scope store' scope' →
          ¬SidesEqual store' limit scope' lhs rhs) := by
  refine ⟨fun t a₁ a₀ ht hform v store' scope' hbound => ?_, fun lhs rhs hlx hrx => ⟨?_, ?_⟩⟩
  · rw [LinearForm.evaluate_of_form hbound t ht _ hform]
    simp [LinearForm.valueAt, add_eq, mul_eq]
  · intro v hv u store' scope' hbound
    obtain ⟨l, r, hl, hr, hisolate⟩ := solveFor_eq_ok.mp hv
    rw [sidesEqual_iff (LinearForm.evaluate_of_form hbound lhs hlx l hl)
      (LinearForm.evaluate_of_form hbound rhs hrx r hr)]
    exact valueAt_eq_iff_of_isolate hisolate u
  · intro hno
    obtain ⟨l, r, hl, hr, hslope⟩ := solveFor_eq_noVariable hno
    refine (valueAt_eq_of_isZero hslope).imp ?_ ?_
    · intro h u store' scope' hbound
      have hlu := LinearForm.evaluate_of_form hbound lhs hlx l hl
      have hru := LinearForm.evaluate_of_form hbound rhs hrx r hr
      rw [sidesDefined_iff hlu hru, sidesEqual_iff hlu hru]
      exact h u
    · intro h u store' scope' hbound
      rw [sidesEqual_iff (LinearForm.evaluate_of_form hbound lhs hlx l hl)
        (LinearForm.evaluate_of_form hbound rhs hrx r hr)]
      exact h u

-- A root with one function, the closure of which is a root of its own.
def squares : Store (Rational .standard) :=
  ⟨[⟨.empty, 0⟩, ⟨.empty, 0⟩],
    [.ofList [("square", .custom ["y"] (.term .pow (.symbol "y") (.number (of 2)))
      (some (.ofRoot 1)))]]⟩

-- The equation 3 * x - 2 = x + square(2) has the solution 3, and no other; in (x - x) ^ 2 = 0 the
-- unknown cancels out.
theorem solveFor_exact_squares :
    (∀ v, Evaluation.evaluate squares 100 ((Scope.ofRoot 0).push (.ofList [("x", of v)]))
      (.term .sub (.term .mul (.number (of 3)) (.symbol "x")) (.number (of 2))) =
        .ok (of (3 * v + -2))) ∧
    (∀ u, SidesEqual squares 100 ((Scope.ofRoot 0).push (.ofList [("x", of u)]))
      (.term .sub (.term .mul (.number (of 3)) (.symbol "x")) (.number (of 2)))
      (.term .add (.symbol "x") (.call "square" [.number (of 2)])) ↔ u = 3) ∧
    ((∀ u store' scope', Evaluation.Bound "x" (of u) squares (.ofRoot 0) store' scope' →
      SidesDefined store' 100 scope'
        (.term .pow (.term .sub (.symbol "x") (.symbol "x")) (.number (of 2))) (.number (of 0)) →
      SidesEqual store' 100 scope'
        (.term .pow (.term .sub (.symbol "x") (.symbol "x")) (.number (of 2))) (.number (of 0))) ∨
    ∀ u store' scope', Evaluation.Bound "x" (of u) squares (.ofRoot 0) store' scope' →
      ¬SidesEqual store' 100 scope'
        (.term .pow (.term .sub (.symbol "x") (.symbol "x")) (.number (of 2)))
        (.number (of 0))) := by
  have hexact := solveFor_exact squares 100 (.ofRoot 0) "x"
  refine ⟨fun v => ?_, fun u => ?_, ?_⟩
  · exact hexact.1 _ 3 (-2) (by decide) (by cbv) v _ _ (.parameter _)
  · have hsolution := (hexact.2
      (.term .sub (.term .mul (.number (of 3)) (.symbol "x")) (.number (of 2)))
      (.term .add (.symbol "x") (.call "square" [.number (of 2)])) (by decide) (by decide)).1
    exact hsolution 3 (by cbv) u _ _ (.parameter _)
  · exact (hexact.2 _ _ (by decide) (by decide)).2 (by cbv)

end Reckon
