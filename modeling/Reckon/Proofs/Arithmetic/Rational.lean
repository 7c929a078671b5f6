import Mathlib.Algebra.Field.Rat
import Mathlib.Algebra.Order.Ring.Rat
import Mathlib.Tactic.Ring
import Reckon.Arithmetic

namespace Reckon

-- Remainders, powers and the built-in functions may be any partial functions.
structure Primitives where
  rem : ℚ → ℚ → Option ℚ
  pow : ℚ → ℚ → Option ℚ
  apply : Builtin → ℚ → Option ℚ

-- Remainders take the sign of the dividend. Powers with whole exponents and the absolute value are
-- the only ones that stay among the rationals wherever they are defined.
def Primitives.standard : Primitives where
  rem a b := if b = 0 then none else some (a - b * (a / b).num.tdiv (a / b).den)
  pow a b := if b.den = 1 ∧ (a ≠ 0 ∨ 0 ≤ b.num) then some (a ^ b.num) else none
  apply
    | .abs, a => some |a|
    | _, _ => none

-- Exact numbers, with a value of its own for what is not defined.
inductive Rational (p : Primitives) where
  | undefined
  | of (q : ℚ)
deriving DecidableEq

namespace Rational

variable {p : Primitives}

def ofOption : Option ℚ → Rational p
  | none => undefined
  | some q => of q

-- An operation gives nothing where an operand is not defined.
def lift (f : ℚ → ℚ → Option ℚ) : Rational p → Rational p → Rational p
  | of a, of b => ofOption (f a b)
  | _, _ => undefined

-- What is not defined does not count as zero.
instance : Arithmetic (Rational p) where
  add := lift fun a b => some (a + b)
  sub := lift fun a b => some (a - b)
  mul := lift fun a b => some (a * b)
  div := lift fun a b => if b = 0 then none else some (a / b)
  zero := of 0
  one := of 1
  rem := lift p.rem
  pow := lift p.pow
  isZero
    | of q => decide (q = 0)
    | undefined => false
  apply
    | b, of q => ofOption (p.apply b q)
    | _, undefined => undefined

section Lift

variable (f : ℚ → ℚ → Option ℚ)

@[simp] theorem lift_of (a b : ℚ) : lift f (of a) (of b) = (ofOption (f a b) : Rational p) := rfl

@[simp] theorem lift_undefined_left (x : Rational p) : lift f undefined x = undefined := by
  cases x <;> rfl

@[simp] theorem lift_undefined_right (x : Rational p) : lift f x undefined = undefined := by
  cases x <;> rfl

end Lift

theorem add_eq (x y : Rational p) : x + y = lift (fun a b => some (a + b)) x y := rfl

theorem sub_eq (x y : Rational p) : x - y = lift (fun a b => some (a - b)) x y := rfl

theorem mul_eq (x y : Rational p) : x * y = lift (fun a b => some (a * b)) x y := rfl

theorem div_eq (x y : Rational p) :
    x / y = lift (fun a b => if b = 0 then none else some (a / b)) x y := rfl

theorem zero_eq : (Arithmetic.zero : Rational p) = of 0 := rfl

theorem one_eq : (Arithmetic.one : Rational p) = of 1 := rfl

@[simp] theorem ofOption_some (q : ℚ) : (ofOption (some q) : Rational p) = of q := rfl

@[simp] theorem ofOption_none : (ofOption none : Rational p) = undefined := rfl

theorem isZero_iff (x : Rational p) : Arithmetic.isZero x = true ↔ x = of 0 := by
  cases x with
  | undefined => simp [Arithmetic.isZero]
  | of q => simp [Arithmetic.isZero]

-- What an operation gives is defined only if both operands are.
theorem exists_of_lift_eq_of {f : ℚ → ℚ → Option ℚ} {x y : Rational p} {q : ℚ}
    (h : lift f x y = of q) : ∃ a b, x = of a ∧ y = of b ∧ f a b = some q := by
  cases x with
  | undefined => simp at h
  | of a =>
    cases y with
    | undefined => simp at h
    | of b =>
      rw [lift_of] at h
      cases hf : f a b with
      | none => simp [hf] at h
      | some c =>
        rw [hf, ofOption_some] at h
        exact ⟨a, b, rfl, rfl, by rw [hf, Rational.of.inj h]⟩

theorem exists_of_add_eq_of {x y : Rational p} {q : ℚ} (h : x + y = of q) :
    ∃ a b, x = of a ∧ y = of b ∧ a + b = q := by
  obtain ⟨a, b, hx, hy, hq⟩ := exists_of_lift_eq_of h
  exact ⟨a, b, hx, hy, Option.some.inj hq⟩

theorem exists_of_sub_eq_of {x y : Rational p} {q : ℚ} (h : x - y = of q) :
    ∃ a b, x = of a ∧ y = of b ∧ a - b = q := by
  obtain ⟨a, b, hx, hy, hq⟩ := exists_of_lift_eq_of h
  exact ⟨a, b, hx, hy, Option.some.inj hq⟩

theorem exists_of_mul_eq_of {x y : Rational p} {q : ℚ} (h : x * y = of q) :
    ∃ a b, x = of a ∧ y = of b ∧ a * b = q := by
  obtain ⟨a, b, hx, hy, hq⟩ := exists_of_lift_eq_of h
  exact ⟨a, b, hx, hy, Option.some.inj hq⟩

theorem exists_of_div_eq_of {x y : Rational p} {q : ℚ} (h : x / y = of q) :
    ∃ a b, x = of a ∧ y = of b ∧ b ≠ 0 ∧ a / b = q := by
  obtain ⟨a, b, hx, hy, hq⟩ := exists_of_lift_eq_of h
  by_cases hb : b = 0
  · simp [hb] at hq
  · rw [if_neg hb] at hq
    exact ⟨a, b, hx, hy, hb, Option.some.inj hq⟩

end Rational

end Reckon
