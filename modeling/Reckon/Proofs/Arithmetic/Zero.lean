import Reckon.Arithmetic
import Reckon.Proofs.Number.Unpacked

namespace Reckon

open Arithmetic

-- What arithmetic makes of zeros. There may be several of them, and values that are not finite:
-- `Finite` are those that a zero annihilates.
structure ZeroLaws {α : Type} [Arithmetic α] (Finite : α → Prop) : Prop where
  isZero_zero : isZero (zero : α) = true
  isZero_one : isZero (one : α) = false
  finite_of_isZero : ∀ {a : α}, isZero a = true → Finite a
  isZero_add : ∀ {a b : α}, isZero a = true → isZero b = true → isZero (a + b) = true
  isZero_sub : ∀ {a b : α}, isZero a = true → isZero b = true → isZero (a - b) = true
  isZero_mul : ∀ {a b : α}, isZero a = true → Finite b → isZero (a * b) = true
  isZero_div : ∀ {a b : α}, isZero a = true → Finite b → isZero b = false →
    isZero (a / b) = true
  not_finite_div : ∀ {a b : α}, Finite a → isZero b = true → ¬Finite (a / b)
  one_sub : ∀ {a : α}, isZero a = true → one - a = one
  sub_zero : ∀ a : α, a - zero = a
  div_one : ∀ a : α, a / one = a

namespace Number

open Float.Model Float.Model.UnpackedFloat

theorem zeroLaws_float : ZeroLaws fun x : Float => x.isFinite = true where
  isZero_zero := rfl
  isZero_one := rfl
  finite_of_isZero := fun h => (isFinite_iff _).mpr (.inl ((beq_zero_iff _).mp h))
  isZero_add := by
    intro x y hx hy
    obtain ⟨s, hs⟩ := (beq_zero_iff x).mp hx
    obtain ⟨t, ht⟩ := (beq_zero_iff y).mp hy
    rw [add_eq_pack, hs, ht]
    exact pack_zero_beq_zero_ite _ _ _
  isZero_sub := by
    intro x y hx hy
    obtain ⟨s, hs⟩ := (beq_zero_iff x).mp hx
    obtain ⟨t, ht⟩ := (beq_zero_iff y).mp hy
    rw [sub_eq_pack, hs, ht]
    exact pack_zero_beq_zero_ite _ _ _
  isZero_mul := by
    intro x y hx hy
    obtain ⟨s, hs⟩ := (beq_zero_iff x).mp hx
    rw [mul_eq_pack, hs]
    rcases (isFinite_iff y).mp hy with ⟨t, ht⟩ | ⟨t, m, e, hm, ht⟩
    · rw [ht]
      exact pack_zero_beq_zero _
    · rw [ht]
      exact pack_zero_beq_zero _
  isZero_div := by
    intro x y hx hy hne
    obtain ⟨s, hs⟩ := (beq_zero_iff x).mp hx
    rw [div_eq_pack, hs]
    rcases (isFinite_iff y).mp hy with hzero | ⟨t, m, e, hm, ht⟩
    · have hy : isZero y = true := (beq_zero_iff y).mpr hzero
      rw [hy] at hne
      cases hne
    · rw [ht]
      exact pack_zero_beq_zero _
  not_finite_div := by
    intro x y hx hy
    obtain ⟨t, ht⟩ := (beq_zero_iff y).mp hy
    rw [div_eq_pack, ht]
    rcases (isFinite_iff x).mp hx with ⟨s, hs⟩ | ⟨s, m, e, hm, hs⟩
    · rw [hs]
      exact not_isFinite_pack_notANumber
    · rw [hs]
      exact not_isFinite_pack_infinity _
  one_sub := by
    intro x hx
    obtain ⟨s, hs⟩ := (beq_zero_iff x).mp hx
    rw [sub_eq_pack, hs]
    cases s <;> rfl
  sub_zero := sub_zero_float
  div_one := div_one_float

end Number

end Reckon
