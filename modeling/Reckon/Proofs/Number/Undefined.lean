import Reckon.Proofs.Number.Unpacked

namespace Reckon.Number

open Float.Model Float.Model.UnpackedFloat

variable {x y : Float}

theorem isNaN_iff (x : Float) : x.isNaN = true ↔ x.toModel.unpack = .notANumber := by
  have hnan : x.isNaN = x.toModel.unpack.isNaN := rfl
  rw [hnan]
  cases x.toModel.unpack <;> simp [UnpackedFloat.isNaN]

theorem beq_zero_eq_false_of_isNaN (h : x.isNaN = true) : (x == 0.0) = false := by
  by_contra hzero
  obtain ⟨s, hs⟩ := (beq_zero_iff x).mp (Bool.eq_true_of_not_eq_false hzero)
  rw [(isNaN_iff x).mp h] at hs
  cases hs

theorem not_isFinite_of_isNaN (h : x.isNaN = true) : ¬x.isFinite = true := by
  rw [isFinite_iff, (isNaN_iff x).mp h]
  simp

theorem isNaN_pack_notANumber : (⟨Float.Model.pack .notANumber⟩ : Float).isNaN = true := by
  decide

section Operations

variable {op : UnpackedFloat → UnpackedFloat → UnpackedFloat}

private theorem isNaN_pack (hl : ∀ v, op .notANumber v = .notANumber)
    (hr : ∀ u, op u .notANumber = .notANumber) (h : x.isNaN = true ∨ y.isNaN = true) :
    (⟨Float.Model.pack (op x.toModel.unpack y.toModel.unpack)⟩ : Float).isNaN = true := by
  rcases h with h | h
  · rw [(isNaN_iff x).mp h, hl]
    exact isNaN_pack_notANumber
  · rw [(isNaN_iff y).mp h, hr]
    exact isNaN_pack_notANumber

theorem isNaN_add (h : x.isNaN = true ∨ y.isNaN = true) : (x + y).isNaN = true :=
  isNaN_pack (fun _ => rfl) (fun u => by cases u <;> rfl) h

theorem isNaN_sub (h : x.isNaN = true ∨ y.isNaN = true) : (x - y).isNaN = true :=
  isNaN_pack (fun _ => rfl) (fun u => by cases u <;> rfl) h

theorem isNaN_mul (h : x.isNaN = true ∨ y.isNaN = true) : (x * y).isNaN = true :=
  isNaN_pack (fun _ => rfl) (fun u => by cases u <;> rfl) h

theorem isNaN_div (h : x.isNaN = true ∨ y.isNaN = true) : (x / y).isNaN = true :=
  isNaN_pack (fun _ => rfl) (fun u => by cases u <;> rfl) h

end Operations

-- A zero annihilates finite floats only.
theorem isNaN_mul_of_not_isFinite (hx : (x == 0.0) = true) (hy : ¬y.isFinite = true) :
    (x * y).isNaN = true := by
  obtain ⟨s, hs⟩ := (beq_zero_iff x).mp hx
  rw [isFinite_iff, not_or] at hy
  rw [mul_eq_pack, hs]
  cases hunpack : y.toModel.unpack with
  | infinity t => exact isNaN_pack_notANumber
  | notANumber => exact isNaN_pack_notANumber
  | zero t => exact absurd ⟨t, hunpack⟩ hy.1
  | finite t m e hm => exact absurd ⟨t, m, e, hm, hunpack⟩ hy.2

theorem isNaN_zero_div (hx : (x == 0.0) = true) (hy : (y == 0.0) = true ∨ y.isNaN = true) :
    (x / y).isNaN = true := by
  rcases hy with hy | hy
  · obtain ⟨s, hs⟩ := (beq_zero_iff x).mp hx
    obtain ⟨t, ht⟩ := (beq_zero_iff y).mp hy
    rw [div_eq_pack, hs, ht]
    exact isNaN_pack_notANumber
  · exact isNaN_div (.inr hy)

-- A zero divided by anything else is a zero, by infinities too.
theorem zero_div_beq_zero (hx : (x == 0.0) = true) (hy : ¬((y == 0.0) = true ∨ y.isNaN = true)) :
    (x / y == 0.0) = true := by
  obtain ⟨s, hs⟩ := (beq_zero_iff x).mp hx
  rw [beq_zero_iff, isNaN_iff, not_or] at hy
  rw [div_eq_pack, hs]
  cases hunpack : y.toModel.unpack with
  | infinity t => exact pack_zero_beq_zero _
  | notANumber => exact absurd hunpack hy.2
  | zero t => exact absurd ⟨t, hunpack⟩ hy.1
  | finite t m e hm => exact pack_zero_beq_zero _

end Reckon.Number
