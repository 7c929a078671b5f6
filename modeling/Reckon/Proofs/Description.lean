import Reckon.Formula.Algebra
import Reckon.Proofs.Evaluation
import Reckon.Proofs.Number.Remainder

namespace Reckon

open Number (value? rounds_add rounds_sub rounds_mul)

-- What is asked of an algebra: whole numbers are exact, their remainders have the sign of the
-- divisor, and they are written in decimal.
structure Algebra.Exact {ε : Type} (a : Algebra ε) : Prop where
  add : ∀ m n : ℤ, a.add (a.integer m) (a.integer n) = .ok (a.integer (m + n))
  sub : ∀ m n : ℤ, a.sub (a.integer m) (a.integer n) = .ok (a.integer (m - n))
  mul : ∀ m n : ℤ, a.mul (a.integer m) (a.integer n) = .ok (a.integer (m * n))
  mod : ∀ m n : ℤ, n ≠ 0 →
    a.mod (a.integer m) (a.integer n) = .ok (a.integer (m - n * ⌊(m / n : ℚ)⌋))
  text : ∀ n : ℤ, a.text (a.integer n) = toString n

theorem floor_intCast_div (m n : ℤ) : ⌊(m / n : ℚ)⌋ = m.fdiv n := by
  obtain ⟨k, rfl | rfl⟩ := n.eq_nat_or_neg
  · rw [Int.cast_natCast, Rat.floor_intCast_div_natCast,
      Int.fdiv_eq_ediv_of_nonneg _ (Int.natCast_nonneg k)]
  · have hquotient : (m / (-(k : ℤ) : ℤ) : ℚ) = ((-m : ℤ) : ℚ) / (k : ℕ) := by
      push_cast
      rw [div_neg, neg_div]
    rw [hquotient, Rat.floor_intCast_div_natCast, ← Int.neg_fdiv_neg, neg_neg,
      Int.fdiv_eq_ediv_of_nonneg _ (Int.natCast_nonneg k)]

-- Forms

namespace Formula

namespace Form

variable (m n : ℤ)

theorem add_ofInt : (ofInt m).add (ofInt n) = ofInt (m + n) := by
  change number (.exact (m + n : ℚ)) = number (.exact ((m + n : ℤ) : ℚ))
  rw [Int.cast_add]

theorem mul_ofInt : (ofInt m).mul (ofInt n) = ofInt (m * n) := by
  change number (.exact (m * n : ℚ)) = number (.exact ((m * n : ℤ) : ℚ))
  rw [Int.cast_mul]

theorem neg_ofInt : (ofInt n).neg = ofInt (-n) := by
  have hone : Quantity.ofInt (-1) ≠ .one := by decide
  have hproduct : Quantity.ofInt (-1) * .ofInt n = .ofInt (-n) := by
    change Quantity.exact ((-1 : ℤ) * n : ℚ) = .exact ((-n : ℤ) : ℚ)
    rw [Int.cast_neg, Int.cast_neg, Int.cast_one, neg_one_mul]
  simp only [neg, scale, ofInt, if_neg hone, hproduct]

theorem sub_ofInt : (ofInt m).sub (ofInt n) = ofInt (m - n) := by
  rw [sub, neg_ofInt, add_ofInt, Int.sub_eq_add_neg]

variable {n} in
theorem mod_ofInt (hn : n ≠ 0) :
    (ofInt m).mod (ofInt n) = .ok (ofInt (m - n * ⌊(m / n : ℚ)⌋)) := by
  have hn' : (n : ℚ) ≠ 0 := by exact_mod_cast hn
  have hremainder : Quantity.remainder m n = ((m - n * ⌊(m / n : ℚ)⌋ : ℤ) : ℚ) := by
    push_cast
    rfl
  have hzero : (Quantity.ofInt n).isZero = false := by simpa [Quantity.ofInt, Quantity.isZero]
  simp only [ofInt, mod, hzero, Bool.false_eq_true, if_false]
  simp only [Quantity.ofInt, rem, if_neg hn', ofRat, hremainder]

theorem text_ofInt : (ofInt n).text = toString n := by
  have hwhole : (n : ℚ).den = 1 := Rat.den_intCast n
  simp only [ofInt, Quantity.ofInt, text, Quantity.text, hwhole, if_true, Rat.num_intCast]

end Form

theorem algebra_exact : algebra.Exact where
  add m n := congrArg Except.ok (Form.add_ofInt m n)
  sub m n := congrArg Except.ok (Form.sub_ofInt m n)
  mul m n := congrArg Except.ok (Form.mul_ofInt m n)
  mod m _ hn := Form.mod_ofInt m hn
  text := Form.text_ofInt

end Formula

theorem Number.whole?_of_value {x : Float} {n : ℤ} (h : value? x = some (n : ℚ)) :
    whole? x = some n := by
  have hfloor : (exact x).floor = .ok n := by rw [floor_exact, h, Option.map_some, Int.floor_intCast]
  rw [whole?, hfloor, ceil_exact h, Int.ceil_intCast]
  exact if_pos rfl

namespace Operand

theorem withCarets_of_not_mem {cs : List Char} (h : '*' ∉ cs) : withCarets cs = cs := by
  induction cs with
  | nil => rfl
  | cons c cs ih =>
    obtain ⟨hc, hcs⟩ := not_or.mp (mt List.mem_cons.mpr h)
    rw [withCarets, ih hcs]
    rintro cs rfl
    exact absurd rfl hc

-- The text of a whole number has no stars.
theorem withCarets_toString (n : ℤ) : withCarets (toString n).toList = (toString n).toList := by
  have hdigits : ∀ k : ℕ, '*' ∉ k.repr.toList := by
    intro k hmem
    rw [Nat.repr, String.toList_ofList] at hmem
    exact absurd (Nat.isDigit_of_mem_toDigits (by decide) (by decide) hmem) (by decide)
  apply withCarets_of_not_mem
  rw [Int.toString_eq_repr, Int.repr_eq_if]
  split_ifs
  · exact hdigits _
  · simpa using hdigits _

end Operand

-- A reading of remainders: which number is left of two others, if any is.
def Reading := ℤ → ℤ → ℤ → Prop

namespace Reading

-- With the sign of the divisor.
def floored : Reading := fun m n k => n ≠ 0 ∧ k = m.fmod n

-- With the sign of the dividend.
def truncated : Reading := fun m n k => n ≠ 0 ∧ k = m.tmod n

-- Where both are the same.
def shared : Reading := fun m n k => floored m n k ∧ truncated m n k

-- With the same sign, and where nothing is left, both are the same; otherwise they are one divisor
-- apart.

theorem fmod_eq_tmod_iff {m n : ℤ} : m.fmod n = m.tmod n ↔ n ∣ m ∨ 0 ≤ m * n := by
  rw [Int.fmod_eq_tmod]
  by_cases hdvd : n ∣ m
  · simp [hdvd]
  · have hm : m ≠ 0 := fun h => hdvd (h ▸ dvd_zero n)
    simp only [hdvd, if_false, false_or, mul_nonneg_iff]
    split_ifs <;> omega

theorem fmod_eq_tmod_add {m n : ℤ} (h : ¬(n ∣ m ∨ 0 ≤ m * n)) : m.fmod n = m.tmod n + n := by
  obtain ⟨hdvd, hsigns⟩ := not_or.mp h
  rw [not_le, mul_neg_iff] at hsigns
  rw [Int.fmod_eq_tmod, if_neg hdvd]
  split_ifs <;> omega

theorem floored_unique (m n k k' : ℤ) (h : floored m n k) (h' : floored m n k') : k = k' :=
  h.2.trans h'.2.symm

theorem truncated_unique (m n k k' : ℤ) (h : truncated m n k) (h' : truncated m n k') : k = k' :=
  h.2.trans h'.2.symm

theorem shared_iff {m n k : ℤ} : shared m n k ↔ truncated m n k ∧ (n ∣ m ∨ 0 ≤ m * n) := by
  rw [← fmod_eq_tmod_iff]
  constructor
  · rintro ⟨⟨hn, rfl⟩, -, h⟩
    exact ⟨⟨hn, h⟩, h⟩
  · rintro ⟨⟨hn, rfl⟩, h⟩
    exact ⟨⟨hn, h.symm⟩, hn, rfl⟩

end Reading

namespace Operation

-- What an operation does to whole numbers.
def Yields (reading : Reading) : Operation → Reading
  | add => fun m n k => k = m + n
  | sub => fun m n k => k = m - n
  | mul => fun m n k => k = m * n
  | rem => reading
  | div | pow => fun _ _ _ => False

variable {reading reading' : Reading} {o : Operation} {m n k k' : ℤ}

theorem Yields.mono (hmono : ∀ m n k, reading m n k → reading' m n k)
    (h : o.Yields reading m n k) : o.Yields reading' m n k := by
  cases o with
  | rem => exact hmono _ _ _ h
  | _ => exact h

theorem Yields.unique (hunique : ∀ m n k k', reading m n k → reading m n k' → k = k')
    (h : o.Yields reading m n k) (h' : o.Yields reading m n k') : k = k' := by
  cases o with
  | rem => exact hunique _ _ _ _ h h'
  | add | sub | mul => exact Eq.trans h (Eq.symm h')
  | div | pow => exact h.elim

open Reading (floored truncated)

theorem Yields.combine {ε : Type} {a : Algebra ε} (ha : a.Exact) (h : o.Yields floored m n k) :
    a.combine o (a.integer m) (a.integer n) = .ok (a.integer k) := by
  cases o with
  | add =>
    obtain rfl : k = m + n := h
    exact ha.add m n
  | sub =>
    obtain rfl : k = m - n := h
    exact ha.sub m n
  | mul =>
    obtain rfl : k = m * n := h
    exact ha.mul m n
  | rem =>
    obtain ⟨hn, rfl⟩ : n ≠ 0 ∧ k = m.fmod n := h
    rw [Int.fmod_def, ← floor_intCast_div]
    exact ha.mod m n hn
  | div | pow => exact h.elim

-- Up to 53 bits nothing is rounded.
theorem Yields.value {x y : Float} (hx : value? x = some (m : ℚ)) (hy : value? y = some (n : ℚ))
    (h : o.Yields truncated m n k) (hk : |k| < 2 ^ 53) :
    value? (o.apply x y) = some (k : ℚ) := by
  cases o with
  | add =>
    obtain rfl : k = m + n := h
    exact Number.Rounds.value_eq_intCast (by exact_mod_cast rounds_add hx hy) hk.le
  | sub =>
    obtain rfl : k = m - n := h
    exact Number.Rounds.value_eq_intCast (by exact_mod_cast rounds_sub hx hy) hk.le
  | mul =>
    obtain rfl : k = m * n := h
    exact Number.Rounds.value_eq_intCast (by exact_mod_cast rounds_mul hx hy) hk.le
  | rem =>
    obtain ⟨hn, rfl⟩ : n ≠ 0 ∧ k = m.tmod n := h
    exact Number.value?_remainder hx hy hn
  | div | pow => exact h.elim

end Operation

namespace Operand

open Reading (floored truncated shared)

-- The whole number that an operand comes to, with none on the way as large as `limit`.
inductive Comes (reading : Reading) (limit : ℤ) : Operand Float → ℤ → Prop
  | number {x : Float} {n : ℤ} : value? x = some (n : ℚ) → |n| < limit →
      Comes reading limit (.number x) n
  | term {o : Operation} {l r : Operand Float} {m n k : ℤ} : Comes reading limit l m →
      Comes reading limit r n → o.Yields reading m n k → |k| < limit →
      Comes reading limit (.term o l r) k

namespace Comes

variable {reading reading' : Reading} {limit limit' : ℤ} {t : Operand Float} {n k : ℤ}

theorem mono (hmono : ∀ m n k, reading m n k → reading' m n k) (h : t.Comes reading limit n) :
    t.Comes reading' limit n := by
  induction h with
  | number hx hn => exact .number hx hn
  | term _ _ ho hk ihl ihr => exact .term ihl ihr (ho.mono hmono) hk

theorem unique (hunique : ∀ m n k k', reading m n k → reading m n k' → k = k')
    (h : t.Comes reading limit n) (h' : t.Comes reading limit' k) : n = k := by
  induction h generalizing k with
  | number hx _ =>
    cases h' with
    | number hx' _ => exact_mod_cast Option.some_inj.mp (hx.symm.trans hx')
  | term _ _ ho _ ihl ihr =>
    cases h' with
    | term hl hr ho' _ =>
      obtain rfl := ihl hl
      obtain rfl := ihr hr
      exact ho.unique hunique ho'

section Display

variable {ε : Type} {a : Algebra ε} (ha : a.Exact)
include ha

theorem expression (h : t.Comes floored limit n) : t.expression a = .ok (a.integer n) := by
  induction h with
  | number hx _ => rw [Operand.expression, Algebra.number, Number.whole?_of_value hx]
  | term _ _ ho _ ihl ihr =>
    rw [Operand.expression, ihl, ihr]
    exact ho.combine ha

theorem description (h : t.Comes floored limit n) : t.description a = .ok (toString n) := by
  rw [Operand.description, h.expression ha, ok_bind, ha.text, withCarets_toString,
    String.ofList_toList]
  rfl

end Display

theorem evaluate (store : Store Float) (depth : Nat) (scope : Scope Float)
    (h : t.Comes truncated (2 ^ 53) n) :
    ∃ x, Evaluation.evaluate store depth scope t = .ok x ∧ value? x = some (n : ℚ) := by
  induction h with
  | @number x n hx _ => exact ⟨x, Evaluation.evaluate_number .., hx⟩
  | @term o l r m n k _ _ ho hk ihl ihr =>
    obtain ⟨x, hl, hx⟩ := ihl
    obtain ⟨y, hr, hy⟩ := ihr
    exact ⟨o.apply x y, Evaluation.evaluate_term_of_ok store depth scope o hl hr, ho.value hx hy hk⟩

end Comes

-- Sums, differences and products are displayed as they are evaluated, and so is an operand in each
-- of whose remainders the divisor has the sign of the dividend or divides it. A remainder by itself
-- is displayed right in no other case.
theorem description_agrees {ε : Type} {a : Algebra ε} (ha : a.Exact) (store : Store Float)
    (depth : Nat) (scope : Scope Float) {t : Operand Float} {limit shown value : ℤ}
    (hshown : t.Comes floored limit shown) (hvalue : t.Comes truncated (2 ^ 53) value) :
    t.expression a = .ok (a.integer shown) ∧ t.description a = .ok (toString shown) ∧
    (∃ x, Evaluation.evaluate store depth scope t = .ok x ∧ value? x = some (value : ℚ)) ∧
    (t.Comes shared (2 ^ 53) value → shown = value) ∧
    ∀ l r m n, t = .term .rem l r → l.Comes shared (2 ^ 53) m → r.Comes shared (2 ^ 53) n →
      (shown = value ↔ n ∣ m ∨ 0 ≤ m * n) ∧ (¬(n ∣ m ∨ 0 ≤ m * n) → shown = value + n) := by
  have hfloored : ∀ {t : Operand Float} {k}, t.Comes shared (2 ^ 53) k →
      t.Comes floored (2 ^ 53) k := fun h => h.mono fun _ _ _ => And.left
  have htruncated : ∀ {t : Operand Float} {k}, t.Comes shared (2 ^ 53) k →
      t.Comes truncated (2 ^ 53) k := fun h => h.mono fun _ _ _ => And.right
  refine ⟨hshown.expression ha, hshown.description ha, hvalue.evaluate store depth scope,
    fun h => hshown.unique Reading.floored_unique (hfloored h), ?_⟩
  rintro l r m n rfl hl hr
  cases hshown with
  | @term _ _ _ m' n' _ hl' hr' ho' _ =>
    cases hvalue with
    | @term _ _ _ m'' n'' _ hl'' hr'' ho'' _ =>
      obtain rfl := hl'.unique Reading.floored_unique (hfloored hl)
      obtain rfl := hr'.unique Reading.floored_unique (hfloored hr)
      obtain rfl := hl''.unique Reading.truncated_unique (htruncated hl)
      obtain rfl := hr''.unique Reading.truncated_unique (htruncated hr)
      obtain ⟨-, rfl⟩ := ho'
      obtain ⟨-, rfl⟩ := ho''
      exact ⟨Reading.fmod_eq_tmod_iff, Reading.fmod_eq_tmod_add⟩

-- A remainder of numbers with the same sign inside of a difference that has the other one.
theorem description_agrees_difference :
    let t : Operand Float := .term .sub (.term .rem (.number 7.0) (.number 4.0)) (.number 10.0)
    t.description Formula.algebra = .ok "-7" ∧
      ∃ x, Evaluation.evaluate .empty 0 (.ofRoot 0) t = .ok x ∧ value? x = some (-7) := by
  intro t
  have hseven : value? 7.0 = some ((7 : ℤ) : ℚ) := by decide +kernel
  have hfour : value? 4.0 = some ((4 : ℤ) : ℚ) := by decide +kernel
  have hten : value? 10.0 = some ((10 : ℤ) : ℚ) := by decide +kernel
  have hrem : Reading.shared 7 4 3 :=
    Reading.shared_iff.mpr ⟨⟨by decide, by decide⟩, .inr (by decide)⟩
  have ht : t.Comes shared (2 ^ 53) (-7) :=
    .term (.term (.number hseven (by decide)) (.number hfour (by decide)) hrem (by decide))
      (.number hten (by decide)) rfl (by decide)
  have hshown : t.Comes floored (2 ^ 53) (-7) := ht.mono fun _ _ _ => And.left
  have hvalue : t.Comes truncated (2 ^ 53) (-7) := ht.mono fun _ _ _ => And.right
  obtain ⟨-, htext, hx, -⟩ :=
    description_agrees Formula.algebra_exact .empty 0 (.ofRoot 0) hshown hvalue
  exact ⟨htext, by exact_mod_cast hx⟩

-- Numbers with different signs, of which one does not divide the other.
theorem remainder_displayed_otherwise :
    let t : Operand Float := .term .rem (.number (-7.0)) (.number 4.0)
    t.description Formula.algebra = .ok "1" ∧
      Evaluation.evaluate .empty 0 (.ofRoot 0) t = .ok (-3.0) := by
  intro t
  have hseven : value? (-7.0) = some ((-7 : ℤ) : ℚ) := by decide +kernel
  have hfour : value? 4.0 = some ((4 : ℤ) : ℚ) := by decide +kernel
  have hshown : t.Comes floored 8 1 :=
    .term (.number hseven (by decide)) (.number hfour (by decide)) ⟨by decide, by decide⟩
      (by decide)
  exact ⟨hshown.description Formula.algebra_exact, by decide +kernel⟩

end Operand

end Reckon
