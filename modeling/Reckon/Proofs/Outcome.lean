import Mathlib

namespace Reckon

variable {ε β γ : Type}

@[simp] theorem ok_bind (b : β) (f : β → Except ε γ) : (Except.ok b >>= f) = f b := rfl

@[simp] theorem error_bind (e : ε) (f : β → Except ε γ) : (Except.error e >>= f) = .error e := rfl

@[simp] theorem bind_ok (x : Except ε β) : (x >>= Except.ok) = x := by
  cases x <;> rfl

theorem bind_eq_ok {x : Except ε β} {f : β → Except ε γ} {c : γ} :
    (x >>= f) = .ok c ↔ ∃ b, x = .ok b ∧ f b = .ok c := by
  cases x <;> simp

theorem bind_eq_error {x : Except ε β} {f : β → Except ε γ} {e : ε} :
    (x >>= f) = .error e ↔ x = .error e ∨ ∃ b, x = .ok b ∧ f b = .error e := by
  cases x <;> simp

theorem mapError_eq_ok {δ : Type} {f : ε → δ} {x : Except ε β} {b : β} :
    x.mapError f = .ok b ↔ x = .ok b := by
  cases x <;> simp [Except.mapError]

theorem toOption_eq_some {x : Except ε β} {b : β} : x.toOption = some b ↔ x = .ok b := by
  cases x <;> simp [Except.toOption]

theorem ite_eq_ok {c : Prop} [Decidable c] {b b' : β} {e : ε} :
    (if c then Except.ok b else .error e) = .ok b' ↔ c ∧ b = b' := by
  by_cases hc : c <;> simp [hc]

-- Two computations that both end in related values or both in the same error.
inductive SameOutcome {β γ : Type} (R : β → γ → Prop) : Except ε β → Except ε γ → Prop where
  | ok {b : β} {c : γ} (h : R b c) : SameOutcome R (.ok b) (.ok c)
  | error (e : ε) : SameOutcome R (.error e) (.error e)

theorem SameOutcome.bind {β γ β' γ' : Type} {R : β → γ → Prop} {R' : β' → γ' → Prop}
    {x : Except ε β} {y : Except ε γ} {f : β → Except ε β'} {g : γ → Except ε γ'}
    (h : SameOutcome R x y) (hf : ∀ b c, R b c → SameOutcome R' (f b) (g c)) :
    SameOutcome R' (x >>= f) (y >>= g) := by
  cases h with
  | ok hbc => exact hf _ _ hbc
  | error e => exact .error e

theorem mapM_cons_eq_ok {α β : Type} {f : α → Except ε β} {a : α} {l : List α} {bs : List β} :
    (a :: l).mapM f = .ok bs ↔ ∃ b bs', f a = .ok b ∧ l.mapM f = .ok bs' ∧ bs = b :: bs' := by
  simp [List.mapM_cons, bind_eq_ok, pure, Except.pure, eq_comm (a := bs)]

theorem mapM_of_option {α β : Type} {f : α → Except ε β} {g : α → Option β}
    (h : ∀ a b, f a = .ok b ↔ g a = some b) {l : List α} {bs : List β}
    (hl : l.mapM f = .ok bs) : bs = l.filterMap g := by
  induction l generalizing bs with
  | nil =>
    obtain rfl := Except.ok.inj hl
    rfl
  | cons a l ih =>
    obtain ⟨b, bs, hb, hbs, rfl⟩ := mapM_cons_eq_ok.mp hl
    rw [List.filterMap_cons, (h a b).mp hb, ih hbs]

theorem exists_mapM {α β : Type} {f : α → Except ε β} {l : List α}
    (h : ∀ a ∈ l, ∃ b, f a = .ok b) : ∃ bs, l.mapM f = .ok bs := by
  induction l with
  | nil => exact ⟨[], rfl⟩
  | cons a l ih =>
    obtain ⟨⟨b, hb⟩, hl⟩ := List.forall_mem_cons.mp h
    obtain ⟨bs, hbs⟩ := ih hl
    exact ⟨b :: bs, by rw [List.mapM_cons, hb, hbs]; rfl⟩

theorem exists_of_mem_mapM {α β : Type} {f : α → Except ε β} {l : List α} {bs : List β} {b : β}
    (hl : l.mapM f = .ok bs) (hb : b ∈ bs) : ∃ a ∈ l, f a = .ok b := by
  induction l generalizing bs with
  | nil =>
    obtain rfl := Except.ok.inj hl
    cases hb
  | cons a l ih =>
    obtain ⟨b', bs, hb', hbs, rfl⟩ := mapM_cons_eq_ok.mp hl
    rcases List.mem_cons.mp hb with rfl | hb
    · exact ⟨a, List.mem_cons_self .., hb'⟩
    · obtain ⟨a', ha', h⟩ := ih hbs hb
      exact ⟨a', List.mem_cons_of_mem _ ha', h⟩

theorem exists_of_mapM_eq_error {α β : Type} {f : α → Except ε β} {l : List α} {e : ε}
    (hl : l.mapM f = .error e) : ∃ a ∈ l, f a = .error e := by
  induction l with
  | nil => cases hl
  | cons a l ih =>
    rw [List.mapM_cons] at hl
    rcases bind_eq_error.mp hl with ha | ⟨b, -, hl⟩
    · exact ⟨a, List.mem_cons_self .., ha⟩
    · rcases bind_eq_error.mp hl with hl | ⟨bs, -, hl⟩
      · obtain ⟨a', ha', h⟩ := ih hl
        exact ⟨a', List.mem_cons_of_mem _ ha', h⟩
      · cases hl

theorem getElem?_of_mapM {α β : Type} {f : α → Except ε β} {l : List α} {bs : List β}
    (hl : l.mapM f = .ok bs) {i : Nat} {a : α} (ha : l[i]? = some a) :
    ∃ b, f a = .ok b ∧ bs[i]? = some b := by
  induction l generalizing bs i with
  | nil => simp at ha
  | cons a' l ih =>
    obtain ⟨b, bs, hb, hbs, rfl⟩ := mapM_cons_eq_ok.mp hl
    cases i with
    | zero =>
      obtain rfl : a' = a := by simpa using ha
      exact ⟨b, hb, rfl⟩
    | succ i => exact ih hbs ha

-- What becomes of an outcome where more is allowed: it is the same, unless it was `cut` off.
def Prolongs (cut : ε) (r r' : Except ε β) : Prop := r = .error cut ∨ r' = r

namespace Prolongs

variable {cut : ε}

theorem refl (r : Except ε β) : Prolongs cut r r := .inr rfl

theorem bind {r r' : Except ε β} {f f' : β → Except ε γ} (h : Prolongs cut r r')
    (hf : ∀ b, Prolongs cut (f b) (f' b)) : Prolongs cut (r >>= f) (r' >>= f') := by
  rcases h with rfl | rfl
  · exact .inl rfl
  · cases r' with
    | error e => exact refl _
    | ok b => exact hf b

theorem mapError {δ : Type} {r r' : Except ε β} (h : Prolongs cut r r') (g : ε → δ) :
    Prolongs (g cut) (r.mapError g) (r'.mapError g) := by
  rcases h with rfl | rfl
  · exact .inl rfl
  · exact refl _

theorem mapM {α : Type} {f f' : α → Except ε β} (h : ∀ a, Prolongs cut (f a) (f' a))
    (l : List α) : Prolongs cut (l.mapM f) (l.mapM f') := by
  induction l with
  | nil => exact refl _
  | cons a l ih =>
    rw [List.mapM_cons, List.mapM_cons]
    exact (h a).bind fun b => ih.bind fun bs => refl _

end Prolongs

theorem exists_unit {p : Unit → Prop} : (∃ u, p u) ↔ p () :=
  ⟨fun ⟨_, h⟩ => h, fun h => ⟨(), h⟩⟩

end Reckon
