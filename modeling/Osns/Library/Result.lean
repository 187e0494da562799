import Mathlib.Data.Nat.Notation

/-! Taking apart sequences of calls that may fail. -/

namespace Result

universe u v

variable {ε : Type u} {α β : Type v}

@[simp] theorem ok_bind (a : α) (f : α → Except ε β) : (Except.ok a >>= f) = f a := rfl

@[simp] theorem error_bind (e : ε) (f : α → Except ε β) :
    ((Except.error e : Except ε α) >>= f) = .error e := rfl

@[simp] theorem pure_eq_ok (a : α) : (pure a : Except ε α) = .ok a := rfl

variable {x : Except ε α} {f : α → Except ε β}

/-- A sequence succeeds exactly when its first call does and the rest succeeds on its result. -/
theorem bind_eq_ok {b : β} : (x >>= f) = .ok b ↔ ∃ a, x = .ok a ∧ f a = .ok b := by
  cases x with
  | error e => simp
  | ok a => simp

@[simp] theorem map_ok (f : α → β) (a : α) : f <$> (Except.ok a : Except ε α) = .ok (f a) := rfl

theorem map_eq_ok {f : α → β} {b : β} : f <$> x = .ok b ↔ ∃ a, x = .ok a ∧ f a = b := by
  cases x with
  | error e => exact ⟨by rintro ⟨⟩, by rintro ⟨a, ⟨⟩, _⟩⟩
  | ok a => simp

theorem bind_congr_ok {g : α → Except ε β} (h : ∀ a, x = .ok a → f a = g a) :
    (x >>= f) = (x >>= g) := by
  cases x with
  | error e => rfl
  | ok a => exact h a rfl

variable {e : ε}

/-- A sequence fails with `e` when its first call does, or the rest does on its result. -/
theorem bind_eq_error : (x >>= f) = .error e ↔ x = .error e ∨ ∃ a, x = .ok a ∧ f a = .error e := by
  cases x with
  | error e => simp
  | ok a => simp

/-- A sequence avoids a failure when its first call and the rest do. -/
theorem bind_ne_error (hx : x ≠ .error e) (hf : ∀ a, x = .ok a → f a ≠ .error e) :
    (x >>= f) ≠ .error e := by
  intro h
  rcases bind_eq_error.mp h with h | ⟨a, ha, h⟩
  · exact hx h
  · exact hf a ha h

/-- The result of a call that does not fail has the property. -/
def Ensures (P : α → Prop) (x : Except ε α) : Prop := ∀ a, x = .ok a → P a

variable {P : α → Prop}

theorem ensures_ok {a : α} (h : P a) : Ensures P (.ok a : Except ε α) := by
  intro a' heq
  cases heq
  exact h

theorem ensures_error : Ensures P (.error e) := by
  intro a heq
  cases heq

theorem ensures_bind {P : β → Prop}
    (h : ∀ a, x = .ok a → Ensures P (f a)) : Ensures P (x >>= f) := by
  intro b hb
  obtain ⟨a, ha, hb⟩ := bind_eq_ok.mp hb
  exact h a ha b hb

theorem ensures_ite {c : Prop} [Decidable c] {y : Except ε α} (hx : c → Ensures P x)
    (hy : ¬ c → Ensures P y) : Ensures P (if c then x else y) := by
  split
  case isTrue h => exact hx h
  case isFalse h => exact hy h

theorem toOption_eq_some {a : α} : x.toOption = some a ↔ x = .ok a := by
  cases x with
  | error | ok => simp [Except.toOption]

end Result
