import Mathlib.Data.List.Basic

/-! Codes with a state that goes on from one item to the next. -/

namespace Coding

variable {σ α β : Type*} {encode : σ → α → σ × β} {ok : σ → α → Prop}
  {decode : σ → β → Option (σ × α)} {s s' : σ}

/-- Items with their codes, encoded one after the other from the first state to the last. Each item
has to suit the state that it meets. -/
inductive Encodes (encode : σ → α → σ × β) (ok : σ → α → Prop) : σ → List (α × β) → σ → Prop
  | nil (s : σ) : Encodes encode ok s [] s
  | cons {s s' : σ} {a : α} {l : List (α × β)} (ha : ok s a)
      (hl : Encodes encode ok (encode s a).1 l s') :
      Encodes encode ok s ((a, (encode s a).2) :: l) s'

variable {l : List (α × β)}

theorem Encodes.concat (h : Encodes encode ok s l s') {a : α} (ha : ok s' a) :
    Encodes encode ok s (l ++ [(a, (encode s' a).2)]) (encode s' a).1 := by
  induction h with
  | nil s => exact .cons ha (.nil _)
  | cons hb _ ih => exact .cons hb (ih ha)

theorem Encodes.of_append {l' : List (α × β)} (h : Encodes encode ok s (l ++ l') s') :
    ∃ s₁, Encodes encode ok s l s₁ := by
  induction l generalizing s with
  | nil => exact ⟨s, .nil s⟩
  | cons a l ih =>
    cases h with
    | cons ha hl =>
      obtain ⟨s₁, hl⟩ := ih hl
      exact ⟨s₁, .cons ha hl⟩

/-- The decoder goes through the codes with a state of its own. -/
def decodeAll (decode : σ → β → Option (σ × α)) : σ → List β → Option (List α)
  | _, [] => some []
  | s, b :: bs => (decode s b).bind fun r => (decodeAll decode r.1 bs).map (r.2 :: ·)

/-- A decoder that undoes every single item from the same state undoes them all. -/
theorem Encodes.decodeAll (h : Encodes encode ok s l s')
    (hdecode : ∀ s a, ok s a → decode s (encode s a).2 = some ((encode s a).1, a)) :
    decodeAll decode s (l.map Prod.snd) = some (l.map Prod.fst) := by
  induction h with
  | nil s => rfl
  | cons ha _ ih =>
    rw [List.map_cons, Coding.decodeAll, hdecode _ _ ha, Option.bind_some, ih]
    rfl

end Coding
