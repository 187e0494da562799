import Mathlib.Data.List.Infix

/-! Glob patterns and the texts they match. -/

/-- A character for itself, one character, or any text. -/
inductive Glob.Token (α : Type*)
  | char (a : α)
  | one
  | any

namespace Glob

open List

variable {α : Type*}

/-- The whole text is matched. -/
def Matches : List (Token α) → List α → Prop
  | [], text => text = []
  | .char a :: pattern, text => ∃ rest, text = a :: rest ∧ Matches pattern rest
  | .one :: pattern, text => ∃ a rest, text = a :: rest ∧ Matches pattern rest
  | .any :: pattern, text => ∃ rest, rest <:+ text ∧ Matches pattern rest

variable {pattern : List (Token α)} {text : List α}

@[simp] theorem matches_nil : Matches [] text ↔ text = [] := Iff.rfl

variable {a b : α}

@[simp] theorem matches_char_cons :
    Matches (.char a :: pattern) (b :: text) ↔ a = b ∧ Matches pattern text := by
  simp [Matches, eq_comm]

@[simp] theorem not_matches_char_nil : ¬ Matches (.char a :: pattern) [] := by
  simp [Matches]

@[simp] theorem matches_one_cons :
    Matches (.one :: pattern) (b :: text) ↔ Matches pattern text := by
  simp [Matches]

@[simp] theorem not_matches_one_nil : ¬ Matches (.one :: pattern) ([] : List α) := by
  simp [Matches]

theorem matches_any : Matches (.any :: pattern) text ↔ ∃ rest, rest <:+ text ∧ Matches pattern rest :=
  Iff.rfl

instance decidableMatches [DecidableEq α] : (pattern : List (Token α)) → (text : List α) →
    Decidable (Matches pattern text)
  | [], text => decidable_of_iff (text = []) Iff.rfl
  | .char _ :: _, [] => isFalse not_matches_char_nil
  | .char a :: pattern, b :: text =>
    have := decidableMatches pattern text
    decidable_of_iff (a = b ∧ Matches pattern text) matches_char_cons.symm
  | .one :: _, [] => isFalse not_matches_one_nil
  | .one :: pattern, _ :: text =>
    have := decidableMatches pattern text
    decidable_of_iff (Matches pattern text) matches_one_cons.symm
  | .any :: pattern, text =>
    have := decidableMatches pattern
    decidable_of_iff (∃ rest ∈ text.tails, Matches pattern rest) (by simp [Matches])

variable {chars : List α}

/-- Text for itself in front of a pattern. -/
theorem matches_chars_append :
    Matches (chars.map .char ++ pattern) text ↔
      chars <+: text ∧ Matches pattern (text.drop chars.length) := by
  induction chars generalizing text with
  | nil => simp
  | cons a chars ih =>
    cases text with
    | nil => simp
    | cons b text => simp [ih, cons_prefix_cons, and_assoc]

theorem matches_chars : Matches (chars.map .char) text ↔ text = chars := by
  have h : Matches (chars.map .char ++ []) text ↔
      chars <+: text ∧ Matches [] (text.drop chars.length) := matches_chars_append
  rw [append_nil] at h
  rw [h, matches_nil, drop_eq_nil_iff]
  constructor
  · rintro ⟨hstarts, hlength⟩
    exact (hstarts.eq_of_length (Nat.le_antisymm hstarts.length_le hlength)).symm
  · rintro rfl
    exact ⟨prefix_rfl, Nat.le_refl _⟩

/-- More text in front does not harm a pattern that starts with any text. -/
theorem matches_any_of_suffix {rest : List α} (h : Matches (.any :: pattern) rest)
    (hrest : rest <:+ text) : Matches (.any :: pattern) text := by
  obtain ⟨last, hlast, hmatches⟩ := h
  exact ⟨last, hlast.trans hrest, hmatches⟩

theorem matches_any_any :
    Matches (.any :: .any :: pattern) text ↔ Matches (.any :: pattern) text := by
  constructor
  · rintro ⟨rest, hrest, hmatches⟩
    exact matches_any_of_suffix hmatches hrest
  · intro h
    exact ⟨text, suffix_rfl, h⟩

theorem matches_replicate_any (n : ℕ) :
    Matches (.any :: (replicate n .any ++ pattern)) text ↔ Matches (.any :: pattern) text := by
  induction n with
  | zero => rfl
  | succ n ih => rw [replicate_succ, cons_append, matches_any_any, ih]

/-- Without text only a pattern of any texts is left. -/
theorem matches_nil_text : Matches pattern ([] : List α) ↔ ∀ token ∈ pattern, token = .any := by
  induction pattern with
  | nil => simp
  | cons token pattern ih =>
    cases token with
    | char a => simp
    | one => simp
    | any => simp [matches_any, ih]

/-- The text behind any text occurs somewhere. -/
theorem matches_any_chars_append :
    Matches (.any :: (chars.map .char ++ pattern)) text ↔
      ∃ before after, text = before ++ chars ++ after ∧ Matches pattern after := by
  constructor
  · rintro ⟨rest, ⟨before, rfl⟩, hmatches⟩
    obtain ⟨⟨after, rfl⟩, hafter⟩ := matches_chars_append.mp hmatches
    rw [drop_left] at hafter
    exact ⟨before, after, (append_assoc ..).symm, hafter⟩
  · rintro ⟨before, after, rfl, hafter⟩
    refine ⟨chars ++ after, ⟨before, (append_assoc ..).symm⟩, ?_⟩
    rw [matches_chars_append, drop_left]
    exact ⟨prefix_append _ _, hafter⟩

end Glob
