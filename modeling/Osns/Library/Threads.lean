import Mathlib.Logic.Function.Basic

/-! Threads that run side by side, each with a state of its own. One of them takes a step at a time. -/

namespace Threads

open Function

variable {ι α : Type*}

/-- Every thread that is running. -/
def All (threads : ι → Option α) (P : ι → α → Prop) : Prop := ∀ i a, threads i = some a → P i a

/-- Some thread that is running. -/
def Any (threads : ι → Option α) (P : ι → α → Prop) : Prop := ∃ i a, threads i = some a ∧ P i a

/-- No two threads are there at the same time. -/
def AtMostOne (threads : ι → Option α) (P : α → Prop) : Prop :=
  ∀ i j a b, threads i = some a → threads j = some b → P a → P b → i = j

variable {threads : ι → Option α} {P Q : ι → α → Prop} {R : α → Prop}

theorem all_of_none (h : ∀ i, threads i = none) : All threads P := by
  intro i a hi
  rw [h i] at hi
  cases hi

theorem not_any_of_none (h : ∀ i, threads i = none) : ¬ Any threads P := by
  rintro ⟨i, a, hi, -⟩
  rw [h i] at hi
  cases hi

theorem Any.mono (h : Any threads P) (hPQ : ∀ i a, P i a → Q i a) : Any threads Q := by
  obtain ⟨i, a, hi, hP⟩ := h
  exact ⟨i, a, hi, hPQ i a hP⟩

section Step

variable [DecidableEq ι] {i : ι} {new : Option α}

/-- One thread has taken a step, the others are where they were. -/
theorem all_update (hnew : ∀ a, new = some a → P i a)
    (hother : ∀ j a, j ≠ i → threads j = some a → P j a) : All (update threads i new) P := by
  intro j a hj
  by_cases hji : j = i
  · subst hji
    rw [update_self] at hj
    exact hnew a hj
  · rw [update_of_ne hji] at hj
    exact hother j a hji hj

theorem All.update (h : All threads P) (hnew : ∀ a, new = some a → P i a) :
    All (update threads i new) P :=
  all_update hnew fun j a _ hj => h j a hj

variable {a : α}

theorem all_set (hnew : P i a) (hother : ∀ j b, j ≠ i → threads j = some b → P j b) :
    All (update threads i (some a)) P :=
  all_update (by rintro b ⟨⟩; exact hnew) hother

theorem All.set (h : All threads P) (hnew : P i a) : All (Function.update threads i (some a)) P :=
  all_set hnew fun j b _ hj => h j b hj

theorem any_update_self (hP : P i a) : Any (update threads i (some a)) P :=
  ⟨i, a, update_self .., hP⟩

/-- A thread that meets a property still does so, unless it is the one that has taken a step. -/
theorem Any.update (h : Any threads P)
    (hnew : ∀ a, threads i = some a → P i a → Any (update threads i new) P) :
    Any (update threads i new) P := by
  obtain ⟨j, a, hj, hP⟩ := h
  by_cases hji : j = i
  · subst hji
    exact hnew a hj hP
  · exact ⟨j, a, by rw [update_of_ne hji, hj], hP⟩

/-- A thread may come to where it has been, or where nobody else is. -/
theorem AtMostOne.update (h : AtMostOne threads R)
    (hnew : ∀ a, new = some a → R a →
      (∃ b, threads i = some b ∧ R b) ∨ ∀ j b, j ≠ i → threads j = some b → ¬ R b) :
    AtMostOne (update threads i new) R := by
  have halone : ∀ j a b, j ≠ i → new = some a → threads j = some b → R a → ¬ R b := by
    intro j a b hji ha hj hRa hRb
    rcases hnew a ha hRa with ⟨b', hi, hRb'⟩ | hnone
    · exact hji (h j i b b' hj hi hRb hRb')
    · exact hnone j b hji hj hRb
  intro j k a b hj hk hRa hRb
  by_cases hji : j = i
  · by_cases hki : k = i
    · rw [hji, hki]
    · subst hji
      rw [update_self] at hj
      rw [update_of_ne hki] at hk
      exact absurd hRb (halone k a b hki hj hk hRa)
  · rw [update_of_ne hji] at hj
    by_cases hki : k = i
    · subst hki
      rw [update_self] at hk
      exact absurd hRa (halone j b a hji hk hj hRb)
    · rw [update_of_ne hki] at hk
      exact h j k a b hj hk hRa hRb

end Step

end Threads
