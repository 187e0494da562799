import Mathlib.Data.List.Nodup

/-! Linked lists whose elements have an address, with operations at an address. -/

namespace Linked

open List

variable {α κ : Type*} [DecidableEq κ] (key : α → κ)

/-- The elements in front of an address. -/
def front (k : κ) (l : List α) : List α := l.takeWhile (key · ≠ k)

/-- The elements from an address on. -/
def suffix (k : κ) (l : List α) : List α := l.dropWhile (key · ≠ k)

def insertBefore (k : κ) (a : α) (l : List α) : List α := front key k l ++ a :: suffix key k l

def insertAfter (k : κ) (a : α) (l : List α) : List α :=
  front key k l ++ (suffix key k l).take 1 ++ a :: (suffix key k l).drop 1

/-- The element is taken out; no other one has its address. -/
def remove (k : κ) (l : List α) : List α := l.filter (key · ≠ k)

variable {key} {k : κ} {a x : α} {l l₁ l₂ : List α}

section

variable (hfront : ∀ a ∈ l₁, key a ≠ k) (hx : key x = k)

include hfront hx

theorem front_append_cons :
    front key k (l₁ ++ x :: l₂) = l₁ := by
  have hall : ∀ a ∈ l₁, decide (key a ≠ k) = true := fun a ha => decide_eq_true (hfront a ha)
  rw [front, takeWhile_append_of_pos hall, takeWhile_cons_of_neg (by simp [hx]), append_nil]

theorem suffix_append_cons :
    suffix key k (l₁ ++ x :: l₂) = x :: l₂ := by
  have hall := takeWhile_append_dropWhile (p := (key · ≠ k)) (l := l₁ ++ x :: l₂)
  have hfront := @front_append_cons _ _ _ key k x l₁ l₂ hfront hx
  rw [front] at hfront
  rw [hfront] at hall
  exact append_cancel_left hall

theorem insertBefore_append_cons :
    insertBefore key k a (l₁ ++ x :: l₂) = l₁ ++ a :: x :: l₂ := by
  rw [insertBefore, front_append_cons hfront hx, suffix_append_cons hfront hx]

end

omit [DecidableEq κ] in
/-- The elements of a list with different addresses in front of one of them. -/
theorem ne_of_nodup_append_cons (h : ((l₁ ++ x :: l₂).map key).Nodup) : ∀ a ∈ l₁, key a ≠ key x := by
  intro a ha
  rw [map_append, map_cons, nodup_append] at h
  exact h.2.2 _ (List.mem_map_of_mem ha) _ mem_cons_self

theorem insertBefore_perm : (insertBefore key k a l).Perm (a :: l) := by
  have hall : front key k l ++ suffix key k l = l := takeWhile_append_dropWhile
  have hmiddle : (insertBefore key k a l).Perm (a :: (front key k l ++ suffix key k l)) := perm_middle
  rw [hall] at hmiddle
  exact hmiddle

theorem remove_append : remove key k (l₁ ++ l₂) = remove key k l₁ ++ remove key k l₂ :=
  filter_append ..

theorem remove_of_forall_ne (h : ∀ a ∈ l, key a ≠ k) : remove key k l = l :=
  filter_eq_self.mpr fun a ha => decide_eq_true (h a ha)

theorem mem_remove : a ∈ remove key k l ↔ a ∈ l ∧ key a ≠ k := by
  rw [remove, mem_filter, decide_eq_true_iff]

theorem remove_sublist : (remove key k l).Sublist l := filter_sublist

end Linked
