import Mathlib.Data.List.Basic
import Mathlib.Order.Lattice

/-! Lists of elements with strictly increasing keys, searched from the front. -/

namespace OrderedList

open List

variable {α κ : Type*} [LinearOrder κ] (key : α → κ)

/-- Every element has a smaller key than those behind it. -/
def Increasing (l : List α) : Prop := l.Pairwise (key · < key ·)

/-- What a search for a key ends with: the element with this key, or the place where it would be, before
the first larger element or after the last one. -/
inductive Answer (α : Type*)
  | empty
  | exact (e : α)
  | before (e : α)
  | after (e : α)

def linearSearch (k : κ) : List α → Answer α
  | [] => .empty
  | e :: rest =>
    match cmp (key e) k with
    | .lt => if rest.isEmpty then .after e else linearSearch k rest
    | .eq => .exact e
    | .gt => .before e

variable {key} {k : κ} {e : α} {l front rest : List α}

@[simp] theorem linearSearch_nil : linearSearch key k [] = .empty := rfl

theorem linearSearch_cons : linearSearch key k (e :: rest) = match cmp (key e) k with
    | .lt => if rest.isEmpty then .after e else linearSearch key k rest
    | .eq => .exact e
    | .gt => .before e := rfl

theorem linearSearch_cons_of_lt (h : key e < k) (hrest : rest ≠ []) :
    linearSearch key k (e :: rest) = linearSearch key k rest := by
  have hcmp : cmp (key e) k = .lt := cmp_eq_lt_iff _ _ |>.mpr h
  have hempty : rest.isEmpty = false := by simpa using hrest
  rw [linearSearch_cons, hcmp]
  simp [hempty]

theorem linearSearch_singleton_of_lt (h : key e < k) : linearSearch key k [e] = .after e := by
  have hcmp : cmp (key e) k = .lt := cmp_eq_lt_iff _ _ |>.mpr h
  rw [linearSearch_cons, hcmp]
  rfl

theorem linearSearch_cons_of_eq (h : key e = k) : linearSearch key k (e :: rest) = .exact e := by
  have hcmp : cmp (key e) k = .eq := cmp_eq_eq_iff _ _ |>.mpr h
  rw [linearSearch_cons, hcmp]

theorem linearSearch_cons_of_gt (h : k < key e) : linearSearch key k (e :: rest) = .before e := by
  have hcmp : cmp (key e) k = .gt := cmp_eq_gt_iff _ _ |>.mpr h
  rw [linearSearch_cons, hcmp]

/-- Elements that are too small are passed over, as long as others follow. -/
theorem linearSearch_append (hfront : ∀ x ∈ front, key x < k) (hrest : rest ≠ []) :
    linearSearch key k (front ++ rest) = linearSearch key k rest := by
  induction front with
  | nil => rfl
  | cons e front ih =>
    rw [forall_mem_cons] at hfront
    rw [cons_append, linearSearch_cons_of_lt hfront.1 (by simp [hrest]), ih hfront.2]

/-- The list around the place that a search comes to. -/
theorem linearSearch_cases (key : α → κ) (k : κ) (l : List α) :
    (l = [] ∧ linearSearch key k l = .empty) ∨
      (∃ front e rest, l = front ++ e :: rest ∧ (∀ x ∈ front, key x < k) ∧ key e = k ∧
        linearSearch key k l = .exact e) ∨
      (∃ front e rest, l = front ++ e :: rest ∧ (∀ x ∈ front, key x < k) ∧ k < key e ∧
        linearSearch key k l = .before e) ∨
      ∃ front e, l = front ++ [e] ∧ (∀ x ∈ front, key x < k) ∧ key e < k ∧
        linearSearch key k l = .after e := by
  induction l with
  | nil => exact .inl ⟨rfl, rfl⟩
  | cons e l ih =>
    refine .inr ?_
    rcases lt_trichotomy (key e) k with hlt | heq | hgt
    · by_cases hl : l = []
      · subst hl
        exact .inr (.inr ⟨[], e, rfl, by simp, hlt, linearSearch_singleton_of_lt hlt⟩)
      · rw [linearSearch_cons_of_lt hlt hl]
        rcases ih with ⟨hnil, -⟩ | ⟨front, x, rest, rfl, hfront, hx, hs⟩ |
          ⟨front, x, rest, rfl, hfront, hx, hs⟩ | ⟨front, x, rfl, hfront, hx, hs⟩
        · exact absurd hnil hl
        · exact .inl ⟨e :: front, x, rest, rfl, forall_mem_cons.mpr ⟨hlt, hfront⟩, hx, hs⟩
        · exact .inr (.inl ⟨e :: front, x, rest, rfl, forall_mem_cons.mpr ⟨hlt, hfront⟩, hx, hs⟩)
        · exact .inr (.inr ⟨e :: front, x, rfl, forall_mem_cons.mpr ⟨hlt, hfront⟩, hx, hs⟩)
    · exact .inl ⟨[], e, l, rfl, by simp, heq, linearSearch_cons_of_eq heq⟩
    · exact .inr (.inl ⟨[], e, l, rfl, by simp, hgt, linearSearch_cons_of_gt hgt⟩)

/-! ## Increasing lists -/

theorem Increasing.nodup (h : Increasing key l) : l.Nodup := by
  refine List.Pairwise.imp ?_ h
  intro a b hab heq
  exact lt_irrefl _ (heq ▸ hab)

theorem increasing_append_cons_iff :
    Increasing key (front ++ e :: rest) ↔
      Increasing key front ∧ Increasing key rest ∧ (∀ x ∈ front, key x < key e) ∧
        ∀ y ∈ rest, key e < key y := by
  simp only [Increasing, pairwise_append, pairwise_cons, mem_cons, forall_eq_or_imp]
  constructor
  · rintro ⟨hfront, ⟨hrest, hpair⟩, hcross⟩
    exact ⟨hfront, hpair, fun x hx => (hcross x hx).1, hrest⟩
  · rintro ⟨hfront, hpair, hless, hrest⟩
    exact ⟨hfront, ⟨hrest, hpair⟩, fun x hx => ⟨hless x hx, fun y hy => (hless x hx).trans (hrest y hy)⟩⟩

/-- An element goes between the smaller ones and the larger ones. -/
theorem Increasing.insert (h : Increasing key (front ++ rest)) (hfront : ∀ x ∈ front, key x < key e)
    (hrest : ∀ y ∈ rest, key e < key y) : Increasing key (front ++ e :: rest) := by
  obtain ⟨hf, hr, -⟩ := pairwise_append.mp h
  exact increasing_append_cons_iff.mpr ⟨hf, hr, hfront, hrest⟩

/-- In an increasing list a key belongs to one element at most. -/
theorem Increasing.eq_of_key (h : Increasing key l) {a b : α} (ha : a ∈ l) (hb : b ∈ l)
    (hkey : key a = key b) : a = b := by
  obtain ⟨front, rest, rfl⟩ := append_of_mem ha
  obtain ⟨-, -, hfront, hrest⟩ := increasing_append_cons_iff.mp h
  rcases mem_append.mp hb with hb | hb
  · exact absurd hkey (hfront b hb).ne'
  · rcases mem_cons.mp hb with rfl | hb
    · rfl
    · exact absurd hkey (hrest b hb).ne

theorem Increasing.linearSearch_exact (h : Increasing key l) (hmem : e ∈ l) (hkey : key e = k) :
    linearSearch key k l = .exact e := by
  obtain ⟨front, rest, rfl⟩ := append_of_mem hmem
  have hfront := (increasing_append_cons_iff.mp h).2.2.1
  rw [linearSearch_append (fun x hx => hkey ▸ hfront x hx) (cons_ne_nil _ _),
    linearSearch_cons_of_eq hkey]

/-! ## Going to an element -/

section Walks

variable [DecidableEq α]

theorem takeWhile_ne_append (h : (front ++ e :: rest).Nodup) :
    (front ++ e :: rest).takeWhile (· ≠ e) = front := by
  have hfront : ∀ x ∈ front, decide (x ≠ e) = true := by
    intro x hx
    have hne := (nodup_append.mp h).2.2 x hx e mem_cons_self
    simpa using hne
  rw [takeWhile_append_of_pos hfront, takeWhile_cons_of_neg (by simp), append_nil]

theorem dropWhile_ne_append (h : (front ++ e :: rest).Nodup) :
    (front ++ e :: rest).dropWhile (· ≠ e) = e :: rest := by
  have happend := takeWhile_append_dropWhile (p := (· ≠ e)) (l := front ++ e :: rest)
  rw [takeWhile_ne_append h] at happend
  exact append_cancel_left happend

end Walks

end OrderedList
