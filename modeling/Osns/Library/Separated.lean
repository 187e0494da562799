import Mathlib.Data.List.Infix

/-! Lists of fields between separators, and searching them for a whole field. -/

namespace Separated

open List

variable {α : Type*}

/-- The fields with a separator in front, between them and at the end. -/
def fence (sep : α) : List (List α) → List α
  | [] => [sep]
  | field :: fields => sep :: (field ++ fence sep fields)

/-- The fields with separators only between them. -/
def join (sep : α) : List (List α) → List α
  | [] => []
  | [field] => field
  | field :: fields => field ++ sep :: join sep fields

variable {fields : List (List α)}

theorem fence_eq_join (sep : α) (h : fields ≠ []) :
    fence sep fields = [sep] ++ join sep fields ++ [sep] := by
  induction fields with
  | nil => exact absurd rfl h
  | cons field fields ih =>
    cases fields with
    | nil => simp [fence, join]
    | cons next rest =>
      rw [fence, ih (cons_ne_nil _ _)]
      simp [join]

theorem fence_eq_cons (sep : α) (fields : List (List α)) :
    ∃ rest, fence sep fields = sep :: rest := by
  cases fields with
  | nil => exact ⟨[], rfl⟩
  | cons field fields => exact ⟨_, rfl⟩

theorem length_fence (sep : α) (fields : List (List α)) :
    (fence sep fields).length = fields.flatten.length + fields.length + 1 := by
  induction fields with
  | nil => rfl
  | cons field fields ih =>
    simp only [fence, length_cons, length_append, ih, flatten_cons]
    omega

/-- Splitting a list gives its fields. -/
theorem fence_splitOn [DecidableEq α] (sep : α) (list : List α) :
    fence sep (list.splitOn sep) = [sep] ++ list ++ [sep] ∧
      ∀ field ∈ list.splitOn sep, sep ∉ field := by
  induction list with
  | nil => simp [splitOn, fence]
  | cons b list ih =>
    rw [splitOn, splitOnP_cons_eq_if_modifyHead, ← splitOn]
    obtain ⟨hfence, hfields⟩ := ih
    by_cases hb : b = sep
    · simpa [hb, fence, hfence] using hfields
    · obtain ⟨field, fields, heq⟩ := exists_cons_of_ne_nil (splitOn_ne_nil sep list)
      rw [heq] at hfence hfields ⊢
      have htail : field ++ fence sep fields = list ++ [sep] := by simpa [fence] using hfence
      simpa [hb, Ne.symm hb, fence, htail] using hfields

variable {sep : α}

/-- Between two separators there is exactly one field. -/
theorem prefix_fence_iff {field other rest : List α} (hfield : sep ∉ field) (hother : sep ∉ other) :
    field ++ [sep] <+: other ++ sep :: rest ↔ field = other := by
  induction field generalizing other with
  | nil =>
    cases other with
    | nil => simp
    | cons b other =>
      have hne : sep ≠ b := fun h => hother (h ▸ mem_cons_self)
      simp [cons_prefix_cons, hne]
  | cons a field ih =>
    have hsep : sep ∉ field := fun h => hfield (mem_cons_of_mem _ h)
    cases other with
    | nil =>
      have hne : a ≠ sep := fun h => hfield (h ▸ mem_cons_self)
      simp [cons_prefix_cons, hne]
    | cons b other =>
      have hsep' : sep ∉ other := fun h => hother (mem_cons_of_mem _ h)
      rw [cons_append, cons_append, cons_prefix_cons, ih hsep hsep', List.cons.injEq]

/-- A text that starts with a separator is not found inside a field. -/
theorem infix_skip_iff {field text rest : List α} (hfield : sep ∉ field) :
    sep :: text <:+: field ++ rest ↔ sep :: text <:+: rest := by
  induction field with
  | nil => rfl
  | cons a field ih =>
    have hne : sep ≠ a := fun h => hfield (h ▸ mem_cons_self)
    have hsep : sep ∉ field := fun h => hfield (mem_cons_of_mem _ h)
    rw [cons_append, infix_cons_iff, ih hsep]
    simp [cons_prefix_cons, hne]

/-- A field with its separators is found exactly when it is one of the fields. -/
theorem infix_fence_iff {field : List α} (hfield : sep ∉ field)
    (hfields : ∀ other ∈ fields, sep ∉ other) :
    sep :: (field ++ [sep]) <:+: fence sep fields ↔ field ∈ fields := by
  induction fields with
  | nil =>
    simp only [fence, not_mem_nil, iff_false]
    intro h
    have hlen := h.length_le
    simp at hlen
  | cons other fields ih =>
    have hother := hfields other mem_cons_self
    have hrest : ∀ other ∈ fields, sep ∉ other := fun x hx => hfields x (mem_cons_of_mem _ hx)
    obtain ⟨rest, heq⟩ := fence_eq_cons sep fields
    rw [fence, infix_cons_iff, infix_skip_iff hother, ih hrest, cons_prefix_cons, heq,
      prefix_fence_iff hfield hother, mem_cons]
    simp

end Separated
