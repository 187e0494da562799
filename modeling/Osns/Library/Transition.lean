import Mathlib.Data.Nat.Notation

/-! Systems that take one action after the other. -/

namespace Transition

variable {σ α : Type*} {step : σ → α → Option σ}

/-- The state behind a list of actions, if each of them can be taken. -/
def run (step : σ → α → Option σ) : σ → List α → Option σ
  | s, [] => some s
  | s, a :: as => (step s a).bind fun s' => run step s' as

/-- Every action of a run meets `P` in the state where it is taken. -/
def Along (step : σ → α → Option σ) (P : σ → α → Prop) : σ → List α → Prop
  | _, [] => True
  | s, a :: as => P s a ∧ ∀ s', step s a = some s' → Along step P s' as

/-- A run can be checked action by action. -/
instance decidableAlong {P : σ → α → Prop} [∀ s a, Decidable (P s a)] :
    (s : σ) → (as : List α) → Decidable (Along step P s as)
  | _, [] => isTrue True.intro
  | s, a :: as =>
    match h : step s a with
    | none => decidable_of_iff (P s a) (by simp [Along, h])
    | some s' =>
      have := decidableAlong (P := P) s' as
      decidable_of_iff (P s a ∧ Along step P s' as) (by simp [Along, h])

variable {s s' : σ} {as bs : List α} {P Q : σ → α → Prop} {I : σ → Prop}

@[simp] theorem run_nil (s : σ) : run step s [] = some s := rfl

theorem run_cons_eq_some {a : α} :
    run step s (a :: as) = some s' ↔ ∃ s₁, step s a = some s₁ ∧ run step s₁ as = some s' :=
  Option.bind_eq_some_iff

theorem along_of_forall {P : α → Prop} (h : ∀ a ∈ as, P a) (s : σ) :
    Along step (fun _ => P) s as := by
  induction as generalizing s with
  | nil => exact True.intro
  | cons a as ih =>
    rw [List.forall_mem_cons] at h
    exact ⟨h.1, fun s' _ => ih h.2 s'⟩

/-- The actions behind the first ones of a run. -/
theorem Along.drop (h : Along step P s (as ++ bs)) (hrun : run step s as = some s') : Along step P s' bs := by
  induction as generalizing s with
  | nil =>
    cases hrun
    exact h
  | cons a as ih =>
    obtain ⟨s₁, ha, hrun⟩ := run_cons_eq_some.mp hrun
    exact ih (h.2 s₁ ha) hrun

/-- What every action preserves that meets `P`, a whole run preserves. -/
theorem run_invariant (hstep : ∀ s a s', I s → P s a → step s a = some s' → I s') {s s' : σ}
    {as : List α} (hs : I s) (halong : Along step P s as) (hrun : run step s as = some s') : I s' := by
  induction as generalizing s with
  | nil =>
    cases hrun
    exact hs
  | cons a as ih =>
    obtain ⟨s₁, ha, hrun⟩ := run_cons_eq_some.mp hrun
    exact ih (hstep s a s₁ hs halong.1 ha) (halong.2 s₁ ha) hrun

/-- What no action breaks, a whole run preserves. -/
theorem run_preserves (hstep : ∀ s a s', I s → step s a = some s' → I s') (hs : I s)
    (hrun : run step s as = some s') : I s' :=
  run_invariant (fun s a s' hI _ => hstep s a s' hI) hs
    (along_of_forall (fun _ _ => True.intro) s) hrun

/-- Actions that can all be taken where an invariant holds, and keep it, make up a run. -/
theorem run_total {P : α → Prop} (hstep : ∀ s a, I s → P a → ∃ s', step s a = some s' ∧ I s')
    (hs : I s) (has : ∀ a ∈ as, P a) : ∃ s', run step s as = some s' ∧ I s' := by
  induction as generalizing s with
  | nil => exact ⟨s, rfl, hs⟩
  | cons a as ih =>
    rw [List.forall_mem_cons] at has
    obtain ⟨s₁, ha, hs₁⟩ := hstep s a hs has.1
    obtain ⟨s', hrun, hs'⟩ := ih hs₁ has.2
    exact ⟨s', run_cons_eq_some.mpr ⟨s₁, ha, hrun⟩, hs'⟩

/-- An invariant gives a property of every action that meets `P`. -/
theorem along_of_invariant (hstep : ∀ s a s', I s → P s a → step s a = some s' → I s')
    (hQ : ∀ s a, I s → P s a → Q s a) (hs : I s) (halong : Along step P s as) : Along step Q s as := by
  induction as generalizing s with
  | nil => exact True.intro
  | cons a as ih =>
    refine ⟨hQ s a hs halong.1, fun s' ha => ?_⟩
    exact ih (hstep s a s' hs halong.1 ha) (halong.2 s' ha)

/-- What no action breaks holds at every action of a run. -/
theorem along_of_preserves (hstep : ∀ s a s', I s → step s a = some s' → I s')
    (hQ : ∀ s a, I s → Q s a) (hs : I s) : Along step Q s as :=
  along_of_invariant (fun s a s' h _ => hstep s a s' h) (fun s a h _ => hQ s a h) hs
    (along_of_forall (fun _ _ => True.intro) s)

/-- Two properties of an action that agree where an invariant holds agree on whole runs. -/
theorem along_iff_of_invariant (hstep : ∀ s a s', I s → Q s a → step s a = some s' → I s')
    (hiff : ∀ s a, I s → (P s a ↔ Q s a)) (hs : I s) :
    Along step P s as ↔ Along step Q s as := by
  induction as generalizing s with
  | nil => exact Iff.rfl
  | cons a as ih =>
    constructor
    · rintro ⟨ha, hrest⟩
      have hq := (hiff s a hs).mp ha
      exact ⟨hq, fun s' h => (ih (hstep s a s' hs hq h)).mp (hrest s' h)⟩
    · rintro ⟨ha, hrest⟩
      exact ⟨(hiff s a hs).mpr ha, fun s' h => (ih (hstep s a s' hs ha h)).mpr (hrest s' h)⟩

end Transition
