import Mathlib.Data.Nat.Notation

/-! Loops that run until their body leaves them. -/

/-- What the body of a loop does: another pass, or the end with a result. -/
inductive Loop.Step (σ ρ : Type*)
  | next (s : σ)
  | done (r : ρ)

namespace Loop

variable {σ ρ : Type*}

/-- At most `fuel` passes. -/
def run (body : σ → Step σ ρ) : ℕ → σ → Option ρ
  | 0, _ => none
  | fuel + 1, s =>
    match body s with
    | .next s' => run body fuel s'
    | .done r => some r

variable {body : σ → Step σ ρ} {fuel : ℕ} {s : σ}

theorem run_next {s' : σ} (h : body s = .next s') :
    run body (fuel + 1) s = run body fuel s' := by rw [run, h]

theorem run_done {r : ρ} (h : body s = .done r) : run body (fuel + 1) s = some r := by rw [run, h]

variable {P : σ → Prop} {Q : ρ → Prop}

/-- What holds of a pass: `P` of the state that it goes on with, or `Q` of the result. -/
def Step.Leads (P : σ → Prop) (Q : ρ → Prop) : Step σ ρ → Prop
  | .next s => P s
  | .done r => Q r

/-- An invariant `P` and a variant that goes down with every pass: the loop ends, and its result
is as the last pass leaves it. -/
theorem run_spec (variant : σ → ℕ)
    (hbody : ∀ s, P s → (body s).Leads (fun s' => P s' ∧ variant s' < variant s) Q) (hs : P s)
    (hfuel : variant s < fuel) : ∃ r, run body fuel s = some r ∧ Q r := by
  induction fuel generalizing s with
  | zero => exact absurd hfuel (Nat.not_lt_zero _)
  | succ fuel ih =>
    have hleads := hbody s hs
    cases hpass : body s with
    | next s' =>
      rw [hpass] at hleads
      obtain ⟨r, hrun, hr⟩ := ih hleads.1 (Nat.lt_of_lt_of_le hleads.2 (Nat.le_of_lt_succ hfuel))
      exact ⟨r, (run_next hpass).trans hrun, hr⟩
    | done r =>
      rw [hpass] at hleads
      exact ⟨r, run_done hpass, hleads⟩

/-- What every pass keeps holds at the end, if there is one. -/
theorem run_invariant (hbody : ∀ s, P s → (body s).Leads P Q) {r : ρ} (hs : P s)
    (hrun : run body fuel s = some r) : Q r := by
  induction fuel generalizing s with
  | zero => cases hrun
  | succ fuel ih =>
    have hleads := hbody s hs
    cases hpass : body s with
    | next s' =>
      rw [hpass] at hleads
      rw [run_next hpass] at hrun
      exact ih hleads hrun
    | done r' =>
      rw [hpass] at hleads
      rw [run_done hpass] at hrun
      cases hrun
      exact hleads

end Loop
