import Osns.Verification.Readers.Reference
import Osns.Verification.Readers.Steps

/-! The handle with which a header is read is the one that the order of the messages asks for: there is
only one decryptor, or they are all alike. -/

namespace Osns

open Function List Option Threads

section Handles

variable {ι σ : Type}

/-- One decryptor for all threads. It goes on behind the message that was taken last. -/
structure Single (c : ReadSetup σ) (s : ReadState ι σ) : Prop where
  holder : AtMostOne s.reader fun pc => pc.holds
  idle : (Any s.reader fun _ pc => pc.holds) → s.idle = []
  few : s.idle.length ≤ 1
  count : 0 < s.count ↔ (Any s.reader fun _ pc => pc.holds) ∨ s.idle ≠ []
  resting : ∀ h ∈ s.idle, c.Alike h (c.nextHandle s.taken)
  free : All s.reader fun _ pc => ∀ h, pc.free = some h → c.Alike h (c.nextHandle s.taken)
  last : All s.reader fun _ pc => ∀ m, pc.unopened = some m → s.taken.getLast? = some m
  fresh : s.count = 0 → s.taken = []

/-- Any number of decryptors that can be interchanged. -/
structure Shared (c : ReadSetup σ) (Good : σ → Prop) (s : ReadState ι σ) : Prop where
  resting : ∀ h ∈ s.idle, Good h
  free : All s.reader fun _ pc => ∀ h, pc.free = some h → Good h
  begun : All s.reader fun _ pc => ∀ m, pc = .announced m →
    ∃ h ticket rd, Good h ∧ c.readHeader h ticket rd = some m
  unopened : All s.reader fun _ pc => ∀ m, pc.unopened = some m →
    ∃ h ticket rd m₀ bytes, Good h ∧ c.readHeader h ticket rd = some m₀ ∧ m = m₀.fill bytes

variable {c : ReadSetup σ} {Good : σ → Prop} {s s' : ReadState ι σ} {i : ι}
  {old : ReaderPc σ} {new : Option (ReaderPc σ)} {a : ReadAction ι}

namespace ReaderPc

variable {pc : ReaderPc σ}

theorem holds_of_free {h : σ} (hfree : pc.free = some h) : pc.holds := by
  cases pc with
  | locking _ | checking _ | passed _ | counted _ | entered _ | refused _ | leaving _ | waiting _ => rfl
  | _ => cases hfree

theorem holds_of_unopened {m : PendingMessage σ} (hm : pc.unopened = some m) : pc.holds := by
  cases pc with
  | taken _ | enabled _ | left _ | unset _ | opening _ => rfl
  | _ => cases hm

end ReaderPc

/-! ## One decryptor -/

theorem Single.not_holds (h : Single c s) (hi : s.reader i = some old) (hold : old.holds) {j : ι}
    {pc : ReaderPc σ} (hji : j ≠ i) (hj : s.reader j = some pc) : ¬ pc.holds :=
  fun hpc => hji (h.holder j i pc old hj hi hpc hold)

variable [DecidableEq ι]

theorem Single.quiet (h : Single c s) (hreader : s'.reader = update s.reader i new)
    (hidle : s'.idle = s.idle) (hcount : s'.count = s.count) (htaken : s'.taken = s.taken)
    (hholds : new.any ReaderPc.holds = (s.reader i).any ReaderPc.holds)
    (hfree : ∀ x, new.bind ReaderPc.free = some x → (s.reader i).bind ReaderPc.free = some x)
    (hunopened : ∀ m, new.bind ReaderPc.unopened = some m →
      (s.reader i).bind ReaderPc.unopened = some m) : Single c s' := by
  have hany : (Any s'.reader fun _ pc => pc.holds) ↔ Any s.reader fun _ pc => pc.holds := by
    constructor
    · rintro ⟨j, pc, hj, hpc⟩
      by_cases hji : j = i
      · subst hji
        rw [hreader, update_self] at hj
        rw [hj, any_some, hpc] at hholds
        obtain ⟨b, hb, hbholds⟩ := (any_eq_true _ _).mp hholds.symm
        exact ⟨j, b, hb, hbholds⟩
      · rw [hreader, update_of_ne hji] at hj
        exact ⟨j, pc, hj, hpc⟩
    · intro hsome
      rw [hreader]
      refine hsome.update fun b hb hbholds => ?_
      rw [hb, any_some, hbholds] at hholds
      obtain ⟨pc, rfl, hpc⟩ := (any_eq_true _ _).mp hholds
      exact any_update_self hpc
  refine ⟨?_, ?_, ?_, ?_, ?_, ?_, ?_, ?_⟩
  · rw [hreader]
    refine h.holder.update fun pc hnew hpc => .inl ?_
    rw [hnew, any_some, hpc] at hholds
    exact (any_eq_true _ _).mp hholds.symm
  · intro hsome
    rw [hidle]
    exact h.idle (hany.mp hsome)
  · rw [hidle]
    exact h.few
  · rw [hcount, hidle, hany]
    exact h.count
  · rw [hidle, htaken]
    exact h.resting
  · rw [hreader, htaken]
    refine h.free.update fun pc hnew x hx => ?_
    obtain ⟨b, hb, hbfree⟩ := bind_eq_some_iff.mp (hfree x (by rw [hnew]; exact hx))
    exact h.free i b hb x hbfree
  · rw [hreader, htaken]
    refine h.last.update fun pc hnew m hm => ?_
    obtain ⟨b, hb, hbm⟩ := bind_eq_some_iff.mp (hunopened m (by rw [hnew]; exact hm))
    exact h.last i b hb m hbm
  · rw [hcount, htaken]
    exact h.fresh

theorem Single.change (hreader : s'.reader = update s.reader i new)
    (hother : ∀ j pc, j ≠ i → s.reader j = some pc → ¬ pc.holds)
    (hidle : new.any ReaderPc.holds → s'.idle = []) (hfew : s'.idle.length ≤ 1) (hcount : 0 < s'.count)
    (hkept : new.any ReaderPc.holds ∨ s'.idle ≠ [])
    (hresting : ∀ h ∈ s'.idle, c.Alike h (c.nextHandle s'.taken))
    (hfree : ∀ h, new.bind ReaderPc.free = some h → c.Alike h (c.nextHandle s'.taken))
    (hlast : ∀ m, new.bind ReaderPc.unopened = some m → s'.taken.getLast? = some m) : Single c s' := by
  have hself : ∀ {j pc}, s'.reader j = some pc → pc.holds → j = i ∧ new = some pc := by
    intro j pc hj hpc
    rw [hreader] at hj
    by_cases hji : j = i
    · subst hji
      rw [update_self] at hj
      exact ⟨rfl, hj⟩
    · rw [update_of_ne hji] at hj
      exact absurd hpc (hother j pc hji hj)
  refine ⟨?_, ?_, hfew, iff_of_true hcount ?_, hresting, ?_, ?_,
    fun hzero => absurd hzero (Nat.ne_of_gt hcount)⟩
  · intro j k pc pc' hj hk hpc hpc'
    rw [(hself hj hpc).1, (hself hk hpc').1]
  · rintro ⟨j, pc, hj, hpc⟩
    refine hidle ?_
    rw [(hself hj hpc).2]
    exact hpc
  · refine hkept.imp_left fun hany => ?_
    obtain ⟨pc, rfl, hpc⟩ := (any_eq_true _ _).mp hany
    rw [hreader]
    exact any_update_self hpc
  · intro j pc hj h hpc
    refine hfree h ?_
    rw [(hself hj (ReaderPc.holds_of_free hpc)).2]
    exact hpc
  · intro j pc hj m hpc
    refine hlast m ?_
    rw [(hself hj (ReaderPc.holds_of_unopened hpc)).2]
    exact hpc

theorem eraseIdx_eq_nil {l : List σ} {n : ℕ} (hlt : n < l.length) (hfew : l.length ≤ 1) :
    l.eraseIdx n = [] := by
  refine eq_nil_of_length_eq_zero ?_
  rw [length_eraseIdx_of_lt hlt]
  omega

theorem Single.put (h : Single c s) (hi : s.reader i = some old) (hold : old.holds)
    (hreader : s'.reader = update s.reader i new) {x : σ} (hidle : s'.idle = s.idle ++ [x])
    (hcount : s'.count = s.count) (hx : c.Alike x (c.nextHandle s'.taken))
    (hholds : ¬ new.any ReaderPc.holds) (hfree : ∀ y, new.bind ReaderPc.free ≠ some y)
    (hunopened : ∀ m, new.bind ReaderPc.unopened ≠ some m) : Single c s' := by
  rw [h.idle ⟨_, _, hi, hold⟩, nil_append] at hidle
  refine Single.change hreader (fun j pc => h.not_holds hi hold) (fun hany => absurd hany hholds) ?_ ?_
    (.inr ?_) ?_ (fun y hy => absurd hy (hfree y)) fun m hm => absurd hm (hunopened m)
  · rw [hidle]
    exact Nat.le_refl 1
  · rw [hcount]
    exact h.count.mpr (.inl ⟨_, _, hi, hold⟩)
  · rw [hidle]
    exact cons_ne_nil x []
  · rw [hidle]
    exact forall_mem_singleton.mpr hx

/-- The decryptor moves from the list to a thread and back. -/
theorem Single.step (h : Single c s) (hone : c.maxCount = 1) (hstep : ReadStep c s a s') : Single c s' := by
  cases hstep with
  | recv _ _ _ _ | copy _ | ignore _ _ _ => exact { h with }
  | start hi _ _ | lock hi _ | refuse hi _ | pass hi _ _ | count hi | disable hi | unlock hi
  | unlockRefused hi | enable hi | uncount hi | unset hi | preProcess hi | postProcess01 hi =>
    exact h.quiet rfl rfl rfl rfl (by rw [hi]; rfl) (by rw [hi]; exact fun x hx => hx)
      (by rw [hi]; exact fun m hm => hm)
  | header hi _ _ =>
    exact h.quiet rfl rfl rfl rfl (by rw [hi]; rfl) nofun nofun
  | deliver hi hm =>
    refine h.quiet rfl rfl rfl rfl ?_ ?_ ?_
    · rw [hi, any_some, any_some]
      split <;> rfl
    · intro x hx
      rw [bind_some] at hx
      split at hx <;> cases hx
    · intro m hm
      rw [bind_some] at hm
      split at hm <;> cases hm
  | get hi hidle =>
    obtain ⟨hlt, -⟩ := List.getElem?_eq_some_iff.mp hidle
    have hne : s.idle ≠ [] := ne_nil_of_length_pos (Nat.zero_lt_of_lt hlt)
    have hnil := eraseIdx_eq_nil hlt h.few
    refine Single.change rfl (fun j pc _ hj hpc => hne (h.idle ⟨j, pc, hj, hpc⟩)) (fun _ => hnil)
      ?_ (h.count.mpr (.inr hne)) (.inl rfl) ?_ ?_ nofun
    · change (s.idle.eraseIdx _).length ≤ 1
      rw [hnil]
      exact Nat.zero_le 1
    · intro x hx
      change x ∈ s.idle.eraseIdx _ at hx
      rw [hnil] at hx
      exact absurd hx not_mem_nil
    · intro x hx
      cases hx
      exact h.resting _ (mem_of_getElem? hidle)
  | create hi hroom =>
    have hzero : s.count = 0 := by omega
    have hnone : ∀ j pc, s.reader j = some pc → ¬ pc.holds := by
      intro j pc hj hpc
      exact absurd hzero (Nat.ne_of_gt (h.count.mpr (.inl ⟨j, pc, hj, hpc⟩)))
    have hnil : s.idle = [] := by
      by_contra hne
      exact absurd hzero (Nat.ne_of_gt (h.count.mpr (.inr hne)))
    refine Single.change rfl (fun j pc _ hj => hnone j pc hj) (fun _ => hnil) h.few (Nat.succ_pos _)
      (.inl rfl) h.resting ?_ nofun
    intro x hx
    cases hx
    change c.Alike c.init (c.nextHandle s.taken)
    rw [h.fresh hzero, ReadSetup.nextHandle, if_pos hone]
    exact fun _ _ => rfl
  | depart hi =>
    exact h.put hi rfl rfl rfl rfl (h.free _ _ hi _ rfl) nofun nofun nofun
  | take hi hsize =>
    have hnil := h.idle ⟨_, _, hi, rfl⟩
    refine Single.change rfl (fun j pc hji hj => h.not_holds hi rfl hji hj) (fun _ => hnil) h.few
      (h.count.mpr (.inl ⟨_, _, hi, rfl⟩)) (.inl rfl) ?_ nofun ?_
    · intro x hx
      change x ∈ s.idle at hx
      rw [hnil] at hx
      exact absurd hx not_mem_nil
    · intro m hm
      cases hm
      exact getLast?_concat
  | openMessage hi hopen =>
    refine h.put hi rfl rfl rfl rfl ?_ nofun nofun nofun
    -- the message that has been opened is the last one that was taken
    change c.Alike _ (c.nextHandle s.taken)
    rw [ReadSetup.nextHandle, if_pos hone, h.last _ _ hi _ rfl, bind_some, hopen]
    exact fun _ _ => rfl

/-! ## Decryptors that can be interchanged -/

theorem Shared.thread (h : Shared c Good s) (hreader : s'.reader = update s.reader i new)
    (hresting : ∀ x ∈ s'.idle, Good x) (hfree : ∀ x, new.bind ReaderPc.free = some x → Good x)
    (hbegun : ∀ m, new = some (.announced m) → ∃ h ticket rd, Good h ∧ c.readHeader h ticket rd = some m)
    (hunopened : ∀ m, new.bind ReaderPc.unopened = some m → ∃ h ticket rd m₀ bytes,
      Good h ∧ c.readHeader h ticket rd = some m₀ ∧ m = m₀.fill bytes) : Shared c Good s' := by
  refine ⟨hresting, ?_, ?_, ?_⟩
  · rw [hreader]
    exact h.free.update fun pc hnew x hx => hfree x (by rw [hnew]; exact hx)
  · rw [hreader]
    exact h.begun.update fun pc hnew m hm => hbegun m (by rw [hnew, hm])
  · rw [hreader]
    exact h.unopened.update fun pc hnew m hm => hunopened m (by rw [hnew]; exact hm)

theorem Shared.quiet (h : Shared c Good s) (hreader : s'.reader = update s.reader i new)
    (hidle : s'.idle = s.idle)
    (hfree : ∀ x, new.bind ReaderPc.free = some x → (s.reader i).bind ReaderPc.free = some x)
    (hbegun : ∀ m, new ≠ some (.announced m))
    (hunopened : ∀ m, new.bind ReaderPc.unopened = some m →
      (s.reader i).bind ReaderPc.unopened = some m) : Shared c Good s' := by
  refine h.thread hreader (by rw [hidle]; exact h.resting) ?_ (fun m hm => absurd hm (hbegun m)) ?_
  · intro x hx
    obtain ⟨b, hb, hbfree⟩ := bind_eq_some_iff.mp (hfree x hx)
    exact h.free i b hb x hbfree
  · intro m hm
    obtain ⟨b, hb, hbm⟩ := bind_eq_some_iff.mp (hunopened m hm)
    exact h.unopened i b hb m hbm

theorem good_of_mem_append {l : List σ} {x y : σ} (hl : ∀ x ∈ l, Good x) (hx : Good x)
    (hy : y ∈ l ++ [x]) : Good y := by
  rw [mem_append, mem_singleton] at hy
  rcases hy with hy | rfl
  · exact hl y hy
  · exact hx

/-- A decryptor that is used can still be interchanged. -/
theorem Shared.step (h : Shared c Good s) (hgood : c.Interchangeable Good) (hstep : ReadStep c s a s') :
    Shared c Good s' := by
  cases hstep with
  | recv _ _ _ _ | copy _ | ignore _ _ _ => exact { h with }
  | start hi _ _ | lock hi _ | refuse hi _ | pass hi _ _ | count hi | disable hi | unlock hi
  | unlockRefused hi | enable hi | uncount hi | unset hi | preProcess hi | postProcess01 hi =>
    exact h.quiet rfl rfl (by rw [hi]; exact fun x hx => hx) (by simp)
      (by rw [hi]; exact fun m hm => hm)
  | deliver hi hm =>
    refine h.quiet rfl rfl ?_ ?_ ?_
    · intro x hx
      rw [bind_some] at hx
      split at hx <;> cases hx
    · intro m hm
      split at hm <;> cases hm
    · intro m hm
      rw [bind_some] at hm
      split at hm <;> cases hm
  | get hi hidle =>
    refine h.thread rfl (fun x hx => h.resting x (mem_of_mem_eraseIdx hx)) ?_ nofun nofun
    intro x hx
    cases hx
    exact h.resting _ (mem_of_getElem? hidle)
  | create hi hroom =>
    refine h.thread rfl h.resting ?_ nofun nofun
    intro x hx
    cases hx
    exact hgood.init
  | depart hi =>
    refine h.thread rfl (fun x => good_of_mem_append h.resting (h.free _ _ hi _ rfl))
      nofun nofun nofun
  | header hi hsize hm =>
    refine h.thread rfl h.resting nofun ?_ nofun
    intro m hnew
    cases hnew
    exact ⟨_, _, _, h.free _ _ hi _ rfl, hm⟩
  | take hi hsize =>
    refine h.thread rfl h.resting nofun nofun ?_
    intro m hnew
    cases hnew
    obtain ⟨x, ticket, rd, hx, hm⟩ := h.begun _ _ hi _ rfl
    exact ⟨x, ticket, rd, _, _, hx, hm, rfl⟩
  | openMessage hi hopen =>
    obtain ⟨x, ticket, rd, m₀, bytes, hx, hm₀, rfl⟩ := h.unopened _ _ hi _ rfl
    have hafter := hgood.openPending x ticket rd m₀ bytes _ hx hm₀ hopen
    refine h.thread rfl (fun x => good_of_mem_append h.resting hafter) nofun nofun nofun

/-! ## Handles in order -/

/-- A thread that waits for a header has the handle that is to read it. -/
def Handled (c : ReadSetup σ) (s : ReadState ι σ) : Prop :=
  c.maxCount = 1 ∧ Single c s ∨ c.maxCount ≠ 1 ∧ ∃ Good, c.Interchangeable Good ∧ Shared c Good s

theorem Handled.step (h : Handled c s) (hstep : ReadStep c s a s') : Handled c s' := by
  rcases h with ⟨hone, hsingle⟩ | ⟨hmany, Good, hgood, hshared⟩
  · exact .inl ⟨hone, hsingle.step hone hstep⟩
  · exact .inr ⟨hmany, Good, hgood, hshared.step hgood hstep⟩

omit [DecidableEq ι] in
theorem Handled.alike (h : Handled c s) {x : σ} (hi : s.reader i = some (.waiting x)) :
    c.Alike x (c.nextHandle s.taken) := by
  rcases h with ⟨-, hsingle⟩ | ⟨hmany, Good, hgood, hshared⟩
  · exact hsingle.free i _ hi x rfl
  · rw [ReadSetup.nextHandle, if_neg hmany]
    exact hgood.alike x (hshared.free i _ hi x rfl)

end Handles

end Osns
