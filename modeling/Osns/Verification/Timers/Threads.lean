import Osns.Verification.Timers.Schedule

/-! Removing timers while expirations are handled. -/

namespace Osns

open List TimerThreads

def RemoverPc.loose : RemoverPc → Option Btimer
  | unlinked t _ => some t
  | _ => none

/-- The handler of expirations does not run while a timer is removed, and no callback of the timer is to
be started when it is freed. -/
def KeepsApart (s : TimerThreads) : TimerThreadAction → Prop
  | .search _ => s.expiry = none
  | .expire _ => s.remover = .idle
  | .removal => ∀ t ∈ s.remover.loose, t.addr ∉ s.queue.map (·.addr)
  | _ => True

instance (s : TimerThreads) : DecidablePred (KeepsApart s)
  | .search _ => inferInstanceAs (Decidable (s.expiry = none))
  | .expire _ => inferInstanceAs (Decidable (s.remover = .idle))
  | .removal => inferInstanceAs (Decidable (∀ t ∈ s.remover.loose, t.addr ∉ s.queue.map (·.addr)))
  | .callback _ | .add _ => inferInstanceAs (Decidable True)

def RemoverPc.Fits (b : BtimerBackend) (gone : List ℕ) : RemoverPc → Prop
  | idle => True
  | found t | pointed t _ => t ∈ b.timers
  | unlinked t _ => t.addr ∉ b.timers.map (·.addr) ∧ t.addr ∉ gone ∧ t.addr < b.allocated
  | freed t _ => t.addr ∈ gone

/-- What has been freed is neither in the list nor in the queue. -/
structure Separate (s : TimerThreads) : Prop where
  nodup : (s.backend.timers.map (·.addr)).Nodup
  allocated : ∀ t ∈ s.backend.timers, t.addr < s.backend.allocated
  remover : s.remover.Fits s.backend s.freed
  apart : s.remover ≠ .idle → s.expiry = none
  freed : ∀ a ∈ s.freed, a ∉ s.backend.timers.map (·.addr) ∧ a ∉ s.queue.map (·.addr) ∧
    a < s.backend.allocated
  once : s.freed.Nodup
  removed : ∀ a ∈ s.removed, a ∈ s.freed
  overdue : s.overdue = []

theorem TimerThreads.init_separate (now : SystemTime) : Separate (init now) where
  nodup := by simp [init, initTimerfdBackend]
  allocated := by simp [init, initTimerfdBackend, dummyTimer]
  remover := trivial
  apart := fun h => absurd rfl h
  freed := by simp [init]
  once := nodup_nil
  removed := by simp [init]
  overdue := rfl

theorem addTimerTimerfd_timers (b : BtimerBackend) (expire : Option SystemTime) :
    addTimerTimerfd b expire = b ∨
      (addTimerTimerfd b expire).allocated = b.allocated + 1 ∧
        ∃ t : Btimer, t.addr = b.allocated ∧ (addTimerTimerfd b expire).timers.Perm (t :: b.timers) := by
  cases expire with
  | none => exact .inr ⟨rfl, _, rfl, Perm.refl _⟩
  | some expire =>
    by_cases hpast : 0 ≤ systemTimeTestEarlier expire b.now
    · refine .inl ?_
      simp [addTimerTimerfd, if_pos hpast]
    · refine .inr ?_
      simp only [addTimerTimerfd, if_neg hpast]
      cases b.current with
      | none => exact ⟨rfl, _, rfl, perm_append_singleton _ _⟩
      | some current =>
        dsimp only
        split
        · split
          · exact ⟨rfl, _, rfl, Linked.insertBefore_perm⟩
          · exact ⟨rfl, _, rfl, Linked.insertBefore_perm⟩
        · exact ⟨rfl, _, rfl, perm_append_singleton _ _⟩

variable {s s' : TimerThreads}

section

variable (h : Separate s)

include h

theorem Separate.add {expire : Option SystemTime} (hstep : s.add expire = some s') :
    Separate s' := by
  obtain ⟨hfree, hstep⟩ := Option.ite_none_right_eq_some.mp hstep
  cases hstep
  rcases addTimerTimerfd_timers s.backend expire with heq | ⟨hallocated, t, haddr, hperm⟩
  · rw [heq]
    exact h
  · have hmem : ∀ a, a ∈ (addTimerTimerfd s.backend expire).timers.map (·.addr) ↔
        a = s.backend.allocated ∨ a ∈ s.backend.timers.map (·.addr) := by
      intro a
      rw [(hperm.map _).mem_iff, map_cons, mem_cons, haddr]
    have hother : ∀ a < s.backend.allocated, a ∉ s.backend.timers.map (·.addr) →
        a ∉ (addTimerTimerfd s.backend expire).timers.map (·.addr) ∧
          a < (addTimerTimerfd s.backend expire).allocated := by
      intro a hlt hlist
      rw [hmem, hallocated, not_or]
      exact ⟨⟨Nat.ne_of_lt hlt, hlist⟩, Nat.lt_succ_of_lt hlt⟩
    refine { h with nodup := ?_, allocated := ?_, remover := ?_, freed := ?_ }
    · rw [(hperm.map _).nodup_iff, map_cons, nodup_cons, haddr]
      exact ⟨fresh_of_lt h.allocated, h.nodup⟩
    · intro u hu
      change u.addr < (addTimerTimerfd s.backend expire).allocated
      rw [hallocated]
      rcases mem_cons.mp (hperm.mem_iff.mp hu) with rfl | hu
      · rw [haddr]
        exact Nat.lt_succ_self _
      · exact Nat.lt_succ_of_lt (h.allocated u hu)
    · have hfits := h.remover
      change s.remover.Fits (addTimerTimerfd s.backend expire) s.freed
      cases hremover : s.remover with
      | idle => trivial
      | found u | pointed u =>
        rw [hremover] at hfits
        exact hperm.mem_iff.mpr (mem_cons_of_mem _ hfits)
      | unlinked u =>
        rw [hremover] at hfits
        obtain ⟨hlist, hfreed, hlt⟩ := hfits
        exact ⟨(hother _ hlt hlist).1, hfreed, (hother _ hlt hlist).2⟩
      | freed u =>
        rw [hremover] at hfits
        exact hfits
    · intro a ha
      obtain ⟨hlist, hqueue, hlt⟩ := h.freed a ha
      exact ⟨(hother a hlt hlist).1, hqueue, (hother a hlt hlist).2⟩

theorem Separate.search (hidle : s.expiry = none) {ref : TimerRef}
    (hstep : s.search ref = some s') : Separate s' := by
  unfold TimerThreads.search at hstep
  split at hstep
  · cases hstep
  · split at hstep
    · next ht =>
      split at hstep
      · cases hstep
      · cases hstep
        exact { h with remover := BtimerBackend.mem_of_find ht, apart := fun _ => hidle }
    · cases hstep
      exact h
    · cases hstep
  · cases hstep

theorem Separate.removal (hqueue : ∀ t ∈ s.remover.loose, t.addr ∉ s.queue.map (·.addr))
    (hstep : s.removal = some s') : Separate s' := by
  have hfits := h.remover
  have hidle := h.apart
  unfold TimerThreads.removal at hstep
  split at hstep
  · cases hstep
  · next t hremover =>
    rw [hremover] at hfits hidle
    split at hstep
    all_goals
      cases hstep
      exact { h with remover := hfits, apart := fun _ => hidle nofun }
  · next t adjust hremover =>
    rw [hremover] at hfits hidle
    have hsub : ((Linked.remove Btimer.addr t.addr s.backend.timers).map (·.addr)).Sublist
        (s.backend.timers.map (·.addr)) := Linked.remove_sublist.map _
    cases hstep
    refine { h with
      nodup := hsub.nodup h.nodup
      allocated := fun u hu => h.allocated u (Linked.remove_sublist.subset hu)
      remover := ?_
      apart := fun _ => hidle nofun
      freed := ?_ }
    · refine ⟨?_, ?_, h.allocated t hfits⟩
      · intro hold
        obtain ⟨u, hu, heq⟩ := mem_map.mp hold
        exact (Linked.mem_remove.mp hu).2 heq
      · intro hfreed
        exact (h.freed _ hfreed).1 (mem_map_of_mem hfits)
    · intro a ha
      obtain ⟨hlist, hrest⟩ := h.freed a ha
      exact ⟨fun hold => hlist (hsub.subset hold), hrest⟩
  · next t adjust hremover =>
    rw [hremover] at hfits hidle hqueue
    obtain ⟨hlist, hfreed, hlt⟩ := hfits
    cases hstep
    refine { h with
      remover := mem_append_right _ (mem_singleton_self _)
      apart := fun _ => hidle nofun
      freed := ?_
      once := ?_
      removed := fun a ha => mem_append_left _ (h.removed a ha) }
    · exact forall_mem_append.mpr ⟨h.freed, forall_mem_singleton.mpr ⟨hlist, hqueue t rfl, hlt⟩⟩
    · exact (perm_append_singleton _ _).nodup_iff.mpr (nodup_cons.mpr ⟨hfreed, h.once⟩)
  · next t adjust hremover =>
    rw [hremover] at hfits hidle
    have hremoved : ∀ a ∈ s.removed ++ [t.addr], a ∈ s.freed :=
      forall_mem_append.mpr ⟨h.removed, forall_mem_singleton.mpr hfits⟩
    -- only the current timer changes
    cases adjust
    all_goals
      cases hstep
      exact { h with remover := trivial, apart := fun hne => absurd rfl hne, removed := hremoved }

theorem Separate.expire (hidle : s.remover = .idle) {now : SystemTime}
    (hstep : s.expire now = some s') : Separate s' := by
  unfold TimerThreads.expire at hstep
  split at hstep
  case h_1 | h_2 =>
    cases hstep
    exact { h with apart := fun hne => absurd hidle hne }
  · obtain ⟨t, ht, rfl⟩ := Option.map_eq_some_iff.mp hstep
    split
    · exact { h with apart := fun hne => absurd hidle hne }
    · -- what is launched is in the list
      refine { h with apart := fun hne => absurd hidle hne, freed := ?_ }
      intro a ha
      obtain ⟨hlist, hqueue, hlt⟩ := h.freed a ha
      refine ⟨hlist, ?_, hlt⟩
      change a ∉ (s.queue ++ [t]).map (·.addr)
      rw [map_append, mem_append, not_or]
      refine ⟨hqueue, ?_⟩
      intro hnew
      rw [map_singleton, mem_singleton] at hnew
      rw [hnew] at hlist
      exact hlist (mem_map_of_mem (mem_of_find?_eq_some ht))

theorem Separate.callback {n : ℕ} (hstep : s.callback n = some s') : Separate s' := by
  obtain ⟨t, ht, rfl⟩ := Option.map_eq_some_iff.mp hstep
  have hnot : t.addr ∉ s.removed := by
    intro hremoved
    exact (h.freed _ (h.removed _ hremoved)).2.1 (mem_map_of_mem (mem_of_getElem? ht))
  refine { h with freed := ?_, overdue := ?_ }
  · intro a ha
    obtain ⟨hlist, hqueue, hlt⟩ := h.freed a ha
    refine ⟨hlist, ?_, hlt⟩
    intro hold
    exact hqueue (((eraseIdx_sublist s.queue n).map _).subset hold)
  · change (if t.addr ∈ s.removed then _ else s.overdue) = []
    rw [if_neg hnot]
    exact h.overdue

/-- A timer is freed when the list and the queue have lost it. -/
theorem Separate.step {a : TimerThreadAction} (hkeeps : KeepsApart s a)
    (hstep : timerThreadStep s a = some s') : Separate s' := by
  cases a with
  | search ref => exact h.search hkeeps hstep
  | removal => exact h.removal hkeeps hstep
  | expire now => exact h.expire hkeeps hstep
  | callback n => exact h.callback hstep
  | add expire => exact h.add hstep

end

/-- Once a removal has returned, the callback is not started any more, and the timer has been freed once. -/
theorem timerRemoval_final (now : SystemTime) (as : List TimerThreadAction) (s : TimerThreads)
    (hkeeps : Transition.Along timerThreadStep KeepsApart (init now) as)
    (hrun : Transition.run timerThreadStep (init now) as = some s) :
    s.overdue = [] ∧ ∀ a ∈ s.removed, s.freed.count a = 1 := by
  have h := Transition.run_invariant (I := Separate) (fun _ _ _ h hkeeps hstep => h.step hkeeps hstep)
    (init_separate now) hkeeps hrun
  refine ⟨h.overdue, fun a ha => ?_⟩
  exact count_eq_one_of_mem h.once (h.removed a ha)

/-- A timer that has expired is launched, and removed before a worker thread starts its callback. -/
def removedTooEarly : List TimerThreadAction :=
  [.add (some ⟨5, 0⟩), .expire ⟨6, 0⟩, .expire ⟨6, 0⟩, .expire ⟨6, 0⟩, .search (.id 1), .removal, .removal,
    .removal, .removal, .callback 0]

theorem timerCallback_after_removal :
    (Transition.run timerThreadStep (init ⟨1, 0⟩) removedTooEarly).map
        (fun s => (s.removed, s.freed, s.overdue)) = some ([1], [1], [1]) := by
  decide +kernel

theorem timerRemoval_final_one :
    ∃ s, Transition.run timerThreadStep (init ⟨1, 0⟩)
        [.add (some ⟨5, 0⟩), .expire ⟨2, 0⟩, .expire ⟨2, 0⟩, .search (.id 1), .removal, .removal, .removal,
          .removal] = some s ∧ s.removed = [1] ∧ s.overdue = [] := by
  have hkeeps : Transition.Along timerThreadStep KeepsApart (init ⟨1, 0⟩)
      [.add (some ⟨5, 0⟩), .expire ⟨2, 0⟩, .expire ⟨2, 0⟩, .search (.id 1), .removal, .removal, .removal,
        .removal] := by
    decide +kernel
  obtain ⟨s, hrun, hremoved⟩ := Option.map_eq_some_iff.mp
    (show (Transition.run timerThreadStep (init ⟨1, 0⟩)
      [.add (some ⟨5, 0⟩), .expire ⟨2, 0⟩, .expire ⟨2, 0⟩, .search (.id 1), .removal, .removal, .removal,
        .removal]).map (·.removed) = some [1] by decide +kernel)
  exact ⟨s, hrun, hremoved, (timerRemoval_final ⟨1, 0⟩ _ s hkeeps hrun).1⟩

end Osns
