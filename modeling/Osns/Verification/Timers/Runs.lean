import Osns.Verification.Timers.Schedule

/-! Histories of adding, removing and expiring timers. -/

namespace Osns

open List Option Transition BtimerBackend

variable {b b' : BtimerBackend} {past coming : List Btimer} {t : Btimer}

/-! ## Removing -/

theorem Scheduled.sublist {past' coming' : List Btimer} (h : Scheduled b past coming)
    (hpast : past'.Sublist past) (hcoming : coming'.Sublist coming) :
    Scheduled (b.arrange past' coming') past' coming' := by
  have hsub : (past' ++ coming').Sublist (past ++ coming) := hpast.append hcoming
  exact ⟨rfl, rfl, rfl, (hsub.map _).nodup h.nodup, fun t ht => h.allocated t (hsub.subset ht),
    h.sorted.sublist hcoming, fun t ht => h.future t (hcoming.subset ht),
    fun t ht => h.waiting t (hcoming.subset ht), fun t ht => h.done t (hpast.subset ht), h.once,
      h.old, h.late,
    h.now⟩

theorem Scheduled.positive (h : Scheduled b past coming) {rest : List Btimer}
    (hrest : ∀ t ∈ rest, t ∈ coming) :
    ∀ e ∈ rest.head?.map (·.expire), zeroTime < e := by
  intro e he
  obtain ⟨u, hu, rfl⟩ := map_eq_some_iff.mp he
  exact h.future u (hrest u (mem_of_head? hu))

theorem Scheduled.eq_of_current (h : Scheduled b past coming) (ht : t ∈ b.timers)
    (hcurrent : b.current = some t.addr) : ∃ rest, coming = t :: rest := by
  rw [h.current] at hcurrent
  cases coming with
  | nil => cases hcurrent
  | cons c rest =>
    have haddr : c.addr = t.addr := some.inj hcurrent
    rw [h.timers] at ht
    have heq : c = t := inj_on_of_nodup_map h.nodup (by simp) ht haddr
    exact ⟨rest, by rw [heq]⟩

theorem Scheduled.remove (h : Scheduled b past coming) (ht : t ∈ b.timers) :
    ∃ past' coming', Scheduled (removeTimerTimerfdCommon b t) past' coming' := by
  by_cases hcurrent : b.current = some t.addr
  · obtain ⟨rest, rfl⟩ := h.eq_of_current ht hcurrent
    have hnext : b.next t.addr = rest.head? := by
      rw [BtimerBackend.next, h.suffix_current]
      rfl
    have hremove : Linked.remove Btimer.addr t.addr b.timers = past ++ rest := by
      have hnodup := h.nodup
      rw [map_append, map_cons, nodup_append, nodup_cons] at hnodup
      have hrest : ∀ a ∈ rest, a.addr ≠ t.addr := by
        intro a ha heq
        exact hnodup.2.1.1 (heq ▸ mem_map_of_mem ha)
      have hself : Linked.remove Btimer.addr t.addr (t :: rest) = rest := by
        rw [Linked.remove, filter_cons_of_neg (by simp)]
        exact Linked.remove_of_forall_ne hrest
      rw [h.timers, Linked.remove_append, hself,
        Linked.remove_of_forall_ne (Linked.ne_of_nodup_append_cons h.nodup)]
    refine ⟨past, rest, ?_⟩
    suffices heq : removeTimerTimerfdCommon b t = b.arrange past rest from
      heq ▸ h.sublist (Sublist.refl _) (sublist_cons_self t rest)
    simp only [removeTimerTimerfdCommon, if_pos hcurrent, hnext, hremove]
    exact adjustBtimerBackend_eq _ (h.positive fun u => mem_cons_of_mem t)
  · have hhead : (Linked.remove Btimer.addr t.addr coming).head? = coming.head? := by
      cases coming with
      | nil => rfl
      | cons c rest =>
        have hne : c.addr ≠ t.addr := by
          intro heq
          exact hcurrent (h.current.trans (congrArg some heq))
        rw [Linked.remove, filter_cons_of_pos (by simpa using hne)]
        rfl
    have hsub (l : List Btimer) : (Linked.remove Btimer.addr t.addr l).Sublist l := Linked.remove_sublist
    have hkept := h.sublist (hsub past) (hsub coming)
    rw [arrange, hhead, ← h.current, ← h.armed, ← Linked.remove_append, ← h.timers] at hkept
    rw [removeTimerTimerfdCommon, if_neg hcurrent]
    exact ⟨_, _, hkept⟩

/-! ## Expirations -/

variable {now : SystemTime} {readings : List SystemTime}

/-- The front of the list has expired by the clock, the rest has not. -/
theorem scanExpired_spec {l : List Btimer}
    (hclock : (now :: readings).IsChain (fun earlier later => systemTimeTestEarlier later earlier ≤ 0)) :
    l = (scanExpired now readings l).1.map (·.1) ++ (scanExpired now readings l).2.1 ∧
      (∀ r ∈ (scanExpired now readings l).1, r.1.expire ≤ r.2) ∧
      now ≤ (scanExpired now readings l).2.2 ∧
      ∀ t ∈ (scanExpired now readings l).2.1.head?, (scanExpired now readings l).2.2 < t.expire := by
  induction l generalizing now readings with
  | nil =>
    refine ⟨rfl, ?_, le_rfl, ?_⟩
    · intro r hr
      cases hr
    · intro t ht
      cases ht
  | cons t rest ih =>
    have hread : now ≤ readings.headD now ∧ (readings.headD now :: readings.tail).IsChain
        (fun earlier later => systemTimeTestEarlier later earlier ≤ 0) := by
      cases readings with
      | nil => exact ⟨le_rfl, hclock⟩
      | cons reading readings =>
        rw [isChain_cons_cons] at hclock
        exact ⟨systemTimeTestEarlier_nonpos.mp hclock.1, hclock.2⟩
    by_cases hexpired : systemTimeTestEarlier t.expire (readings.headD now) < 0
    · rw [scanExpired, if_pos hexpired]
      refine ⟨rfl, ?_, hread.1, ?_⟩
      · intro r hr
        cases hr
      · intro u hu
        cases hu
        exact systemTimeTestEarlier_neg.mp hexpired
    · obtain ⟨hsplit, hlate, hle, hhead⟩ := ih hread.2
      rw [scanExpired, if_neg hexpired]
      refine ⟨?_, ?_, hread.1.trans hle, hhead⟩
      · rw [map_cons, cons_append, ← hsplit]
      · exact forall_mem_cons.mpr ⟨systemTimeTestEarlier_nonneg.mp (not_lt.mp hexpired), hlate⟩

theorem Scheduled.list_current (h : Scheduled b past coming) :
    (b.current.map fun current => Linked.suffix Btimer.addr current b.timers).getD [] = coming := by
  cases coming with
  | nil =>
    have hcurrent : b.current = none := h.current
    rw [hcurrent]
    rfl
  | cons c rest =>
    have hcurrent : b.current = some c.addr := h.current
    rw [hcurrent, map_some, getD_some, h.suffix_current]

theorem Scheduled.expirations (h : Scheduled b past coming)
    (hclock : (b.now :: readings).IsChain (fun earlier later => systemTimeTestEarlier later earlier ≤ 0)) :
    ∃ launched rest, coming = launched.map (·.1) ++ rest ∧
      (thread2handleExpirations b readings).launched = b.launched ++ launched ∧
      (∀ t ∈ rest, b.now < t.expire) ∧
      Scheduled (thread2handleExpirations b readings) (past ++ launched.map (·.1)) rest := by
  obtain ⟨hsplit, hlate, hle, hhead⟩ := scanExpired_spec (l := coming) hclock
  have hlist := h.list_current
  set r := scanExpired b.now readings coming with hr
  have hnodup := h.nodup
  have hsorted := h.sorted
  rw [hsplit] at hnodup hsorted
  have hpart := hnodup
  rw [map_append, nodup_append, map_append, nodup_append] at hpart
  replace hpart := hpart.2.1
  have hrest : ∀ t ∈ r.2.1, r.2.2 < t.expire := by
    cases hcons : r.2.1 with
    | nil => exact forall_mem_nil _
    | cons u rest =>
      have hu := hhead u (by rw [hcons]; rfl)
      have htail := (pairwise_append.mp hsorted).2.1
      rw [hcons] at htail
      exact forall_mem_cons.mpr ⟨hu, fun t ht => lt_of_lt_of_le hu (rel_of_pairwise_cons htail ht)⟩
  have hmem : ∀ t ∈ r.1.map (·.1), t ∈ coming := fun t ht => by
    rw [hsplit]
    exact mem_append_left _ ht
  have hmem' : ∀ t ∈ r.2.1, t ∈ coming := fun t ht => by
    rw [hsplit]
    exact mem_append_right _ ht
  have heq : thread2handleExpirations b readings = arrange
      { b with launched := b.launched ++ r.1, now := r.2.2 } (past ++ r.1.map (·.1)) r.2.1 := by
    simp only [thread2handleExpirations, hlist, ← hr]
    rw [adjustBtimerBackend_eq _ (h.positive hmem'), arrange, append_assoc, ← hsplit, h.timers]
  rw [heq]
  refine ⟨r.1, r.2.1, hsplit, rfl, fun t ht => lt_of_le_of_lt hle (hrest t ht), rfl, rfl, rfl, ?_, ?_,
    (pairwise_append.mp hsorted).2.1, fun t ht => h.future t (hmem' t ht), ?_, ?_, ?_, ?_, ?_,
      h.now.trans hle⟩
  · rw [append_assoc]
    exact hnodup
  · rw [append_assoc, ← hsplit]
    exact h.allocated
  · intro t ht hlaunched
    rw [arrange, map_append, mem_append] at hlaunched
    rcases hlaunched with hold | hnew
    · exact h.waiting t (hmem' t ht) hold
    · obtain ⟨p, hp, heq⟩ := mem_map.mp hnew
      exact hpart.2.2 p.1.addr (mem_map_of_mem (mem_map_of_mem hp)) t.addr
        (mem_map_of_mem ht) heq
  · intro t ht
    rw [arrange, map_append, mem_append]
    rcases mem_append.mp ht with ht | ht
    · exact (h.done t ht).imp_right .inl
    · obtain ⟨p, hp, rfl⟩ := mem_map.mp ht
      exact .inr (.inr (mem_map_of_mem hp))
  · rw [arrange, map_append, nodup_append]
    refine ⟨h.once, ?_, ?_⟩
    · have hold := hpart.1
      rwa [List.map_map] at hold
    · intro k hk k' hk' heq
      obtain ⟨p, hp, rfl⟩ := mem_map.mp hk'
      rw [heq] at hk
      exact h.waiting p.1 (hmem p.1 (mem_map_of_mem hp)) hk
  · refine forall_mem_append.mpr ⟨h.old, fun p hp => ?_⟩
    exact h.allocated p.1 (mem_append_right _ (hmem p.1 (mem_map_of_mem hp)))
  · exact forall_mem_append.mpr ⟨h.late, hlate⟩

/-! ## Histories -/

def KeepsExpire (b : BtimerBackend) : TimerAction → Prop
  | .modify ref expire => ∀ t ∈ b.find ref, t.expire = expire
  | _ => True

instance (b : BtimerBackend) : DecidablePred (KeepsExpire b)
  | .modify ref expire => inferInstanceAs (Decidable (∀ t ∈ b.find ref, t.expire = expire))
  | .clock _ | .add _ | .remove _ | .expirations _ => inferInstanceAs (Decidable True)

theorem modifyTimerTimerfd_same {ref : TimerRef} {expire : SystemTime}
    (hkeeps : KeepsExpire b (.modify ref expire)) (hstep : modifyTimerTimerfd b ref expire = some b') :
    b' = b := by
  unfold modifyTimerTimerfd at hstep
  split at hstep
  · next t ht =>
    dsimp only at hstep
    rw [if_pos (systemTimeTestEarlier_eq_zero.mpr (hkeeps t ht).symm)] at hstep
    exact (some.inj hstep).symm
  · exact (some.inj hstep).symm
  · cases hstep

/-- A timer moves to the first part when it is launched. -/
theorem Scheduled.step {a : TimerAction} (h : Scheduled b past coming) (hkeeps : KeepsExpire b a)
    (hstep : timerStep b a = some b') : ∃ past' coming', Scheduled b' past' coming' := by
  cases a with
  | clock now =>
    obtain ⟨hle, hstep⟩ := ite_none_right_eq_some.mp hstep
    cases hstep
    exact ⟨past, coming, { h with now := h.now.trans (systemTimeTestEarlier_nonpos.mp hle) }⟩
  | add expire =>
    cases hstep
    exact h.add expire
  | modify ref expire =>
    rw [modifyTimerTimerfd_same hkeeps hstep]
    exact ⟨past, coming, h⟩
  | remove ref =>
    change removeTimerTimerfd b ref = some b' at hstep
    unfold removeTimerTimerfd at hstep
    split at hstep
    · next t ht =>
      split at hstep
      · cases hstep
      · cases hstep
        exact h.remove (mem_of_find ht)
    · cases hstep
      exact ⟨past, coming, h⟩
    · cases hstep
  | expirations readings =>
    obtain ⟨hclock, hstep⟩ := ite_none_right_eq_some.mp hstep
    cases hstep
    obtain ⟨launched, rest, -, -, -, hscheduled⟩ := h.expirations hclock
    exact ⟨_, rest, hscheduled⟩

theorem run_scheduled (hnow : zeroTime ≤ now) {as : List TimerAction}
    (hkeeps : Along timerStep KeepsExpire (initTimerfdBackend now) as)
    (hrun : run timerStep (initTimerfdBackend now) as = some b) :
    ∃ past coming, Scheduled b past coming :=
  run_invariant (I := fun b => ∃ past coming, Scheduled b past coming)
    (fun _ _ _ ⟨_, _, h⟩ hkeeps hstep => h.step hkeeps hstep)
    ⟨_, _, initTimerfdBackend_scheduled hnow⟩ hkeeps hrun

def BtimerBackend.pending (b : BtimerBackend) : List Btimer :=
  b.timers.filter fun t => t.expire ≠ zeroTime ∧ t.addr ∉ b.launched.map (·.1.addr)

def BtimerBackend.fromCurrent (b : BtimerBackend) : List Btimer :=
  (b.current.map fun current => Linked.suffix Btimer.addr current b.timers).getD []

/-- Histories in which modifications set the time that the timer has. -/
theorem timers_modified (now : SystemTime) (hnow : zeroTime ≤ now) (as : List TimerAction) (b : BtimerBackend)
    (hkeeps : Transition.Along timerStep KeepsExpire (initTimerfdBackend now) as)
    (hrun : run timerStep (initTimerfdBackend now) as = some b) :
    b.fromCurrent.Pairwise (·.expire ≤ ·.expire) ∧ b.armed = b.fromCurrent.head?.map (·.expire) ∧
      ∀ ref expire b', KeepsExpire b (.modify ref expire) → modifyTimerTimerfd b ref expire = some b' →
        ∀ t, b.find ref = some t → ∃ t' ∈ b'.timers, t'.addr = t.addr ∧ t'.expire = expire := by
  obtain ⟨past, coming, h⟩ := run_scheduled hnow hkeeps hrun
  have hcoming : b.fromCurrent = coming := h.list_current
  rw [hcoming]
  refine ⟨h.sorted, h.armed, ?_⟩
  intro ref expire b' hsame hmodify t ht
  rw [modifyTimerTimerfd_same hsame hmodify]
  exact ⟨t, mem_of_find ht, rfl, hsame t ht⟩

theorem timers_modified_same :
    ∃ b, run timerStep (initTimerfdBackend ⟨1, 0⟩)
        [.add (some ⟨5, 0⟩), .add (some ⟨7, 0⟩), .modify (.id 1) ⟨5, 0⟩] = some b ∧
      b.fromCurrent.Pairwise (·.expire ≤ ·.expire) := by
  obtain ⟨b, hrun⟩ := isSome_iff_exists.mp
    (show (run timerStep (initTimerfdBackend ⟨1, 0⟩)
      [.add (some ⟨5, 0⟩), .add (some ⟨7, 0⟩), .modify (.id 1) ⟨5, 0⟩]).isSome by decide +kernel)
  exact ⟨b, hrun, (timers_modified ⟨1, 0⟩ (by decide +kernel) _ b (by decide +kernel) hrun).1⟩

/-- The first of two timers is set to a later time: it keeps its old one, for which the clock stays set, and
the other timer is in front of the current one, where it is never launched. -/
theorem modifyTimer_keeps_expire :
    (run timerStep (initTimerfdBackend ⟨1, 0⟩)
        [.add (some ⟨5, 0⟩), .add (some ⟨7, 0⟩), .modify (.id 1) ⟨9, 0⟩]).map
        (fun b => (b.timers.map (·.expire.sec), b.current, b.armed, b.fromCurrent.map (·.expire.sec))) =
      some ([0, 7, 5], some 1, some ⟨5, 0⟩, [5]) := by
  decide +kernel

end Osns
