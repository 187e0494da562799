import Mathlib.Data.List.TakeWhile
import Osns.Library.Transition
import Osns.Model.Timers

/-! The list of timers around the current one: behind it the timers that are still to be launched, in
the order of their times, and in front of it the others. -/

namespace Osns

open List

/-! ## Times -/

instance : LinearOrder SystemTime :=
  LinearOrder.lift' (fun t => toLex (t.sec, t.nsec)) fun a b h => by
    cases a
    cases b
    cases h
    rfl

variable {a b : SystemTime}

theorem SystemTime.lt_iff : a < b ↔ a.sec < b.sec ∨ a.sec = b.sec ∧ a.nsec < b.nsec :=
  Prod.Lex.toLex_lt_toLex

theorem systemTimeTestEarlier_pos : 0 < systemTimeTestEarlier a b ↔ a < b := by
  rw [SystemTime.lt_iff]
  unfold systemTimeTestEarlier
  split_ifs <;> omega

theorem systemTimeTestEarlier_neg : systemTimeTestEarlier a b < 0 ↔ b < a := by
  rw [SystemTime.lt_iff]
  unfold systemTimeTestEarlier
  split_ifs <;> omega

theorem systemTimeTestEarlier_nonpos : systemTimeTestEarlier a b ≤ 0 ↔ b ≤ a := by
  rw [← not_lt, systemTimeTestEarlier_pos, not_lt]

theorem systemTimeTestEarlier_nonneg : 0 ≤ systemTimeTestEarlier a b ↔ a ≤ b := by
  rw [← not_lt, systemTimeTestEarlier_neg, not_lt]

theorem systemTimeTestEarlier_eq_zero : systemTimeTestEarlier a b = 0 ↔ a = b := by
  constructor
  · intro h
    exact le_antisymm (systemTimeTestEarlier_nonneg.mp h.ge) (systemTimeTestEarlier_nonpos.mp h.le)
  · rintro rfl
    exact le_antisymm (systemTimeTestEarlier_nonpos.mpr le_rfl) (systemTimeTestEarlier_nonneg.mpr le_rfl)

/-! ## The schedule -/

/-- The timers are split in two parts. Those of the first part have no time or have been launched; those
of the second part are to be launched, in the order of their times, and the clock is set for the first
of them. -/
structure Scheduled (b : BtimerBackend) (past coming : List Btimer) : Prop where
  timers : b.timers = past ++ coming
  current : b.current = coming.head?.map (·.addr)
  armed : b.armed = coming.head?.map (·.expire)
  nodup : ((past ++ coming).map (·.addr)).Nodup
  allocated : ∀ t ∈ past ++ coming, t.addr < b.allocated
  sorted : coming.Pairwise (·.expire ≤ ·.expire)
  future : ∀ t ∈ coming, zeroTime < t.expire
  waiting : ∀ t ∈ coming, t.addr ∉ b.launched.map (·.1.addr)
  done : ∀ t ∈ past, t.expire = zeroTime ∨ t.addr ∈ b.launched.map (·.1.addr)
  once : (b.launched.map (·.1.addr)).Nodup
  old : ∀ r ∈ b.launched, r.1.addr < b.allocated
  late : ∀ r ∈ b.launched, r.1.expire ≤ r.2
  now : zeroTime ≤ b.now

variable {b b' : BtimerBackend} {past coming : List Btimer}

theorem BtimerBackend.mem_of_find {ref : TimerRef} {t : Btimer} (h : b.find ref = some t) : t ∈ b.timers := by
  cases ref with
  | ptr | id => exact mem_of_find?_eq_some h

theorem adjustBtimerBackend_eq (b : BtimerBackend) {expire : Option SystemTime}
    (h : ∀ e ∈ expire, zeroTime < e) : adjustBtimerBackend b expire = { b with armed := expire } := by
  rw [adjustBtimerBackend, if_neg]
  intro heq
  exact lt_irrefl _ (h zeroTime heq)

/-- The first of the coming timers is the current one, and the clock is set for it. -/
def BtimerBackend.arrange (b : BtimerBackend) (past coming : List Btimer) : BtimerBackend :=
  { b with
    timers := past ++ coming
    current := coming.head?.map (·.addr)
    armed := coming.head?.map (·.expire) }

theorem initTimerfdBackend_scheduled {now : SystemTime} (hnow : zeroTime ≤ now) :
    Scheduled (initTimerfdBackend now) [dummyTimer] [] where
  timers := rfl
  current := rfl
  armed := rfl
  nodup := by simp
  allocated := by simp [dummyTimer, initTimerfdBackend]
  sorted := List.Pairwise.nil
  future := by simp
  waiting := by simp
  done := by simp [dummyTimer]
  once := by simp [initTimerfdBackend]
  old := by simp [initTimerfdBackend]
  late := by simp [initTimerfdBackend]
  now := hnow

theorem Scheduled.suffix_current {t : Btimer} (h : Scheduled b past (t :: coming)) :
    Linked.suffix Btimer.addr t.addr b.timers = t :: coming := by
  rw [h.timers]
  exact Linked.suffix_append_cons (Linked.ne_of_nodup_append_cons h.nodup) rfl

/-! ## Adding -/

theorem fresh_of_lt {α : Type} {f : α → ℕ} {l : List α} {n : ℕ} (h : ∀ x ∈ l, f x < n) : n ∉ l.map f := by
  intro hmem
  obtain ⟨x, hx, rfl⟩ := mem_map.mp hmem
  exact absurd (h x hx) (Nat.lt_irrefl _)

theorem Scheduled.addInactive (h : Scheduled b past coming) :
    Scheduled (addTimerTimerfd b none) (⟨b.allocated, b.id, zeroTime⟩ :: past) coming :=
  { h with
    timers := congrArg (_ :: ·) h.timers
    nodup := nodup_cons.mpr ⟨fresh_of_lt h.allocated, h.nodup⟩
    allocated := forall_mem_cons.mpr ⟨Nat.lt_succ_self _, fun t ht => Nat.lt_succ_of_lt (h.allocated t ht)⟩
    done := forall_mem_cons.mpr ⟨.inl rfl, h.done⟩
    old := fun r hr => Nat.lt_succ_of_lt (h.old r hr) }

theorem Scheduled.insert {before after : List Btimer} {t : Btimer} (id : ℕ)
    (h : Scheduled b past (before ++ after)) (haddr : t.addr = b.allocated) (hexpire : b.now < t.expire)
    (hbefore : ∀ u ∈ before, u.expire ≤ t.expire) (hafter : ∀ u ∈ after, t.expire < u.expire) :
    Scheduled (BtimerBackend.arrange { b with id, allocated := b.allocated + 1 } past (before ++ t :: after))
      past (before ++ t :: after) := by
  have hperm : (past ++ (before ++ t :: after)).Perm (t :: (past ++ (before ++ after))) := by
    rw [← append_assoc, ← append_assoc]
    exact perm_middle
  obtain ⟨hsb, hsa, hcross⟩ := pairwise_append.mp h.sorted
  obtain ⟨hfuture, hfuture'⟩ := forall_mem_append.mp h.future
  obtain ⟨hwaiting, hwaiting'⟩ := forall_mem_append.mp h.waiting
  have hfresh := fresh_of_lt h.old
  rw [← haddr] at hfresh
  refine ⟨rfl, rfl, rfl, ?_, ?_, ?_, ?_, ?_, h.done, h.once, ?_, h.late, h.now⟩
  · rw [(hperm.map _).nodup_iff, map_cons, nodup_cons]
    exact ⟨haddr ▸ fresh_of_lt h.allocated, h.nodup⟩
  · intro u hu
    rcases mem_cons.mp (hperm.mem_iff.mp hu) with rfl | hu
    · exact haddr ▸ Nat.lt_succ_self _
    · exact Nat.lt_succ_of_lt (h.allocated u hu)
  · refine pairwise_append.mpr ⟨hsb, pairwise_cons.mpr ⟨?_, hsa⟩, ?_⟩
    · exact fun u hu => (hafter u hu).le
    · exact fun u hu => forall_mem_cons.mpr ⟨hbefore u hu, hcross u hu⟩
  · exact forall_mem_append.mpr ⟨hfuture, forall_mem_cons.mpr ⟨lt_of_le_of_lt h.now hexpire, hfuture'⟩⟩
  · exact forall_mem_append.mpr ⟨hwaiting, forall_mem_cons.mpr ⟨hfresh, hwaiting'⟩⟩
  · exact fun r hr => Nat.lt_succ_of_lt (h.old r hr)

theorem Scheduled.split_at (h : Scheduled b past coming) (expire : SystemTime) :
    ∃ before after, coming = before ++ after ∧ (∀ t ∈ before, t.expire ≤ expire) ∧
      (∀ t ∈ after, expire < t.expire) ∧
      coming.dropWhile (fun tmp => systemTimeTestEarlier expire tmp.expire ≤ 0) = after := by
  refine ⟨coming.takeWhile fun tmp => systemTimeTestEarlier expire tmp.expire ≤ 0, _,
    takeWhile_append_dropWhile.symm, ?_, ?_, rfl⟩
  · intro t ht
    have hle := mem_takeWhile_imp ht
    exact systemTimeTestEarlier_nonpos.mp (decide_eq_true_iff.mp hle)
  · intro t ht
    have hsub := dropWhile_sublist (l := coming) fun tmp =>
      decide (systemTimeTestEarlier expire tmp.expire ≤ 0)
    have hsorted := h.sorted.sublist hsub
    cases hdrop : coming.dropWhile fun tmp => systemTimeTestEarlier expire tmp.expire ≤ 0 with
    | nil =>
      rw [hdrop] at ht
      cases ht
    | cons later rest =>
      have hhead := head_dropWhile_not (fun tmp : Btimer =>
        decide (systemTimeTestEarlier expire tmp.expire ≤ 0)) (by rw [hdrop]; exact cons_ne_nil later rest)
      simp only [hdrop, head_cons, decide_eq_false_iff_not, not_le] at hhead
      have hlater := systemTimeTestEarlier_pos.mp hhead
      rw [hdrop] at ht hsorted
      rcases mem_cons.mp ht with rfl | ht
      · exact hlater
      · exact lt_of_lt_of_le hlater (rel_of_pairwise_cons hsorted ht)

theorem Scheduled.add (h : Scheduled b past coming) (expire : Option SystemTime) :
    ∃ past' coming', Scheduled (addTimerTimerfd b expire) past' coming' := by
  cases expire with
  | none => exact ⟨_, coming, h.addInactive⟩
  | some expire =>
    by_cases hpast : 0 ≤ systemTimeTestEarlier expire b.now
    · refine ⟨past, coming, ?_⟩
      simp only [addTimerTimerfd, if_pos hpast]
      exact h
    · have hexpire : b.now < expire := systemTimeTestEarlier_neg.mp (not_le.mp hpast)
      have hpositive : ∀ e ∈ some expire, zeroTime < e := by
        rintro e he
        cases he
        exact lt_of_le_of_lt h.now hexpire
      obtain ⟨before, after, rfl, hbefore, hafter, hdrop⟩ := h.split_at expire
      refine ⟨past, before ++ ⟨b.allocated, b.id, expire⟩ :: after, ?_⟩
      have hinsert := h.insert (u32 (b.id + 1)) (t := ⟨b.allocated, b.id, expire⟩) rfl hexpire hbefore hafter
      have hplace {c : Btimer} {front rest : List Btimer}
          (hsplit : past ++ (before ++ after) = front ++ c :: rest) :
          Linked.insertBefore Btimer.addr c.addr ⟨b.allocated, b.id, expire⟩ b.timers =
            front ++ ⟨b.allocated, b.id, expire⟩ :: c :: rest := by
        rw [h.timers, hsplit]
        exact Linked.insertBefore_append_cons (Linked.ne_of_nodup_append_cons (hsplit ▸ h.nodup)) rfl
      have hwalk {c : Btimer} {rest : List Btimer} (hsplit : before ++ after = c :: rest) :
          b.current = some c.addr ∧ b.armed = some c.expire ∧
            (Linked.suffix Btimer.addr c.addr b.timers).dropWhile
              (fun tmp => systemTimeTestEarlier expire tmp.expire ≤ 0) = after := by
        rw [hsplit] at h hdrop
        exact ⟨h.current, h.armed, h.suffix_current.symm ▸ hdrop⟩
      suffices heq : addTimerTimerfd b (some expire) = _ from heq ▸ hinsert
      cases before with
      | nil =>
        cases after with
        | nil =>
          have hcurrent : b.current = none := h.current
          simp [addTimerTimerfd, hpast, hcurrent, adjustBtimerBackend_eq _ hpositive, h.timers,
            BtimerBackend.arrange]
        | cons c after =>
          obtain ⟨hcurrent, -, hdrop⟩ := hwalk rfl
          simp [addTimerTimerfd, hpast, hcurrent, hdrop, adjustBtimerBackend_eq _ hpositive, hplace rfl,
            BtimerBackend.arrange]
      | cons c before =>
        obtain ⟨hcurrent, harmed, hdrop⟩ := hwalk rfl
        cases after with
        | nil =>
          simp only [addTimerTimerfd, if_neg hpast, hcurrent, hdrop]
          simp [harmed, h.timers, BtimerBackend.arrange]
        | cons later after =>
          have hsplit : past ++ (c :: before ++ later :: after) = (past ++ c :: before) ++ later :: after :=
            (append_assoc ..).symm
          have hne : c.addr ≠ later.addr :=
            Linked.ne_of_nodup_append_cons (hsplit ▸ h.nodup) c (mem_append_right _ mem_cons_self)
          simp [addTimerTimerfd, hpast, hcurrent, hdrop, hne.symm, harmed, hplace hsplit,
            BtimerBackend.arrange]

end Osns
