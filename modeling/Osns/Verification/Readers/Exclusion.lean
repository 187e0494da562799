import Osns.Verification.Readers.Steps

/-! The flag and the counter keep the read buffer to one thread, as long as no thread takes the flag from
another one. Whenever there are bytes in the buffer, some thread is going to look at them. -/

namespace Osns

open Option Threads Function

section Exclusion

variable {ι σ : Type}

/-- The flag names the thread that has it, the counter counts the one that reads, and calls are without
effect only while there is one. -/
structure Excluded (s : ReadState ι σ) : Prop where
  flag : ∀ i, s.flag = some i ↔ (s.reader i).any ReaderPc.flagged
  alone : AtMostOne s.reader fun pc => pc.exclusive
  inside : All s.reader fun _ pc => pc.inside → s.threads = 1
  outside : ¬ Any s.reader (fun _ pc => pc.inside) → s.threads = 0
  closed : s.reading = false → Any s.reader fun _ pc => pc.closed

variable {c : ReadSetup σ} {s s' : ReadState ι σ} {i : ι} {new : Option (ReaderPc σ)}

variable {pc : ReaderPc σ}

theorem Excluded.flag_iff (h : Excluded s) (hi : s.reader i = some pc) :
    s.flag = some i ↔ pc.flagged := by
  rw [h.flag, hi, any_some]

variable {pc' : ReaderPc σ}

section

variable (h : Excluded s) (hi : s.reader i = some pc)

include h hi

theorem Excluded.not_inside_of_exclusive (hpc : pc.exclusive) {j : ι} (hji : j ≠ i)
    (hj : s.reader j = some pc') : ¬ pc'.inside := by
  intro hinside
  exact hji (h.alone j i pc' pc hj hi (ReaderPc.exclusive_of_inside hinside) hpc)

theorem Excluded.threads_eq_zero (hpc : pc.exclusive) (hnot : ¬ pc.inside) : s.threads = 0 := by
  refine h.outside ?_
  rintro ⟨j, pc', hj, hinside⟩
  by_cases hji : j = i
  · subst hji
    rw [hi] at hj
    cases hj
    exact hnot hinside
  · exact h.not_inside_of_exclusive hi hpc hji hj hinside

theorem Excluded.not_flagged (hpc : pc.flagged) {j : ι} (hji : j ≠ i) (hj : s.reader j = some pc') :
    ¬ pc'.flagged := by
  intro hflagged
  have hfi : s.flag = some i := (h.flag i).mpr (by rw [hi]; exact hpc)
  have hfj : s.flag = some j := (h.flag j).mpr (by rw [hj]; exact hflagged)
  rw [hfi] at hfj
  cases hfj
  exact hji rfl

theorem Excluded.unlocked (hpc : pc.flagged) (j : ι) (hj : j ≠ i) : none = some j ↔ s.flag = some j := by
  rw [(h.flag_iff hi).mpr hpc]
  exact iff_of_false (some_ne_none j).symm fun heq => hj (some.inj heq).symm

end

variable [DecidableEq ι]

theorem Excluded.thread (h : Excluded s) (hreader : s'.reader = update s.reader i new)
    (hflag : ∀ j, j ≠ i → (s'.flag = some j ↔ s.flag = some j))
    (hflagged : s'.flag = some i ↔ new.any ReaderPc.flagged)
    (halone : new.any ReaderPc.exclusive → (s.reader i).any ReaderPc.exclusive ∨
      ∀ j pc, j ≠ i → s.reader j = some pc → ¬ pc.exclusive)
    (hthreads : (s'.threads = s.threads ∧ new.any ReaderPc.inside = (s.reader i).any ReaderPc.inside) ∨
      (∀ j pc, j ≠ i → s.reader j = some pc → ¬ pc.inside) ∧
        s'.threads = if new.any ReaderPc.inside then 1 else 0)
    (hclosed : s'.reading = false → new.any ReaderPc.closed ∨
      s.reading = false ∧ (s.reader i).any ReaderPc.closed = false) : Excluded s' := by
  have hself : s'.reader i = new := by rw [hreader, update_self]
  have hother : ∀ j, j ≠ i → s'.reader j = s.reader j := by
    intro j hj
    rw [hreader, update_of_ne hj]
  refine ⟨?_, ?_, ?_, ?_, ?_⟩
  · intro j
    by_cases hj : j = i
    · subst hj
      rw [hself]
      exact hflagged
    · rw [hother j hj, hflag j hj]
      exact h.flag j
  · rw [hreader]
    refine h.alone.update fun pc hnew hpc => ?_
    rcases halone (by rw [hnew]; exact hpc) with hold | hnone
    · exact .inl ((any_eq_true _ _).mp hold)
    · exact .inr hnone
  · rcases hthreads with ⟨heq, hsame⟩ | ⟨hnone, heq⟩
    · rw [hreader, heq]
      refine h.inside.update fun pc hnew hpc => ?_
      rw [hnew, any_some, hpc] at hsame
      obtain ⟨b, hb, hinside⟩ := (any_eq_true _ _).mp hsame.symm
      exact h.inside i b hb hinside
    · rw [hreader]
      refine all_update ?_ fun j pc hj hpc hinside => absurd hinside (hnone j pc hj hpc)
      intro pc hnew hpc
      rw [heq, hnew, any_some, if_pos hpc]
  · intro hno
    have hnew : ¬ new.any ReaderPc.inside := by
      intro hany
      obtain ⟨pc, hpc, hinside⟩ := (any_eq_true _ _).mp hany
      exact hno ⟨i, pc, hself.trans hpc, hinside⟩
    rcases hthreads with ⟨heq, hsame⟩ | ⟨-, heq⟩
    · rw [heq]
      refine h.outside ?_
      rintro ⟨j, pc, hj, hinside⟩
      by_cases hji : j = i
      · subst hji
        rw [hsame, hj] at hnew
        exact hnew hinside
      · exact hno ⟨j, pc, (hother j hji).trans hj, hinside⟩
    · rw [heq, if_neg hnew]
  · intro hreading
    rcases hclosed hreading with hany | ⟨hold, hnot⟩
    · obtain ⟨pc, hpc, hc⟩ := (any_eq_true _ _).mp hany
      exact ⟨i, pc, hself.trans hpc, hc⟩
    · obtain ⟨j, pc, hj, hc⟩ := h.closed hold
      have hji : j ≠ i := by
        rintro rfl
        rw [hj, any_some, hc] at hnot
        cases hnot
      exact ⟨j, pc, (hother j hji).trans hj, hc⟩

theorem Excluded.quiet (h : Excluded s) (hreader : s'.reader = update s.reader i new)
    (hflag : s'.flag = s.flag) (hthreads : s'.threads = s.threads) (hreading : s'.reading = s.reading)
    (hflagged : new.any ReaderPc.flagged = (s.reader i).any ReaderPc.flagged)
    (hexclusive : new.any ReaderPc.exclusive = (s.reader i).any ReaderPc.exclusive)
    (hinside : new.any ReaderPc.inside = (s.reader i).any ReaderPc.inside)
    (hclosed : new.any ReaderPc.closed = (s.reader i).any ReaderPc.closed) : Excluded s' := by
  refine h.thread hreader (fun j _ => by rw [hflag]) ?_ ?_ (.inl ⟨hthreads, hinside⟩) ?_
  · rw [hflag, hflagged]
    exact h.flag i
  · intro hany
    rw [hexclusive] at hany
    exact .inl hany
  · intro hfalse
    rw [hreading] at hfalse
    cases hany : (s.reader i).any ReaderPc.closed with
    | true => exact .inl (hclosed.trans hany)
    | false => exact .inr ⟨hfalse, rfl⟩

/-- The flag is not unset while a thread has it that has locked it. -/
def KeepsFlag (s : ReadState ι σ) : ReadAction ι → Prop
  | .advance i => (∃ m, s.reader i = some (.left m)) → s.flag = none
  | _ => True

variable {a : ReadAction ι}

/-- Only the thread that has the flag changes what it guards. -/
theorem Excluded.step (h : Excluded s) (hkeeps : KeepsFlag s a) (hstep : ReadStep c s a s') :
    Excluded s' := by
  cases hstep with
  | recv _ _ _ _ | copy _ | ignore _ _ _ => exact { h with }
  | start hi _ _ | get hi _ | create hi _ | refuse hi _ | depart hi | header hi _ _ | take hi _
  | preProcess hi | openMessage hi _ | postProcess01 hi =>
    exact h.quiet rfl rfl rfl rfl (by rw [hi]; rfl) (by rw [hi]; rfl) (by rw [hi]; rfl) (by rw [hi]; rfl)
  | deliver hi hm =>
    refine h.quiet rfl rfl rfl rfl ?_ ?_ ?_ ?_
    all_goals
      rw [hi, any_some, any_some]
      split <;> rfl
  | lock hi hflag =>
    refine h.thread rfl ?_ (iff_of_true rfl rfl) nofun
      (.inl ⟨rfl, by rw [hi]; rfl⟩) (fun hfalse => .inr ⟨hfalse, by rw [hi]; rfl⟩)
    intro j hj
    refine iff_of_false (fun heq => hj (some.inj heq).symm) ?_
    rw [hflag]
    exact (some_ne_none j).symm
  | pass hi hthreads hpos =>
    refine h.thread rfl (fun j _ => Iff.rfl) (iff_of_true ((h.flag_iff hi).mpr rfl) rfl) ?_
      (.inl ⟨rfl, by rw [hi]; rfl⟩) (fun hfalse => .inr ⟨hfalse, by rw [hi]; rfl⟩)
    -- nobody is counted, and nobody else has the flag
    intro _
    refine .inr fun j pc hj hpc hexclusive => ?_
    rcases ReaderPc.inside_or_flagged_of_exclusive hexclusive with hinside | hflagged
    · have hone := h.inside j pc hpc hinside
      rw [hthreads] at hone
      cases hone
    · exact h.not_flagged hi rfl hj hpc hflagged
  | count hi =>
    refine h.thread rfl (fun j _ => Iff.rfl) (iff_of_true ((h.flag_iff hi).mpr rfl) rfl)
      (fun _ => .inl (by rw [hi]; rfl)) (.inr ⟨fun j pc hj hpc => ?_, ?_⟩)
      (fun hfalse => .inr ⟨hfalse, by rw [hi]; rfl⟩)
    · exact h.not_inside_of_exclusive hi rfl hj hpc
    · change s.threads + 1 = 1
      rw [h.threads_eq_zero hi rfl Bool.false_ne_true]
  | disable hi =>
    exact h.thread rfl (fun j _ => Iff.rfl) (iff_of_true ((h.flag_iff hi).mpr rfl) rfl)
      (fun _ => .inl (by rw [hi]; rfl)) (.inl ⟨rfl, by rw [hi]; rfl⟩) (fun _ => .inl rfl)
  | unlock hi =>
    exact h.thread rfl (h.unlocked hi rfl) (iff_of_false (some_ne_none _).symm Bool.false_ne_true)
      (fun _ => .inl (by rw [hi]; rfl)) (.inl ⟨rfl, by rw [hi]; rfl⟩) (fun _ => .inl rfl)
  | unlockRefused hi =>
    exact h.thread rfl (h.unlocked hi rfl) (iff_of_false (some_ne_none _).symm Bool.false_ne_true)
      nofun (.inl ⟨rfl, by rw [hi]; rfl⟩) (fun hfalse => .inr ⟨hfalse, by rw [hi]; rfl⟩)
  | enable hi =>
    exact h.thread rfl (fun j _ => Iff.rfl) (h.flag_iff hi) (fun _ => .inl (by rw [hi]; rfl))
      (.inl ⟨rfl, by rw [hi]; rfl⟩) (fun hfalse => absurd hfalse.symm Bool.false_ne_true)
  | uncount hi =>
    refine h.thread rfl (fun j _ => Iff.rfl) (h.flag_iff hi) nofun
      (.inr ⟨fun j pc hj hpc => h.not_inside_of_exclusive hi rfl hj hpc, ?_⟩)
      (fun hfalse => .inr ⟨hfalse, by rw [hi]; rfl⟩)
    change s.threads - 1 = 0
    rw [h.inside _ _ hi rfl]
  | unset hi =>
    exact h.quiet rfl (hkeeps ⟨_, hi⟩).symm rfl rfl (by rw [hi]; rfl) (by rw [hi]; rfl) (by rw [hi]; rfl)
      (by rw [hi]; rfl)

/-! ## Looking at the bytes -/

/-- When there are bytes, a call is on its way, or a thread will come to the check. -/
def Attended (s : ReadState ι σ) : Prop :=
  0 < s.pos → 0 < s.calls ∨ Any s.reader fun _ pc => ¬ pc.departing

theorem Attended.depart (h : Attended s) (hi : s.reader i = some pc) (hpc : pc.departing)
    (hreader : s'.reader = update s.reader i new) (hpos : s'.pos = s.pos)
    (hcalls : s'.calls = s.calls) : Attended s' := by
  intro hlt
  rw [hpos] at hlt
  rcases h hlt with hcall | hany
  · exact .inl (by rw [hcalls]; exact hcall)
  · refine .inr ?_
    rw [hreader]
    refine hany.update fun b hb hnot => ?_
    rw [hi] at hb
    cases hb
    exact absurd hpc hnot

/-- Behind every receipt of bytes there is a call. -/
theorem Attended.step (h : Attended s) (hexcluded : Excluded s) (hstep : ReadStep c s a s') :
    Attended s' := by
  cases hstep with
  | recv harriving hpos hlen hstore => exact h
  | copy harriving => exact fun _ => .inl (Nat.succ_pos _)
  | ignore hi hcalls hreading =>
    refine fun _ => .inr ((hexcluded.closed hreading).mono fun j pc hclosed => ?_)
    exact ReaderPc.not_departing_of_inside (ReaderPc.inside_of_closed hclosed)
  | start _ _ _ | get _ _ | create _ _ | lock _ _ | pass _ _ _ | count _ | disable _ | unlock _
  | header _ _ _ | take _ _ | enable _ | uncount _ | unset _ | preProcess _ | openMessage _ _
  | postProcess01 _ => exact fun _ => .inr (any_update_self Bool.false_ne_true)
  | deliver hi hm =>
    refine fun _ => .inr (any_update_self ?_)
    split <;> exact Bool.false_ne_true
  | refuse hi hbusy =>
    intro hpos
    have hthreads : s.threads ≠ 0 := by
      rcases hbusy with hthreads | hzero
      · exact Nat.ne_of_gt hthreads
      · exact absurd hzero (Nat.ne_of_gt hpos)
    have hany : Any s.reader fun _ pc => pc.inside := by
      by_contra hnone
      exact hthreads (hexcluded.outside hnone)
    obtain ⟨j, pc, hj, hinside⟩ := hany
    refine .inr ⟨j, pc, ?_, ReaderPc.not_departing_of_inside hinside⟩
    refine (update_of_ne ?_ _ _).trans hj
    rintro rfl
    rw [hi] at hj
    cases hj
    cases hinside
  | unlockRefused hi | depart hi => exact h.depart hi rfl rfl rfl rfl

end Exclusion

end Osns
