import Osns.Verification.Skiplist.Search

/-! Moving dirnodes, creating them and correcting the lanes never leaves the dirnodes there are. Only the
level of a new dirnode needs the lanes to be counted. -/

namespace Osns

open Option Transition List

section Walks

variable {α : Type} [DecidableEq α]

theorem walkLeft_dirnode (before : List α) (e : α) (move : SlMove α) :
    (walkLeft before e move).2.dirnode = move.dirnode := by
  induction before generalizing e move with
  | nil => rfl
  | cons prev before ih =>
    rw [walkLeft]
    split
    · split
      · rfl
      · rw [ih]
    · rfl

theorem walkRight_dirnode (after : List α) (e : α) (move : SlMove α) :
    (walkRight after e move).2.dirnode = move.dirnode := by
  induction after generalizing e move with
  | nil => rfl
  | cons next after ih =>
    rw [walkRight]
    split
    · split
      · rfl
      · rw [ih]
    · rfl

end Walks

section Moves

variable {α : Type} {base lanes : Lanes α} {vector : SlVector} {move : SlMove α} {d level : ℕ}

/-! ## Moving a dirnode -/

/-- The lanes that have grown from others, and a dirnode to be corrected that is not the first one. -/
structure MoveSound (base : Lanes α) (r : Lanes α × SlMove α) : Prop where
  sound : r.1.Sound
  grown : base.Extends r.1
  dirnode : ∀ d, r.2.dirnode = some d → d ≠ slStart ∧ r.1.Valid d 0

theorem moveSound_of_none (hs : lanes.Sound) (hmove : move.dirnode = none) :
    MoveSound lanes (lanes, move) where
  sound := hs
  grown := .refl lanes
  dirnode := by
    intro d hd
    rw [hmove] at hd
    cases hd

theorem moveSound_of_valid (hs : lanes.Sound) (hmove : move.dirnode = some d) (hne : d ≠ slStart)
    (hd : lanes.Valid d 0) : MoveSound lanes (lanes, move) where
  sound := hs
  grown := .refl lanes
  dirnode := by
    intro x hx
    rw [hmove] at hx
    cases hx
    exact ⟨hne, hd⟩

theorem moveDirnode_sound {walk : α → SlMove α → α × SlMove α}
    (hwalk : ∀ e move, (walk e move).2.dirnode = move.dirnode) (h : MoveSound base (lanes, move))
    (hmove : move.dirnode.isSome) :
    ∃ r, lanes.moveDirnode walk move = some r ∧ MoveSound base r := by
  obtain ⟨d, hd⟩ := isSome_iff_exists.mp hmove
  obtain ⟨hne, dirnode, hdirnode, hlen⟩ := h.dirnode d hd
  obtain ⟨e, he⟩ := isSome_iff_exists.mp (h.sound.others d dirnode hne hdirnode).2
  obtain ⟨hsound, hextends⟩ : Lanes.Sound { lanes with
        dirnodes := lanes.dirnodes.set d { dirnode with list := some (walk e move).1 } } ∧ _ :=
    h.sound.set hdirnode rfl (fun hzero => absurd hzero hne) (fun _ => ⟨rfl, rfl⟩)
      (fun l junction => h.sound.links d dirnode l junction hdirnode)
  refine ⟨_, by rw [Lanes.moveDirnode, hd, bind_eq_bind, bind_some, hdirnode,
    bind_eq_bind, bind_some, he]; rfl, hsound, h.grown.trans hextends, ?_⟩
  intro x hx
  rw [hwalk, hd] at hx
  cases hx
  exact ⟨hne, hextends.valid d 0 ⟨dirnode, hdirnode, hlen⟩⟩

theorem moveSlDirnodeLeft_sound [DecidableEq α] (list : List α) (h : MoveSound base (lanes, move))
    (hmove : move.dirnode.isSome) :
    ∃ r, moveSlDirnodeLeft lanes list move = some r ∧ MoveSound base r :=
  moveDirnode_sound (fun e move => walkLeft_dirnode (elementsBefore list e) e move) h hmove

theorem moveSlDirnodeRight_sound [DecidableEq α] (list : List α) (h : MoveSound base (lanes, move))
    (hmove : move.dirnode.isSome) :
    ∃ r, moveSlDirnodeRight lanes list move = some r ∧ MoveSound base r :=
  moveDirnode_sound (fun e move => walkRight_dirnode (elementsAfter list e) e move) h hmove

/-! ## New dirnodes -/

/-- On no lane the number of dirnodes has gone down below zero. -/
def Lanes.Counted (lanes : Lanes α) : Prop :=
  ∀ level junction, lanes.junction slStart level = some junction → u32 (junction.count + 1) ≠ 0

/-- Only the first dirnode counts. -/
instance Lanes.decidableCounted : Decidable lanes.Counted :=
  decidable_of_iff
    (∀ dirnode ∈ lanes.dirnodes[slStart]?, ∀ junction ∈ dirnode.junction, u32 (junction.count + 1) ≠ 0) (by
      constructor
      · intro h level junction hjunction
        obtain ⟨dirnode, hdirnode, hlevel⟩ := bind_eq_some_iff.mp hjunction
        exact h dirnode hdirnode junction (mem_of_getElem? hlevel)
      · intro h dirnode hdirnode junction hmem
        obtain ⟨level, hlevel⟩ := mem_iff_getElem?.mp hmem
        exact h level junction (bind_eq_some_iff.mpr ⟨dirnode, hdirnode, hlevel⟩))

theorem levelupStep_isSome (hs : lanes.Sound) (hcounted : lanes.Counted)
    (hlevel : level ≤ lanes.maxlevel + 1) (r : ℕ × Option ℕ) :
    ∃ r', levelupStep lanes r level = some r' := by
  obtain ⟨junction, hjunction, -⟩ := hs.junction (hs.valid_start hlevel)
  rw [levelupStep, hjunction, bind_eq_bind, bind_some]
  simp only
  rw [if_neg (hcounted level junction hjunction)]
  exact ⟨_, rfl⟩

theorem doLevelup_isSome (hs : lanes.Sound) (hcounted : lanes.Counted) (count : ℕ) :
    ∃ newlevel, doLevelup lanes count = some newlevel := by
  obtain ⟨level, hlevel, hle⟩ := hs.exists_level
  rw [doLevelup, hlevel, bind_eq_bind, bind_some]
  split
  · obtain ⟨r, hr, -⟩ : ∃ r, run (levelupStep lanes) (u32 count, none)
        (range (level + 1)) = some r ∧ True := by
      refine run_total (P := fun ctr => ctr ≤ lanes.maxlevel + 1) (I := fun _ => True)
        ?_ True.intro ?_
      · intro r ctr _ hctr
        obtain ⟨r', hr'⟩ := levelupStep_isSome hs hcounted hctr r
        exact ⟨r', hr', True.intro⟩
      · intro ctr hctr
        rw [mem_range] at hctr
        omega
    rw [hr]
    exact ⟨_, rfl⟩
  · exact ⟨_, rfl⟩

def SoundUnlessDivided (lanes : Lanes α) (count : ℕ) (r : Option (Lanes α × SlMove α)) : Prop :=
  (r = none ∧ doLevelup lanes count = none) ∨ ∃ r', r = some r' ∧ MoveSound lanes r'

theorem insertSlDirnode_sound (hs : lanes.Sound) (count : ℕ) (e : α) (hmove : move.dirnode = none) :
    SoundUnlessDivided lanes count (insertSlDirnode lanes count e move) := by
  cases hnewlevel : doLevelup lanes count with
  | none =>
    refine .inl ⟨?_, hnewlevel⟩
    rw [insertSlDirnode, hnewlevel, bind_eq_bind, bind_none]
  | some newlevel =>
    refine .inr ?_
    rw [insertSlDirnode, hnewlevel, bind_eq_bind, bind_some]
    cases newlevel with
    | none => exact ⟨_, rfl, moveSound_of_none hs hmove⟩
    | some newlevel =>
      have hle : min newlevel lanes.maxlevel ≤ lanes.maxlevel := Nat.min_le_right _ _
      obtain ⟨hsound, hextends⟩ := hs.append e hle
      obtain ⟨lanes', hraise, hsound', hextends', -⟩ := hsound.raise hle
      refine ⟨(lanes', { move with dirnode := some lanes.dirnodes.length }), ?_, hsound',
        hextends.trans hextends', ?_⟩
      · simp [hraise]
      · rintro d ⟨⟩
        obtain ⟨first, hfirst, -⟩ := hs.start
        have hpos : 0 < lanes.dirnodes.length := (List.getElem?_eq_some_iff.mp hfirst).1
        refine ⟨Nat.ne_of_gt hpos, hextends'.valid _ _
          ⟨createSlDirnode e (min newlevel lanes.maxlevel), getElem?_concat_length, ?_⟩⟩
        simp [createSlDirnode]

theorem insertSlDirnodeMoved_sound
    {moveSlDirnode : Lanes α → SlMove α → Option (Lanes α × SlMove α)}
    (hmoved : ∀ base lanes move, MoveSound base (lanes, move) → move.dirnode.isSome →
      ∃ r, moveSlDirnode lanes move = some r ∧ MoveSound base r)
    (hs : lanes.Sound) (count : ℕ) (e : α) (hmove : move.dirnode = none) :
    SoundUnlessDivided lanes count (insertSlDirnodeMoved moveSlDirnode lanes count e move) := by
  rcases insertSlDirnode_sound hs count e hmove with ⟨hr, hnone⟩ | ⟨r, hr, hsound⟩
  · refine .inl ⟨?_, hnone⟩
    rw [insertSlDirnodeMoved, hr, bind_eq_bind, bind_none]
  · refine .inr ?_
    rw [insertSlDirnodeMoved, hr, bind_eq_bind, bind_some]
    split
    · exact hmoved lanes r.1 r.2 hsound ‹_›
    · exact ⟨r, rfl, hsound⟩

theorem insertDirnodes_sound [DecidableEq α] (hs : lanes.Sound) (list : List α) (count : ℕ) (e : α)
    (move : SlMove α) (hmove : move.dirnode = none) :
    SoundUnlessDivided lanes count (insertDirnodes lanes list count e move) := by
  have hkeep : SoundUnlessDivided lanes count (some (lanes, move)) :=
    .inr ⟨_, rfl, moveSound_of_none hs hmove⟩
  rw [insertDirnodes]
  split
  · exact insertSlDirnode_sound hs count e hmove
  · split
    · split
      · exact insertSlDirnodeMoved_sound (fun _ _ _ => moveSlDirnodeLeft_sound list) hs count e hmove
      · split
        · exact insertSlDirnodeMoved_sound (fun _ _ _ => moveSlDirnodeRight_sound list) hs count e
            hmove
        · exact hkeep
    · exact hkeep

/-! ## Correcting the lanes -/

variable {r : Lanes α × SlMove α}

theorem dirnodeAt_valid (h : MoveSound base r) (hd : r.2.dirnodeAt r.1 level = some d) :
    r.2.dirnode = some d ∧ r.1.Valid d level := by
  simp only [SlMove.dirnodeAt, bind_eq_some_iff] at hd
  obtain ⟨x, hx, dirnode, hdirnode, hite⟩ := hd
  split at hite
  · cases hite
    have hlen := (h.sound.others d _ (h.dirnode d hx).1 hdirnode).1
    exact ⟨hx, _, hdirnode, by omega⟩
  · cases hite

theorem MoveSound.grow {r' : Lanes α × SlMove α} (h : MoveSound base r) (hsound : r'.1.Sound)
    (hextends : r.1.Extends r'.1) (hmove : ∀ d, r'.2.dirnode = some d → r.2.dirnode = some d) :
    MoveSound base r' where
  sound := hsound
  grown := h.grown.trans hextends
  dirnode := by
    intro d hd
    obtain ⟨hne, hvalid⟩ := h.dirnode d (hmove d hd)
    exact ⟨hne, hextends.valid d 0 hvalid⟩

theorem modify_path_sound {f : Junction → Junction} (h : MoveSound base r)
    (hpath : base.Valid d level) (hn : ∀ j, (f j).n = j.n) (hp : ∀ j, (f j).p = j.p) :
    ∃ r', (r.1.modify d level f).map (fun lanes => (lanes, r.2)) = some r' ∧ MoveSound base r' := by
  obtain ⟨lanes', hmodify, hsound, hextends⟩ := h.sound.modify (.refl _)
    (h.grown.valid d level hpath) fun j => ⟨.inl (hn j), .inl (hp j)⟩
  exact ⟨(lanes', r.2), by rw [hmodify, map_some], h.grow hsound hextends fun _ hd => hd⟩

theorem skippedSteps_isSome (vector : SlVector) (move : SlMove α) {prev next : ℕ} (hs : lanes.Sound)
    (hpath : ∀ i, i ≤ level → lanes.Valid (vector.path i) i) (hprev : lanes.Valid prev level)
    (hnext : lanes.Valid next level) :
    ∃ move', skippedSteps lanes vector prev next move level = some move' ∧
      move'.dirnode = move.dirnode := by
  cases level with
  | zero => exact ⟨move, rfl, rfl⟩
  | succ below =>
    have hle : below ≤ below + 1 := Nat.le_succ below
    obtain ⟨jprev, hjprev, -⟩ := hs.junction (hprev.mono hle)
    obtain ⟨junction, hjunction, -⟩ := hs.junction (hpath below hle)
    obtain ⟨behind, hbehind, -, hp⟩ := hs.junction (hnext.mono hle)
    obtain ⟨jp, hjp, -⟩ := hs.junction hp
    rw [skippedSteps]
    by_cases hleft : prev = vector.path below
    · by_cases hright : next = junction.n
      · simp [hleft, hright, hjunction]
      · simp [hleft, hright, hjunction, hbehind, hjp]
    · by_cases hright : next = junction.n
      · simp [hleft, hright, hjprev, hjunction]
      · simp [hleft, hright, hjprev, hjunction, hbehind, hjp]

theorem linkDirnode_sound (h : MoveSound base r)
    (hpath : ∀ i, i ≤ level → base.Valid (vector.path i) i) (hlevel : level ≤ base.maxlevel + 1)
    (hd : r.1.Valid d level) :
    ∃ r', linkDirnode vector r.1 r.2 d level = some r' ∧ MoveSound base r' := by
  have hprev := h.grown.valid _ _ (hpath level (Nat.le_refl level))
  have hstart : r.1.Valid slStart level := h.sound.valid_start (by rw [h.grown.maxlevel]; exact hlevel)
  obtain ⟨junction, hjunction, hnext, -⟩ := h.sound.junction hprev
  -- The four links of the new dirnode.
  obtain ⟨l₁, hl₁, hs₁, hx₁⟩ := h.sound.modify (f := fun j => { j with n := d }) (.refl _) hprev
    fun j => ⟨.inr hd, .inl rfl⟩
  obtain ⟨l₂, hl₂, hs₂, hx₂⟩ := hs₁.modify (f := fun j => { j with p := vector.path level }) hx₁ hd
    fun j => ⟨.inl rfl, .inr hprev⟩
  obtain ⟨l₃, hl₃, hs₃, hx₃⟩ := hs₂.modify (f := fun j => { j with p := d }) hx₂ hnext
    fun j => ⟨.inl rfl, .inr hd⟩
  obtain ⟨l₄, hl₄, hs₄, hx₄⟩ := hs₃.modify (f := fun j => { j with n := junction.n }) hx₃ hd
    fun j => ⟨.inr hnext, .inl rfl⟩
  -- The steps on both sides, and the number of dirnodes.
  obtain ⟨move', hmove', hdirnode⟩ := skippedSteps_isSome vector r.2 hs₄
    (fun i hi => hx₄.valid _ _ (h.grown.valid _ _ (hpath i hi))) (hx₄.valid _ _ hprev)
    (hx₄.valid _ _ hnext)
  obtain ⟨l₅, hl₅, hs₅, hx₅⟩ := hs₄.modify (f := fun j =>
    { j with step := move'.left }) hx₄ hprev fun _ => ⟨.inl rfl, .inl rfl⟩
  obtain ⟨l₆, hl₆, hs₆, hx₆⟩ := hs₅.modify (f := fun j =>
    { j with step := move'.right }) hx₅ hd fun _ => ⟨.inl rfl, .inl rfl⟩
  obtain ⟨l₇, hl₇, hs₇, hx₇⟩ := hs₆.modify (f := fun j => { j with count := u32 (j.count + 1) }) hx₆
    hstart fun _ => ⟨.inl rfl, .inl rfl⟩
  refine ⟨(l₇, move'), ?_, h.grow hs₇ hx₇ fun x hx => by rw [← hdirnode]; exact hx⟩
  simp [linkDirnode, hjunction, hl₁, hl₂, hl₃, hl₄, hmove', hl₅, hl₆, hl₇]

theorem unlinkDirnode_sound (h : MoveSound base r)
    (hlevel : level ≤ base.maxlevel + 1) (hd : r.1.Valid d level) :
    ∃ r', unlinkDirnode r.1 r.2 d level = some r' ∧ MoveSound base r' := by
  obtain ⟨dirnode, hdirnode, hlen⟩ := hd
  have hjunction : dirnode.junction[level]? = some dirnode.junction[level] :=
    getElem?_eq_getElem hlen
  obtain ⟨hnext, hprev⟩ := h.sound.links d dirnode level _ hdirnode hjunction
  have hstart : r.1.Valid slStart level := h.sound.valid_start (by rw [h.grown.maxlevel]; exact hlevel)
  obtain ⟨l₁, hl₁, hs₁, hx₁⟩ := h.sound.modify (f := fun j => { j with
      n := dirnode.junction[level].n
      step := u32Sub (u32 (j.step + dirnode.junction[level].step)) 1 }) (.refl _) hprev
    fun j => by simp [hnext]
  obtain ⟨l₂, hl₂, hs₂, hx₂⟩ := hs₁.modify (f := fun j => { j with count := u32Sub j.count 1 }) hx₁
    hstart fun j => ⟨.inl rfl, .inl rfl⟩
  by_cases htop : level = dirnode.level
  · refine ⟨({ l₂ with freed := d :: l₂.freed }, { r.2 with dirnode := none }), ?_,
      h.grow ⟨hs₂.start, hs₂.others, hs₂.links⟩ ⟨hx₂.prob, hx₂.maxlevel, hx₂.valid⟩ ?_⟩
    · simp [unlinkDirnode, hdirnode, hjunction, hl₁, hl₂, if_pos htop]
    · rintro x ⟨⟩
  · refine ⟨(l₂, r.2), ?_, h.grow hs₂ hx₂ fun x hx => hx⟩
    simp [unlinkDirnode, hdirnode, hjunction, hl₁, hl₂, htop]

theorem shiftDirnode_sound (h : MoveSound base r) (hd : r.1.Valid d level) :
    ∃ r', shiftDirnode r.1 r.2 d level = some r' ∧ MoveSound base r' := by
  obtain ⟨junction, hjunction, -, hprev⟩ := h.sound.junction hd
  obtain ⟨l₁, hl₁, hs₁, hx₁⟩ := h.sound.modify
    (f := fun j => { j with step := addStep j.step r.2.step }) (.refl _) hprev
    fun j => ⟨.inl rfl, .inl rfl⟩
  obtain ⟨l₂, hl₂, hs₂, hx₂⟩ := hs₁.modify
    (f := fun j => { j with step := addStep j.step (-r.2.step) }) hx₁ hd fun j => ⟨.inl rfl, .inl rfl⟩
  have hside : r.1.Valid (if r.2.dirnodeRight then junction.p else d) level := by
    split
    · exact hprev
    · exact hd
  obtain ⟨l₃, hl₃, hs₃, hx₃⟩ := hs₂.modify (f := fun j => { j with step := u32Sub j.step 1 }) hx₂ hside
    fun j => ⟨.inl rfl, .inl rfl⟩
  refine ⟨(l₃, r.2), ?_, h.grow hs₃ hx₃ fun x hx => hx⟩
  simp [shiftDirnode, hjunction, hl₁, hl₂, hl₃]

/-! ## The whole vector -/

/-- A correction that can be made on every level of a vector keeps the lanes sound. -/
def Corrects (cb : SlVector → Lanes α × SlMove α → ℕ → Option (Lanes α × SlMove α)) : Prop :=
  ∀ (base : Lanes α) (vector : SlVector) (r : Lanes α × SlMove α) (level : ℕ), MoveSound base r →
    (∀ i, i ≤ level → base.Valid (vector.path i) i) → level ≤ base.maxlevel + 1 →
      ∃ r', cb vector r level = some r' ∧ MoveSound base r'

theorem correctDirnodesInsert_corrects : Corrects (correctDirnodesInsert (α := α)) := by
  intro base vector r level h hpath hlevel
  rw [correctDirnodesInsert]
  cases hd : r.2.dirnodeAt r.1 level with
  | some d => exact linkDirnode_sound h hpath hlevel (dirnodeAt_valid h hd).2
  | none => exact modify_path_sound h (hpath level (Nat.le_refl level)) (fun _ => rfl) fun _ => rfl

theorem correctSlDirnodesRemove_corrects : Corrects (correctSlDirnodesRemove (α := α)) := by
  intro base vector r level h hpath hlevel
  rw [correctSlDirnodesRemove]
  cases hd : r.2.dirnodeAt r.1 level with
  | some d => exact unlinkDirnode_sound h hlevel (dirnodeAt_valid h hd).2
  | none => exact modify_path_sound h (hpath level (Nat.le_refl level)) (fun _ => rfl) fun _ => rfl

theorem correctSlDirnodesMove_corrects : Corrects (correctSlDirnodesMove (α := α)) := by
  intro base vector r level h hpath hlevel
  rw [correctSlDirnodesMove]
  cases hd : r.2.dirnodeAt r.1 level with
  | some d => exact shiftDirnode_sound h (dirnodeAt_valid h hd).2
  | none => exact modify_path_sound h (hpath level (Nat.le_refl level)) (fun _ => rfl) fun _ => rfl

theorem removeLockVector_sound (vector : SlVector)
    {cb : SlVector → Lanes α × SlMove α → ℕ → Option (Lanes α × SlMove α)} (hcb : Corrects cb)
    (h : MoveSound base (lanes, move)) (hpath : base.PathSound vector.maxlevel vector.path)
    (hmax : vector.maxlevel ≤ base.maxlevel + 1) :
    ∃ lanes', removeLockVector cb vector lanes move = some lanes' ∧ lanes'.Sound := by
  obtain ⟨r, hr, hsound⟩ : ∃ r, run (cb vector) (lanes, move)
      (range (vector.maxlevel + 1)) = some r ∧ MoveSound base r := by
    refine run_total (P := fun level => level ≤ vector.maxlevel) ?_ h ?_
    · intro r level hr hlevel
      exact hcb base vector r level hr (fun i hi => hpath i (Nat.le_trans hi hlevel))
        (Nat.le_trans hlevel hmax)
    · intro level hlevel
      exact Nat.lt_succ_iff.mp (mem_range.mp hlevel)
  exact ⟨r.1, by rw [removeLockVector, hr, map_some], hsound.sound⟩

theorem upgradeReadlockVector_sound (hs : lanes.Sound)
    (hpath : lanes.PathSound vector.maxlevel vector.path) :
    ∃ v, upgradeReadlockVector lanes vector d = some v ∧ v.maxlevel = vector.maxlevel ∧
      lanes.PathSound v.maxlevel v.path := by
  obtain ⟨v, hv, hmax, hpath⟩ : ∃ v, upgradeReadlockVector lanes vector d = some v ∧
      v.maxlevel = vector.maxlevel ∧ lanes.PathSound vector.maxlevel v.path := by
    refine run_total (P := fun level => level ≤ vector.maxlevel)
      (I := fun v : SlVector => v.maxlevel = vector.maxlevel ∧
        lanes.PathSound vector.maxlevel v.path) ?_ ⟨rfl, hpath⟩ ?_
    · rintro v level ⟨hmax, hv⟩ hlevel
      split
      · have hd : lanes.Valid d level := by
          have hvalid := hv level hlevel
          rwa [‹v.path level = d›] at hvalid
        obtain ⟨junction, hjunction, -, hp⟩ := hs.junction hd
        rw [hjunction, map_some]
        exact ⟨_, rfl, hmax, pathSound_update hv (hp.mono (Nat.zero_le level))⟩
      · exact ⟨v, rfl, hmax, hv⟩
    · intro level hlevel
      exact Nat.lt_succ_iff.mp (mem_range.mp hlevel)
  exact ⟨v, hv, hmax, by rw [hmax]; exact hpath⟩

end Moves

end Osns
