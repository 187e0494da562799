import Mathlib.Data.Finset.Card
import Osns.Verification.Skiplist.Correction

/-! What one call does to the set of elements that a skiplist stands for. -/

namespace Osns

open List Option OrderedList

/-! ## The set -/

section Set

variable {α κ : Type} [DecidableEq α] [DecidableEq κ] (key : α → κ)

/-- The set of elements after a call. A key that is taken is not taken again. -/
def SlOp.apply (S : Finset α) : SlOp α κ → Finset α
  | .insert e => if ∃ x ∈ S, key x = key e then S else S ∪ {e}
  | .delete k => S.filter (key · ≠ k)
  | .find _ => S

def SlOp.Reports (S : Finset α) (r : SearchResult α) : SlOp α κ → Prop
  | .insert e =>
    (r.flags.ok ↔ ¬ ∃ x ∈ S, key x = key e) ∧ (r.flags.exact ↔ ∃ x ∈ S, key x = key e) ∧
      ∀ x ∈ S, key x = key e → r.found = some x
  | .delete k => r.flags.ok ↔ ∃ x ∈ S, key x = k
  | .find k =>
    (r.flags.exact ↔ ∃ x ∈ S, key x = k) ∧ ∀ x ∈ S, key x = k → r.found = some x

end Set

/-! ## Search -/

section Calls

variable {α κ : Type} [LinearOrder κ] {key : α → κ} {k : κ} {list : List α}
  {r : SearchResult α} {sl : Skiplist α} {vector : SlVector}

theorem tells_exact (h : Increasing key list) (hr : r.Tells (linearSearch key k list)) {x : α}
    (hx : x ∈ list) (hkey : key x = k) :
    r.flags.exact ∧ ¬ r.flags.empty ∧ ¬ r.flags.noent ∧ r.found = some x := by
  rw [h.linearSearch_exact hx hkey] at hr
  exact hr

theorem tells_exact_iff (h : Increasing key list) (hr : r.Tells (linearSearch key k list)) :
    r.flags.exact ↔ ∃ x ∈ list, key x = k := by
  constructor
  · intro hexact
    rcases linearSearch_cases key k list with ⟨-, hs⟩ | ⟨front, x, rest, hl, -, hx, -⟩ |
      ⟨front, x, rest, -, -, -, hs⟩ | ⟨front, x, -, -, -, hs⟩
    · rw [hs] at hr
      exact absurd hexact hr.2.1
    · exact ⟨x, by rw [hl]; simp, hx⟩
    all_goals
      rw [hs] at hr
      exact absurd hexact hr.2.2.2.2.1
  · rintro ⟨x, hx, hkey⟩
    exact (tells_exact h hr hx hkey).1

/-! ## Insertion -/

section Insertion

variable {e : α}

theorem insertFirst_sound (hs : sl.lanes.Sound) (hfound : sl.Found key k vector r) (e : α) :
    ∃ lanes, insertFirst sl vector r e =
      some (⟨[e], sl.count + 1, lanes⟩, r.inserted e) ∧ lanes.Sound := by
  obtain ⟨lanes, hlanes, hsound, hextends⟩ := hs.modify (f := fun j => { j with step := 1 }) (.refl _)
    (hs.valid_start (Nat.zero_le _)) fun j => ⟨.inl rfl, .inl rfl⟩
  obtain ⟨lanes', hlanes', hsound'⟩ := removeLockVector_sound vector
    correctDirnodesInsert_corrects (moveSound_of_none hsound (rfl : (SlMove.init none).dirnode = none))
    (fun i hi => hextends.valid _ _ (hfound.path i hi)) (by rw [hextends.maxlevel]; exact hfound.maxlevel)
  refine ⟨lanes', ?_, hsound'⟩
  simp [insertFirst, hlanes, hlanes']

variable [DecidableEq α]

theorem insertElement_eq (h : Increasing key list) (hr : r.Tells (linearSearch key (key e) list))
    (hexact : ¬ r.flags.exact) (hempty : ¬ r.flags.empty) :
    ∃ front rest, list = front ++ rest ∧ Increasing key (front ++ e :: rest) ∧
      ∀ step, ∃ left right, insertElement list r e step = some (some (front ++ e :: rest, left, right)) := by
  rcases linearSearch_cases key (key e) list with ⟨-, hs⟩ | ⟨front, x, rest, -, -, -, hs⟩ |
    ⟨front, n, rest, rfl, hfront, hn, hs⟩ | ⟨front, p, rfl, hfront, hp, hs⟩
  · rw [hs] at hr
    exact absurd hr.1 hempty
  · rw [hs] at hr
    exact absurd hr.1 hexact
  · rw [hs] at hr
    obtain ⟨-, hbefore, -, -, -, hfound⟩ := hr
    obtain ⟨-, -, -, hlarger⟩ := increasing_append_cons_iff.mp h
    refine ⟨front, n :: rest, rfl, h.insert hfront ?_, fun step =>
      ⟨r.step, u32 (u32Sub step r.step + 1), ?_⟩⟩
    · rw [forall_mem_cons]
      exact ⟨hn, fun y hy => hn.trans (hlarger y hy)⟩
    · rw [insertElement, if_pos hbefore, hfound, map_some, addListElementBefore,
        takeWhile_ne_append h.nodup, dropWhile_ne_append h.nodup]
  · rw [hs] at hr
    obtain ⟨-, hafter, hbefore, -, -, hfound⟩ := hr
    refine ⟨front ++ [p], [], (append_nil _).symm, ?_, fun step =>
      ⟨u32 (r.step + 1), u32Sub step r.step, ?_⟩⟩
    · exact Increasing.insert (by rw [append_nil]; exact h)
        (forall_mem_append.mpr ⟨hfront, forall_mem_singleton.mpr hp⟩) (by simp)
    · rw [insertElement, if_neg hbefore, if_pos hafter, hfound, map_some, addListElementAfter,
        takeWhile_ne_append h.nodup, dropWhile_ne_append h.nodup, drop_succ_cons, drop_zero,
        append_assoc, singleton_append]

theorem insertBeside_sound {list' : List α} (hs : sl.lanes.Sound) (hfound : sl.Found key k vector r)
    (hins : ∀ step, ∃ left right, insertElement sl.list r e step = some (some (list', left, right))) :
    (insertBeside sl vector r e = none ∧ doLevelup sl.lanes (sl.count + 1) = none) ∨
      ∃ lanes, insertBeside sl vector r e =
        some (⟨list', sl.count + 1, lanes⟩, r.inserted e) ∧ lanes.Sound := by
  obtain ⟨junction, hjunction, -⟩ := hs.junction (hfound.path 0 (Nat.zero_le _))
  obtain ⟨left, right, hlist⟩ := hins junction.step
  rcases insertDirnodes_sound hs list' (sl.count + 1) e
    { SlMove.init none with left, right } rfl with ⟨hnone, hlevelup⟩ | ⟨move, hmove, hsound⟩
  · refine .inl ⟨?_, hlevelup⟩
    simp [insertBeside, hjunction, hlist, hnone]
  · obtain ⟨lanes', hlanes', hsound'⟩ := removeLockVector_sound vector
      correctDirnodesInsert_corrects hsound hfound.path hfound.maxlevel
    refine .inr ⟨lanes', ?_, hsound'⟩
    simp [insertBeside, hjunction, hlist, hmove, hlanes']

theorem slInsert_absent (h : sl.WellFormed key) (hno : ¬ ∃ x ∈ sl.list, key x = key e) :
    (slInsert key sl e = none ∧ doLevelup sl.lanes (sl.count + 1) = none) ∨
      ∃ sl' r front rest, slInsert key sl e = some (sl', r) ∧ sl'.WellFormed key ∧
        sl.list = front ++ rest ∧ sl'.list = front ++ e :: rest ∧ r.flags.ok ∧ ¬ r.flags.exact := by
  obtain ⟨vector, r, hfind, hfound⟩ := slFindGeneric_found h (key e)
  have hexact : ¬ r.flags.exact := fun hyes => hno ((tells_exact_iff h.increasing hfound.tells).mp hyes)
  rw [slInsert, hfind, bind_some, if_neg hexact]
  by_cases hempty : r.flags.empty
  · have hnil : sl.list = [] := by
      by_contra hne
      rcases linearSearch_cases key (key e) sl.list with ⟨hnil, -⟩ | ⟨front, x, rest, hl, -, hx, -⟩ |
        ⟨front, x, rest, -, -, -, hs⟩ | ⟨front, x, -, -, -, hs⟩
      · exact hne hnil
      · exact hno ⟨x, by rw [hl]; simp, hx⟩
      all_goals
        have htells := hfound.tells
        rw [hs] at htells
        exact htells.2.2.2.1 hempty
    obtain ⟨lanes, hinsert, hsound⟩ := insertFirst_sound h.lanes hfound e
    refine .inr ⟨⟨[e], sl.count + 1, lanes⟩, r.inserted e, [], [], ?_, ⟨?_, ?_, hsound⟩, hnil, rfl, rfl,
      hexact⟩
    · rw [if_pos hempty, hinsert]
    · exact pairwise_singleton _ e
    · rw [h.count, hnil]
      rfl
  · obtain ⟨front, rest, hlist, hincreasing, hins⟩ :=
      insertElement_eq h.increasing hfound.tells hexact hempty
    rw [if_neg hempty]
    rcases insertBeside_sound h.lanes hfound hins with hnone | ⟨lanes, hinsert, hsound⟩
    · exact .inl hnone
    · refine .inr ⟨⟨front ++ e :: rest, sl.count + 1, lanes⟩, r.inserted e, front, rest, hinsert,
        ⟨hincreasing, ?_, hsound⟩, hlist, rfl, rfl, hexact⟩
      rw [h.count, hlist, length_append]
      simp only [length_append, length_cons]
      omega

theorem slInsert_present (h : sl.WellFormed key) {x : α} (hx : x ∈ sl.list) (hkey : key x = key e) :
    ∃ r, slInsert key sl e = some (sl, r) ∧ ¬ r.flags.ok ∧ r.flags.exact ∧ r.found = some x := by
  obtain ⟨vector, r, hfind, hfound⟩ := slFindGeneric_found h (key e)
  obtain ⟨hexact, -, -, hr⟩ := tells_exact h.increasing hfound.tells hx hkey
  refine ⟨r, ?_, hfound.ok, hexact, hr⟩
  rw [slInsert, hfind, bind_some, if_pos hexact]

end Insertion

/-! ## Deletion -/

section Deletion

variable {lanes : Lanes α} {d : ℕ}

/-- The dirnode that is moved or removed is not the first one. -/
def DeleteMove.Fits (lanes : Lanes α) (dirnode : ℕ) : DeleteMove → Prop
  | .keep => True
  | .remove => dirnode ≠ slStart ∧ lanes.Valid dirnode 0
  | .left d _ _ _ => d ≠ slStart ∧ lanes.Valid d 0
  | .right d _ _ _ => d ≠ slStart ∧ lanes.Valid d 0

theorem deleteAtDirnode_fits (hs : lanes.Sound) (hd : lanes.Valid d 0) (hne : d ≠ slStart) :
    ∃ move, deleteAtDirnode lanes d = some move ∧ move.Fits lanes d := by
  obtain ⟨junction, hjunction, -, hp⟩ := hs.junction hd
  obtain ⟨prev, hprev, -⟩ := hs.junction hp
  simp only [deleteAtDirnode, hjunction, hprev, bind_eq_bind, bind_some]
  split
  · exact ⟨_, rfl, hne, hd⟩
  · split
    · exact ⟨_, rfl, hne, hd⟩
    · split
      · exact ⟨_, rfl, hne, hd⟩
      · exact ⟨_, rfl, True.intro⟩

theorem deleteBehindDirnode_fits (hs : lanes.Sound) (hd : lanes.Valid d 0) :
    ∃ move, deleteBehindDirnode lanes d = some move ∧ move.Fits lanes d := by
  obtain ⟨junction, hjunction, hn, hp⟩ := hs.junction hd
  obtain ⟨next, hnext, -⟩ := hs.junction hn
  obtain ⟨prev, hprev, -⟩ := hs.junction hp
  have hkeep : ∃ move, (some DeleteMove.keep : Option DeleteMove) = some move ∧ move.Fits lanes d :=
    ⟨_, rfl, True.intro⟩
  rw [deleteBehindDirnode, hjunction, bind_eq_bind, bind_some]
  by_cases hfew : junction.step < u32Sub lanes.prob 1
  · rw [if_pos hfew, hnext, bind_some]
    by_cases hright : junction.n = slStart
    · rw [if_neg (fun hboth => hboth.2 hright), if_neg (fun hne => hne hright)]
      by_cases hleft : d = slStart
      · rw [if_neg (fun hne => hne hleft)]
        exact hkeep
      · rw [if_pos hleft, hprev, bind_some]
        split
        · exact ⟨_, rfl, hleft, hd⟩
        · exact hkeep
    · by_cases hleft : d = slStart
      · rw [if_neg (fun hboth => hboth.1 hleft), if_pos hright]
        split
        · exact ⟨_, rfl, hright, hn⟩
        · split
          · exact ⟨_, rfl, hright, hn⟩
          · exact hkeep
      · rw [if_pos ⟨hleft, hright⟩, hprev, bind_some]
        split
        · exact ⟨_, rfl, hright, hn⟩
        · split
          · exact ⟨_, rfl, hleft, hd⟩
          · split
            · exact ⟨_, rfl, hright, hn⟩
            · exact hkeep
  · rw [if_neg hfew]
    exact hkeep

variable [DecidableEq α]

theorem deleteMove_sound {move : DeleteMove} (hs : lanes.Sound)
    (hpath : lanes.PathSound vector.maxlevel vector.path) (hmax : vector.maxlevel ≤ lanes.maxlevel + 1)
    (hmove : move.Fits lanes d) (list : List α) (e : α) :
    ∃ lanes', deleteMove lanes list vector d e move = some lanes' ∧ lanes'.Sound := by
  cases move with
  | keep =>
    exact removeLockVector_sound _ correctSlDirnodesMove_corrects (moveSound_of_none hs rfl) hpath hmax
  | remove =>
    exact removeLockVector_sound _ correctSlDirnodesRemove_corrects
      (moveSound_of_valid hs rfl hmove.1 hmove.2) hpath hmax
  | left x left right dirnodeRight =>
    have hmoved : MoveSound lanes (lanes,
        { SlMove.init (some e) with dirnode := some x, left, right, dirnodeRight }) :=
      moveSound_of_valid hs rfl hmove.1 hmove.2
    obtain ⟨r, hr, hsound⟩ := moveSlDirnodeLeft_sound list hmoved rfl
    rw [deleteMove, hr, bind_some]
    exact removeLockVector_sound _ correctSlDirnodesMove_corrects hsound hpath hmax
  | right x left right dirnodeRight =>
    have hmoved : MoveSound lanes (lanes,
        { SlMove.init (some e) with dirnode := some x, left, right, dirnodeRight }) :=
      moveSound_of_valid hs rfl hmove.1 hmove.2
    obtain ⟨r, hr, hsound⟩ := moveSlDirnodeRight_sound list hmoved rfl
    rw [deleteMove, hr, bind_some]
    exact removeLockVector_sound _ correctSlDirnodesMove_corrects hsound hpath hmax

theorem deleteFound_sound (hs : sl.lanes.Sound) (hfound : sl.Found key k vector r) (e : α) :
    ∃ lanes, deleteFound sl vector r e = some (⟨sl.list.erase e, sl.count - 1, lanes⟩,
      { r with flags := { r.flags with ok := true } }) ∧ lanes.Sound := by
  have hd := hfound.path 0 (Nat.zero_le _)
  by_cases hdirnode : r.flags.dirnode
  · obtain ⟨v, hv, hmax, hpath⟩ := upgradeReadlockVector_sound (d := vector.path 0) hs hfound.path
    obtain ⟨move, hmove, hfits⟩ := deleteAtDirnode_fits hs hd (hfound.dirnode hdirnode)
    obtain ⟨lanes, hlanes, hsound⟩ := deleteMove_sound hs hpath (by rw [hmax]; exact hfound.maxlevel)
      hfits sl.list e
    refine ⟨lanes, ?_, hsound⟩
    simp [deleteFound, if_pos hdirnode, hv, hmove, hlanes]
  · obtain ⟨move, hmove, hfits⟩ := deleteBehindDirnode_fits hs hd
    obtain ⟨lanes, hlanes, hsound⟩ := deleteMove_sound hs hfound.path hfound.maxlevel hfits sl.list e
    refine ⟨lanes, ?_, hsound⟩
    simp [deleteFound, if_neg hdirnode, hmove, hlanes]

theorem slDelete_present (h : sl.WellFormed key) {x : α} (hx : x ∈ sl.list) (hkey : key x = k) :
    ∃ sl' r, slDelete key sl k = some (sl', r) ∧ sl'.WellFormed key ∧ sl'.list = sl.list.erase x ∧
      r.flags.ok := by
  obtain ⟨vector, r, hfind, hfound⟩ := slFindGeneric_found h k
  obtain ⟨hexact, -, -, hr⟩ := tells_exact h.increasing hfound.tells hx hkey
  obtain ⟨lanes, hdelete, hsound⟩ := deleteFound_sound h.lanes hfound x
  refine ⟨_, _, by rw [slDelete, hfind, bind_some, if_pos hexact, hr, bind_some, hdelete],
    ⟨?_, ?_, hsound⟩, rfl, rfl⟩
  · exact List.Pairwise.sublist erase_sublist h.increasing
  · rw [length_erase_of_mem hx, h.count]

theorem slDelete_absent (h : sl.WellFormed key) (hno : ¬ ∃ x ∈ sl.list, key x = k) :
    ∃ r, slDelete key sl k = some (sl, r) ∧ ¬ r.flags.ok := by
  obtain ⟨vector, r, hfind, hfound⟩ := slFindGeneric_found h k
  have hexact : ¬ r.flags.exact := fun hyes => hno ((tells_exact_iff h.increasing hfound.tells).mp hyes)
  refine ⟨r, ?_, hfound.ok⟩
  rw [slDelete, hfind, bind_some, if_neg hexact]

end Deletion

end Calls

end Osns
