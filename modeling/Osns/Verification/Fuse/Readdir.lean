import Mathlib.Tactic.SplitIfs
import Osns.Library.Transition
import Osns.Model.Fuse.Readdir

/-! Which entries the calls of `READDIR` return. -/

namespace Osns

open List Option Transition Loop

def FuseEntry.listed (e : FuseEntry) : Bytes × FuseInode := (e.name, e.inode)

def FuseDirectory.dots (d : FuseDirectory) : List (Bytes × FuseInode) :=
  [(dotName, d.inode), (dotdotName, d.parent.getD d.inode)]

def direntsFrom : ℕ → List (Bytes × FuseInode) → List FuseDirent
  | _, [] => []
  | offset, e :: rest => direntOf e.1 e.2 offset :: direntsFrom (offset + 1) rest

theorem direntSize_pos (plus : Bool) (name : Bytes) : 0 < direntSize plus name := by
  unfold direntSize
  split <;> omega

theorem addDirentry_of_le {o : FuseOpendir} {b : DirentryBuffer} {name : Bytes} (inode : FuseInode)
    (h : direntSize o.plus name ≤ b.size - b.pos) :
    o.addDirentry b name inode = some ⟨b.size, b.pos + direntSize o.plus name, b.offset + 1,
      b.data ++ [direntOf name inode b.offset]⟩ := if_pos h

/-! ## Virtual directories -/

def FuseOpendir.visible (o : FuseOpendir) (l : List FuseEntry) : List (Bytes × FuseInode) :=
  (l.filter fun e => !o.hidefile e).map (·.listed)

def direntsSize (plus : Bool) : List (Bytes × FuseInode) → ℕ
  | [] => 0
  | e :: rest => direntSize plus e.1 + direntsSize plus rest

def FuseOpendir.needs (o : FuseOpendir) (l : List FuseEntry) : ℕ := direntsSize o.plus (o.visible l)

section Virtual

open VirtualReaddir

variable {d : FuseDirectory} {o : FuseOpendir} {b : DirentryBuffer} {l : List FuseEntry} {keep fuel : ℕ}

@[simp] theorem visible_cons (e : FuseEntry) (l : List FuseEntry) :
    o.visible (e :: l) = if o.hidefile e then o.visible l else e.listed :: o.visible l := by
  cases h : o.hidefile e <;> simp [FuseOpendir.visible, h]

theorem eq_nil_of_direntsSize {plus : Bool} {l : List (Bytes × FuseInode)} (h : direntsSize plus l = 0) :
    l = [] := by
  cases l with
  | nil => rfl
  | cons e l =>
    have := direntSize_pos plus e.1
    rw [direntsSize] at h
    omega

theorem direntsFrom_append (offset : ℕ) (l m : List (Bytes × FuseInode)) :
    direntsFrom offset (l ++ m) = direntsFrom offset l ++ direntsFrom (offset + l.length) m := by
  induction l generalizing offset with
  | nil => rfl
  | cons e l ih =>
    rw [cons_append, direntsFrom, ih, direntsFrom, length_cons, cons_append]
    congr 3
    omega

theorem append_direntsFrom (data : List FuseDirent) (offset : ℕ) (e : Bytes × FuseInode)
    (l : List (Bytes × FuseInode)) :
    data ++ direntsFrom offset (e :: l) = data ++ [direntOf e.1 e.2 offset] ++ direntsFrom (offset + 1) l :=
  append_cons ..

theorem nextOffset_direntsFrom (offset : ℕ) (l : List (Bytes × FuseInode)) :
    nextOffset offset (direntsFrom offset l) = offset + l.length := by
  rcases eq_nil_or_concat l with rfl | ⟨l, e, rfl⟩
  · rfl
  · rw [concat_eq_append, direntsFrom_append, nextOffset, direntsFrom, direntsFrom, getLast?_concat,
      length_append]
    rfl

theorem length_direntsFrom (offset : ℕ) (l : List (Bytes × FuseInode)) :
    (direntsFrom offset l).length = l.length := by
  induction l generalizing offset with
  | nil => rfl
  | cons e l ih => rw [direntsFrom, length_cons, length_cons, ih]

/-! ### One call -/

/-- The entries that find room, and the number that is kept: `keep` is the one from before. -/
def FuseOpendir.take (o : FuseOpendir) : ℕ → ℕ → List FuseEntry → List (Bytes × FuseInode) × ℕ
  | _, _, [] => ([], 0)
  | room, keep, e :: rest =>
    let behind := (rest.head?.map (·.inode.ino)).getD keep
    if room = 0 then ([], 0)
    else if o.hidefile e then o.take room behind rest
    else if direntSize o.plus e.name ≤ room then
      let taken := o.take (room - direntSize o.plus e.name) behind rest
      (e.listed :: taken.1, taken.2)
    else ([], behind)

theorem pass_entry (hoffset : 2 ≤ b.offset) (hino : o.ino = 0) (hfinish : o.finish = false)
    (hfailed : o.failed = false) (hpos : b.pos < b.size) :
    pass d ⟨o, b, l, keep⟩ = entryStep ⟨o, b, l, keep⟩ := by
  obtain ⟨n, hn⟩ := Nat.exists_eq_add_of_le' hoffset
  simp [VirtualReaddir.pass, resume, hn, hino, hfinish, hfailed, hpos]

theorem pass_full (hpos : ¬ b.pos < b.size) :
    pass d ⟨o, b, l, keep⟩ = .done (o, b.data) := if_neg fun h => hpos h.1

/-- The loop over the entries takes those that find room. It only sets FINISH behind the last one. -/
theorem run_take (hino : o.ino = 0) (hfinish : o.finish = false) (hfailed : o.failed = false)
    (hoffset : 2 ≤ b.offset) (hfuel : l.length < fuel) :
    ∃ finish, run (pass d) fuel ⟨o, b, l, keep⟩ =
        some ({ o with ino := (o.take (b.size - b.pos) keep l).2, finish },
          b.data ++ direntsFrom b.offset (o.take (b.size - b.pos) keep l).1) ∧
      (finish = true → (o.take (b.size - b.pos) keep l).2 = 0) := by
  induction l generalizing b keep fuel with
  | nil =>
    obtain ⟨fuel, rfl⟩ := Nat.exists_eq_succ_of_ne_zero (Nat.ne_zero_of_lt hfuel)
    rw [FuseOpendir.take, direntsFrom, append_nil, ← hino]
    by_cases hpos : b.pos < b.size
    · exact ⟨true, run_done (pass_entry hoffset hino hfinish hfailed hpos), fun _ => rfl⟩
    · exact ⟨o.finish, run_done (pass_full hpos), fun _ => rfl⟩
  | cons e l ih =>
    obtain ⟨fuel, rfl⟩ := Nat.exists_eq_succ_of_ne_zero (Nat.ne_zero_of_lt hfuel)
    have hlength : l.length < fuel := Nat.lt_of_succ_lt_succ hfuel
    by_cases hpos : b.pos < b.size
    · have hpass := @pass_entry d o b (e :: l) keep hoffset hino hfinish hfailed hpos
      rw [FuseOpendir.take, if_neg (by omega)]
      cases hhide : o.hidefile e with
      | true =>
        simp only [entryStep, hhide, if_true] at hpass ⊢
        rw [run_next hpass]
        exact ih hoffset hlength
      | false =>
        simp only [entryStep, hhide, add, Bool.false_eq_true, if_false] at hpass ⊢
        by_cases hfits : direntSize o.plus e.name ≤ b.size - b.pos
        · rw [addDirentry_of_le e.inode hfits] at hpass
          rw [run_next hpass, if_pos hfits, Nat.sub_sub, append_direntsFrom]
          refine ih ?_ hlength
          exact Nat.le_succ_of_le hoffset
        · rw [FuseOpendir.addDirentry, if_neg hfits] at hpass
          rw [run_done hpass, if_neg hfits, direntsFrom, append_nil]
          exact ⟨false, by rw [← hfinish], fun h => absurd h Bool.false_ne_true⟩
    · rw [FuseOpendir.take, if_pos (by omega), direntsFrom, append_nil, ← hino]
      exact ⟨o.finish, run_done (pass_full hpos), fun _ => rfl⟩

/-! ### What a call leaves -/

/-- The entries from the one whose number has been kept. -/
def FuseDirectory.since (d : FuseDirectory) (ino : ℕ) : List FuseEntry :=
  if 0 < ino then d.entries.dropWhile (·.inode.ino ≠ ino) else []

/-- Numbers lead to their entries: an inode has one entry. -/
structure FuseDirectory.Numbered (d : FuseDirectory) : Prop where
  pos : ∀ e ∈ d.entries, 0 < e.inode.ino
  nodup : (d.entries.map (·.inode.ino)).Nodup

theorem FuseDirectory.Numbered.since_eq (hd : d.Numbered) {e : FuseEntry} (h : e :: l <:+ d.entries) :
    d.since e.inode.ino = e :: l := by
  obtain ⟨front, hentries⟩ := h
  have hpos := hd.pos e (by simp [← hentries])
  have hnodup := hd.nodup
  rw [← hentries, map_append, map_cons] at hnodup
  have hfront : ∀ x ∈ front, x.inode.ino ≠ e.inode.ino := by
    intro x hx
    exact (nodup_append.mp hnodup).2.2 _ (mem_map_of_mem hx) _ mem_cons_self
  rw [FuseDirectory.since, if_pos hpos, ← hentries, dropWhile_append_of_pos (by simpa using hfront),
    dropWhile_cons_of_neg (by simp)]

variable {room : ℕ}

theorem needs_hidden {e : FuseEntry} (h : o.hidefile e = true) :
    o.needs (e :: l) = o.needs l := by
  rw [FuseOpendir.needs, visible_cons, if_pos h]
  rfl

theorem needs_shown {e : FuseEntry} (h : o.hidefile e = false) :
    o.needs (e :: l) =
      direntSize o.plus e.name + o.needs l := by
  rw [FuseOpendir.needs, visible_cons, h]
  rfl

theorem take_all (h : o.needs l ≤ room) :
    o.take room keep l = (o.visible l, 0) := by
  induction l generalizing room keep with
  | nil => rfl
  | cons e l ih =>
    rw [FuseOpendir.take]
    by_cases hzero : room = 0
    · rw [hzero, Nat.le_zero] at h
      rw [if_pos hzero, eq_nil_of_direntsSize h]
    rw [if_neg hzero, visible_cons]
    cases hhide : o.hidefile e with
    | true =>
      rw [needs_hidden hhide] at h
      exact ih h
    | false =>
      rw [needs_shown hhide] at h
      simp only [Bool.false_eq_true, if_false]
      rw [if_pos (by omega), ih (by omega)]

/-- All but the last entry find room, and the number of the last one has been kept. -/
structure FuseOpendir.CutsLast (o : FuseOpendir) (size keep : ℕ) (l : List FuseEntry) (e : FuseEntry) :
    Prop where
  last : l.getLast? = some e
  shown : o.hidefile e = false
  kept : 2 ≤ l.length ∨ keep = e.inode.ino
  room : o.needs l.dropLast < size
  cut : size < o.needs l

variable {e : FuseEntry}

theorem kept_last {x : FuseEntry} (h : (x :: l).getLast? = some e) :
    2 ≤ (x :: l).length ∨ x.inode.ino = e.inode.ino := by
  cases l with
  | nil =>
    rw [getLast?_singleton, some.injEq] at h
    exact .inr (by rw [h])
  | cons y l => exact .inl (Nat.le_add_left ..)

theorem FuseOpendir.CutsLast.take_eq (h : o.CutsLast room keep l e) :
    o.take room keep l = (o.visible l.dropLast, e.inode.ino) := by
  induction l generalizing room keep with
  | nil => cases h.last
  | cons x l ih =>
    obtain ⟨hlast, hshown, hkept, hroom, hcut⟩ := h
    rw [FuseOpendir.take, if_neg (by omega)]
    cases l with
    | nil =>
      rw [getLast?_singleton, some.injEq] at hlast
      subst hlast
      have hkeep : keep = x.inode.ino := by simpa using hkept
      rw [needs_shown hshown] at hcut
      rw [if_neg (by simp [hshown]), if_neg (by exact Nat.not_le_of_lt hcut)]
      simp [hkeep, FuseOpendir.visible]
    | cons y l =>
      rw [getLast?_cons_cons] at hlast
      have hkept := kept_last hlast
      rw [dropLast_cons_cons] at hroom ⊢
      rw [visible_cons]
      cases hhide : o.hidefile x with
      | true =>
        rw [needs_hidden hhide] at hroom hcut
        exact ih ⟨hlast, hshown, hkept, hroom, hcut⟩
      | false =>
        rw [needs_shown hhide] at hroom hcut
        simp only [Bool.false_eq_true, if_false]
        rw [if_pos (by omega), head?_cons, map_some, getD_some,
          ih ⟨hlast, hshown, hkept, by omega, by omega⟩]

theorem FuseOpendir.CutsLast.cons {k cost : ℕ} {x : FuseEntry} (h : o.CutsLast (room - cost) k l e)
    (hcost : ∀ m, o.needs (x :: m) = cost + o.needs m) :
    o.CutsLast room keep (x :: l) e := by
  obtain ⟨hlast, hshown, -, hroom, hcut⟩ := h
  cases l with
  | nil => cases hlast
  | cons y l =>
    refine ⟨hlast, hshown, .inl (Nat.le_add_left ..), ?_, ?_⟩
    · rw [dropLast_cons_cons, hcost]
      omega
    · rw [hcost]
      omega

/-- Otherwise an entry is lost: neither taken nor among those that are left. -/
theorem take_lt (hd : d.Numbered) (hsuffix : l <:+ d.entries)
    (hkeep : keep = 0 ∨ l.head?.map (·.inode.ino) = some keep)
    (hsize : room < o.needs l) (hcut : ∀ e, ¬ o.CutsLast room keep l e) :
    (o.take room keep l).1.length + (o.visible (d.since (o.take room keep l).2)).length <
      (o.visible l).length := by
  have hzero : o.visible (d.since 0) = [] := rfl
  induction l generalizing room keep with
  | nil => exact absurd hsize (Nat.not_lt_zero _)
  | cons x l ih =>
    rw [FuseOpendir.take]
    by_cases hroom : room = 0
    · rw [if_pos hroom, hzero]
      refine length_pos_iff.mpr fun hnil => ?_
      rw [FuseOpendir.needs, hnil] at hsize
      exact absurd hsize (Nat.not_lt_zero _)
    rw [if_neg hroom, visible_cons]
    have hl : l <:+ d.entries := (suffix_cons x l).trans hsuffix
    have hbehind (h : l ≠ []) :
        l.head?.map (·.inode.ino) = some ((l.head?.map (·.inode.ino)).getD keep) := by
      obtain ⟨y, l, rfl⟩ := exists_cons_of_ne_nil h
      rfl
    have hne {size : ℕ} (h : size < o.needs l) : l ≠ [] := by
      rintro rfl
      exact absurd h (Nat.not_lt_zero _)
    cases hhide : o.hidefile x with
    | true =>
      rw [needs_hidden hhide] at hsize
      refine ih hl (.inr (hbehind (hne hsize))) hsize fun e he => hcut e ?_
      have hrest : o.CutsLast (room - 0) _ l e := he
      exact hrest.cons fun m => by rw [needs_hidden hhide, Nat.zero_add]
    | false =>
      rw [needs_shown hhide] at hsize
      simp only [Bool.false_eq_true, if_false, length_cons]
      by_cases hfits : direntSize o.plus x.name ≤ room
      · rw [if_pos hfits, length_cons, Nat.add_right_comm]
        have hsize : room - direntSize o.plus x.name < o.needs l := by omega
        refine Nat.succ_lt_succ (ih hl (.inr (hbehind (hne hsize))) hsize fun e he => hcut e ?_)
        exact he.cons fun m => needs_shown hhide
      · rw [if_neg hfits]
        cases l with
        | nil =>
          -- its own number would have been kept
          rcases hkeep with rfl | hkeep
          · exact Nat.lt_succ_self 0
          · refine absurd ⟨rfl, hhide, .inr (some.inj hkeep).symm, Nat.pos_of_ne_zero hroom, ?_⟩ (hcut x)
            rw [needs_shown hhide]
            exact hsize
        | cons y l =>
          rw [head?_cons, map_some, getD_some, hd.since_eq hl]
          exact Nat.lt_succ_of_le (Nat.le_of_eq (Nat.zero_add _))

theorem FuseOpendir.CutsLast.eq_concat (h : o.CutsLast room keep l e) : l = l.dropLast ++ [e] := by
  obtain ⟨front, rfl⟩ := getLast?_eq_some_iff.mp h.last
  rw [dropLast_concat]

theorem FuseOpendir.CutsLast.visible_eq (h : o.CutsLast room keep l e) :
    o.visible l = o.visible l.dropLast ++ [e.listed] := by
  have hshown := h.shown
  obtain ⟨front, rfl⟩ := getLast?_eq_some_iff.mp h.last
  rw [dropLast_concat]
  simp [FuseOpendir.visible, hshown]

theorem FuseOpendir.CutsLast.since_eq (h : o.CutsLast room keep l e) (hd : d.Numbered)
    (hsuffix : l <:+ d.entries) : d.since e.inode.ino = [e] := by
  rw [h.eq_concat] at hsuffix
  exact hd.since_eq ((suffix_append ..).trans hsuffix)

/-- What a call takes and what it leaves are not more than there was. -/
theorem take_le (hd : d.Numbered) (hsuffix : l <:+ d.entries) (o : FuseOpendir) (room : ℕ) :
    (o.take room 0 l).1.length + (o.visible (d.since (o.take room 0 l).2)).length ≤
      (o.visible l).length := by
  by_cases hall : o.needs l ≤ room
  · rw [take_all hall]
    exact Nat.le_refl _
  by_cases hcut : ∃ e, o.CutsLast room 0 l e
  · obtain ⟨e, he⟩ := hcut
    rw [he.take_eq, he.since_eq hd hsuffix, he.visible_eq, length_append, visible_cons, he.shown]
    exact Nat.le_refl _
  · exact Nat.le_of_lt (take_lt hd hsuffix (.inl rfl) (by omega) (not_exists.mp hcut))

theorem since_suffix (d : FuseDirectory) (ino : ℕ) : d.since ino <:+ d.entries := by
  rw [FuseDirectory.since]
  split
  · exact dropWhile_suffix _
  · exact nil_suffix

/-! ### Calls one after the other -/

theorem resume_eq : resume d ⟨o, b, [], keep⟩ = ⟨{ o with ino := 0 }, b, d.since o.ino, keep⟩ := by
  rw [resume, FuseDirectory.since]
  by_cases hino : 0 < o.ino
  · rw [if_pos hino, if_pos hino]
    cases d.entries.dropWhile (·.inode.ino ≠ o.ino) with
    | nil => rfl
    | cons e l => rfl
  · rw [if_neg hino, if_neg hino, ← Nat.eq_zero_of_not_pos hino]

/-- A call behind the dots begins with the entry whose number has been kept. -/
theorem readdir_since {size offset : ℕ} (hoffset : 2 ≤ offset) (hsize : 0 < size)
    (hfinish : o.finish = false) (hfailed : o.failed = false) :
    ∃ finish, fsCommonVirtualReaddir d o size offset =
      some ({ o with ino := (o.take size 0 (d.since o.ino)).2, finish },
        direntsFrom offset (o.take size 0 (d.since o.ino)).1) := by
  have htake (room keep : ℕ) (l : List FuseEntry) :
      { o with ino := 0 }.take room keep l = o.take room keep l := by
    induction l generalizing room keep with
    | nil => rfl
    | cons e l ih => simp only [FuseOpendir.take, ih, FuseOpendir.hidefile]
  have hfirst : pass d ⟨o, ⟨size, 0, offset, []⟩, [], 0⟩ =
      pass d ⟨{ o with ino := 0 }, ⟨size, 0, offset, []⟩, d.since o.ino, 0⟩ := by
    rw [@pass_entry d { o with ino := 0 } ⟨size, 0, offset, []⟩ _ _ hoffset rfl hfinish hfailed hsize]
    obtain ⟨n, rfl⟩ := Nat.exists_eq_add_of_le' hoffset
    rw [VirtualReaddir.pass, if_pos ⟨hsize, by simp [hfinish], by simp [hfailed]⟩, ← resume_eq]
    rfl
  obtain ⟨finish, hrun, -⟩ := @run_take d { o with ino := 0 } ⟨size, 0, offset, []⟩ (d.since o.ino) 0
    (d.entries.length + 3) rfl hfinish hfailed hoffset
    (Nat.lt_of_le_of_lt (since_suffix d o.ino).length_le (by omega))
  refine ⟨finish, ?_⟩
  rw [htake] at hrun
  rw [fsCommonVirtualReaddir, Loop.run, hfirst, ← Loop.run]
  exact hrun

theorem virtualReplies_cons {o' : FuseOpendir} {size offset : ℕ} {sizes : List ℕ}
    {done : List (Bytes × FuseInode)} {replies : List (List FuseDirent)}
    (hcall : fsCommonVirtualReaddir d o size offset = some (o', direntsFrom offset done))
    (hreplies : virtualReplies d o' (offset + done.length) sizes = some replies) :
    virtualReplies d o offset (size :: sizes) = some (direntsFrom offset done :: replies) := by
  rw [virtualReplies, hcall]
  simp [nextOffset_direntsFrom, hreplies]

/-- Behind the dots, no more entries are returned than those from the one whose number has been kept. -/
theorem virtualReplies_le (hd : d.Numbered) (sizes : List ℕ) {offset : ℕ} (hoffset : 2 ≤ offset) :
    ∃ replies, virtualReplies d o offset sizes = some replies ∧ replies.length = sizes.length ∧
      replies.flatten.length ≤ (o.visible (d.since o.ino)).length := by
  induction sizes generalizing o offset with
  | nil => exact ⟨[], rfl, rfl, Nat.zero_le _⟩
  | cons size sizes ih =>
    obtain ⟨o', done, hcall, hle⟩ : ∃ o' done,
        fsCommonVirtualReaddir d o size offset = some (o', direntsFrom offset done) ∧
          done.length + (o'.visible (d.since o'.ino)).length ≤ (o.visible (d.since o.ino)).length := by
      by_cases hopen : 0 < size ∧ ¬ o.finish ∧ ¬ o.failed
      · obtain ⟨finish, hcall⟩ := @readdir_since d o size offset hoffset hopen.1 (by simpa using hopen.2.1)
          (by simpa using hopen.2.2)
        exact ⟨_, _, hcall, take_le hd (since_suffix d o.ino) o size⟩
      · exact ⟨o, [], run_done (if_neg hopen), Nat.le_of_eq (Nat.zero_add _)⟩
    obtain ⟨replies, hreplies, hlength, hsum⟩ := @ih o' (offset + done.length) (by omega)
    refine ⟨_, virtualReplies_cons hcall hreplies, by rw [length_cons, length_cons, hlength], ?_⟩
    rw [flatten_cons, length_append, length_direntsFrom]
    omega

/-- Without a number nothing is left. -/
theorem virtualReplies_end (hd : d.Numbered) (size : ℕ) (sizes : List ℕ) {offset : ℕ} (hino : o.ino = 0)
    (hoffset : 2 ≤ offset) :
    ∃ ends, virtualReplies d o offset (size :: sizes) = some ends ∧ ends ≠ [] ∧
      ∀ reply ∈ ends, reply = [] := by
  obtain ⟨ends, hends, hlength, hsum⟩ := @virtualReplies_le d o hd (size :: sizes) offset hoffset
  refine ⟨ends, hends, ne_nil_of_length_eq_add_one hlength, flatten_eq_nil_iff.mp ?_⟩
  rw [hino] at hsum
  exact eq_nil_of_length_eq_zero (Nat.le_zero.mp hsum)

/-! ### The whole listing -/

theorem add_of_le {name : Bytes} {inode : FuseInode} (h : direntSize o.plus name ≤ b.size - b.pos) :
    add ⟨o, b, l, keep⟩ name inode =
      .next ⟨o, ⟨b.size, b.pos + direntSize o.plus name, b.offset + 1,
        b.data ++ [direntOf name inode b.offset]⟩, l, keep⟩ := by
  rw [VirtualReaddir.add, addDirentry_of_le inode h]

variable {size pos : ℕ} {data : List FuseDirent}

theorem pass_dot (hopen : o.finish = false ∧ o.failed = false) (hpos : pos < size) :
    pass d ⟨o, ⟨size, pos, 0, data⟩, l, keep⟩ =
      add ⟨o, ⟨size, pos, 0, data⟩, d.entries, 0⟩ dotName d.inode :=
  if_pos ⟨hpos, by simp [hopen.1], by simp [hopen.2]⟩

theorem pass_dotdot (hopen : o.finish = false ∧ o.failed = false) (hpos : pos < size) :
    pass d ⟨o, ⟨size, pos, 1, data⟩, l, keep⟩ =
      add ⟨o, ⟨size, pos, 1, data⟩, l, 0⟩ dotdotName (d.parent.getD d.inode) :=
  if_pos ⟨hpos, by simp [hopen.1], by simp [hopen.2]⟩

/-- The second dot, and what finds room behind it. -/
theorem run_dotdot (hino : o.ino = 0) (hopen : o.finish = false ∧ o.failed = false)
    (hsize : direntSize o.plus dotdotName ≤ size - pos) (hfuel : l.length + 1 < fuel) :
    ∃ finish, run (pass d) fuel ⟨o, ⟨size, pos, 1, data⟩, l, keep⟩ =
        some ({ o with ino := (o.take (size - (pos + direntSize o.plus dotdotName)) 0 l).2, finish },
          data ++ direntsFrom 1 ((dotdotName, d.parent.getD d.inode) ::
            (o.take (size - (pos + direntSize o.plus dotdotName)) 0 l).1)) ∧
      (finish = true → (o.take (size - (pos + direntSize o.plus dotdotName)) 0 l).2 = 0) := by
  have hpos := direntSize_pos o.plus dotdotName
  obtain ⟨fuel, rfl⟩ := Nat.exists_eq_succ_of_ne_zero (Nat.ne_zero_of_lt hfuel)
  rw [run_next ((pass_dotdot hopen (by omega)).trans (add_of_le hsize)), append_direntsFrom]
  refine run_take hino hopen.1 hopen.2 ?_ (Nat.lt_of_succ_lt_succ hfuel)
  exact Nat.le_refl 2

/-- The dots are returned and then what has been taken. -/
def TakesDots (d : FuseDirectory) (o : FuseOpendir) (size : ℕ) (taken : List (Bytes × FuseInode) × ℕ) :
    Prop :=
  ∃ finish, fsCommonVirtualReaddir d o size 0 =
      some ({ o with ino := taken.2, finish }, direntsFrom 0 (d.dots ++ taken.1)) ∧
    (finish = true → taken.2 = 0)

/-- The first call returns the dots and what finds room behind them, or the first dot alone. -/
theorem readdir_first (hino : o.ino = 0) (hopen : o.finish = false ∧ o.failed = false)
    (hdot : direntSize o.plus dotName ≤ size) :
    if direntsSize o.plus d.dots ≤ size then
      TakesDots d o size (o.take (size - direntsSize o.plus d.dots) 0 d.entries)
    else fsCommonVirtualReaddir d o size 0 = some (o, direntsFrom 0 [(dotName, d.inode)]) := by
  have hpos := direntSize_pos o.plus dotName
  have hdots : direntsSize o.plus d.dots = direntSize o.plus dotName + direntSize o.plus dotdotName := rfl
  have hfirst : pass d ⟨o, ⟨size, 0, 0, []⟩, [], 0⟩ = .next ⟨o, ⟨size, direntSize o.plus dotName, 1,
      direntsFrom 0 [(dotName, d.inode)]⟩, d.entries, 0⟩ := by
    rw [pass_dot hopen (by omega), add_of_le hdot, Nat.zero_add]
    rfl
  rw [TakesDots, fsCommonVirtualReaddir, run_next hfirst, hdots]
  split
  · exact run_dotdot hino hopen (by omega) (by omega)
  · by_cases hfull : direntSize o.plus dotName < size
    · refine run_done ((pass_dotdot hopen hfull).trans ?_)
      rw [VirtualReaddir.add, FuseOpendir.addDirentry, if_neg (by simp only; omega), ← hino]
    · exact run_done (pass_full hfull)

/-- Behind the first dot alone the second one is returned and no entry. -/
theorem readdir_second (hino : o.ino = 0) (hopen : o.finish = false ∧ o.failed = false)
    (hdotdot : direntSize o.plus dotdotName ≤ size) :
    ∃ finish, fsCommonVirtualReaddir d o size 1 =
      some ({ o with finish }, direntsFrom 1 [(dotdotName, d.parent.getD d.inode)]) := by
  obtain ⟨finish, hrun, -⟩ := @run_dotdot d o [] 0 (d.entries.length + 3) size 0 [] hino hopen hdotdot
    (by rw [length_nil]; omega)
  refine ⟨finish, hrun.trans ?_⟩
  rw [FuseOpendir.take, ← hino]
  rfl

/-- The replies to the first calls, none of them empty, have the dots and the entries that are not hidden,
each once, and then there are empty replies only. -/
def ListsOnce (d : FuseDirectory) (o : FuseOpendir) (sizes : List ℕ) : Prop :=
  ∃ returned ends, virtualReplies d o 0 sizes = some (returned ++ ends) ∧
    returned.flatten = direntsFrom 0 (d.dots ++ o.visible d.entries) ∧ [] ∉ returned ∧
    ends ≠ [] ∧ ∀ reply ∈ ends, reply = []

/-- There is no entry to return, or the first buffer takes all of them, or all but the last one with
something left. -/
def FirstSuffices (d : FuseDirectory) (o : FuseOpendir) (size : ℕ) : Prop :=
  o.visible d.entries = [] ∨ direntsSize o.plus d.dots + o.needs d.entries ≤ size ∨
    ∃ e ∈ d.entries.getLast?, o.hidefile e = false ∧ 2 ≤ d.entries.length ∧
      direntsSize o.plus d.dots + o.needs d.entries.dropLast < size

variable {sizes : List ℕ} {replies returned : List (List FuseDirent)}

theorem not_listsOnce (hrun : virtualReplies d o 0 sizes = some replies)
    (hlt : replies.flatten.length < d.dots.length + (o.visible d.entries).length) :
    ¬ ListsOnce d o sizes := by
  rintro ⟨returned, ends, heq, hall, -⟩
  cases hrun.symm.trans heq
  rw [flatten_append, hall, length_append, length_direntsFrom, length_append] at hlt
  omega

theorem two_le_length_dots (l : List (Bytes × FuseInode)) : 2 ≤ 0 + (d.dots ++ l).length := by
  rw [length_append, FuseDirectory.dots, length_cons, length_singleton]
  omega

theorem listsOnce_of_all {o' : FuseOpendir} (hd : d.Numbered) (hino : o'.ino = 0) (size₂ : ℕ) (sizes : List ℕ)
    (hcall : fsCommonVirtualReaddir d o size 0 = some (o', direntsFrom 0 (d.dots ++ o.visible d.entries))) :
    ListsOnce d o (size :: size₂ :: sizes) := by
  obtain ⟨ends, hends, hne, hempty⟩ := virtualReplies_end hd size₂ sizes hino (two_le_length_dots _)
  refine ⟨[_], ends, virtualReplies_cons hcall hends, flatten_singleton, ?_, hne, hempty⟩
  simp [FuseDirectory.dots, direntsFrom]

theorem listsOnce_of_two {o₁ o₂ : FuseOpendir} {size₂ : ℕ} {first second : List (Bytes × FuseInode)}
    (hd : d.Numbered) (hino : o₂.ino = 0) (size₃ : ℕ) (sizes : List ℕ)
    (hall : first ++ second = d.dots ++ o.visible d.entries) (hfirst : first ≠ []) (hsecond : second ≠ [])
    (hcall₁ : fsCommonVirtualReaddir d o size 0 = some (o₁, direntsFrom 0 first))
    (hcall₂ : fsCommonVirtualReaddir d o₁ size₂ first.length = some (o₂, direntsFrom first.length second)) :
    ListsOnce d o (size :: size₂ :: size₃ :: sizes) := by
  have hoffset : 2 ≤ first.length + second.length := by
    rw [← length_append, hall, ← Nat.zero_add (length _)]
    exact two_le_length_dots _
  obtain ⟨ends, hends, hne, hempty⟩ := virtualReplies_end hd size₃ sizes hino hoffset
  rw [← Nat.zero_add first.length] at hcall₂ hends
  refine ⟨[_, _], ends, virtualReplies_cons hcall₁ (virtualReplies_cons hcall₂ hends), ?_, ?_, hne, hempty⟩
  · rw [← hall, direntsFrom_append]
    simp
  · have hnil {offset : ℕ} {l : List (Bytes × FuseInode)} (hl : l ≠ []) : [] ≠ direntsFrom offset l := by
      obtain ⟨e, l, rfl⟩ := exists_cons_of_ne_nil hl
      exact (cons_ne_nil _ _).symm
    simp [hnil hfirst, hnil hsecond]

/-- The call behind the one that cuts the last entry returns it. -/
theorem FuseOpendir.CutsLast.readdir_eq {size₂ offset : ℕ} (he : o.CutsLast room keep d.entries e)
    (hd : d.Numbered) (hopen : o.finish = false ∧ o.failed = false) (hsize : direntSize o.plus e.name ≤ size₂)
    (hoffset : 2 ≤ offset) :
    ∃ o₂, fsCommonVirtualReaddir d { o with ino := e.inode.ino } size₂ offset =
      some (o₂, direntsFrom offset [e.listed]) ∧ o₂.ino = 0 := by
  have hpos := direntSize_pos o.plus e.name
  have hone : { o with ino := e.inode.ino }.visible [e] = [e.listed] :=
    (visible_cons e []).trans (if_neg (Bool.eq_false_iff.mp he.shown))
  have hall := @take_all { o with ino := e.inode.ino }
    [e] 0 size₂ (by rw [FuseOpendir.needs, hone]; exact hsize)
  obtain ⟨finish, hcall⟩ := @readdir_since d { o with ino := e.inode.ino } size₂ offset hoffset (by omega)
    hopen.1 hopen.2
  rw [he.since_eq hd (suffix_refl _), hall, hone] at hcall
  exact ⟨_, hcall, rfl⟩

/-- When the first buffer takes the dots, three things can come of the entries. -/
theorem listsOnce_of_dots_iff {size₂ size₃ : ℕ} (hd : d.Numbered)
    (hopen : o.finish = false ∧ o.failed = false) (hdots : direntsSize o.plus d.dots ≤ size)
    (hcall : TakesDots d o size (o.take (size - direntsSize o.plus d.dots) 0 d.entries))
    (hroom : ∀ e ∈ d.entries, direntSize o.plus e.name ≤ size₂) :
    ListsOnce d o (size :: size₂ :: size₃ :: sizes) ↔ FirstSuffices d o size := by
  obtain ⟨finish, hcall, hfinish⟩ := hcall
  rw [FirstSuffices]
  by_cases hall : o.needs d.entries ≤ size - direntsSize o.plus d.dots
  · rw [take_all hall] at hcall
    exact iff_of_true (listsOnce_of_all hd rfl _ _ hcall) (.inr (.inl (by omega)))
  by_cases hcut : ∃ e, o.CutsLast (size - direntsSize o.plus d.dots) 0 d.entries e
  · obtain ⟨e, he⟩ := hcut
    have hmem : e ∈ d.entries := mem_of_getLast? he.last
    have hpos := hd.pos e hmem
    have hroom₁ := he.room
    rw [he.take_eq] at hcall hfinish
    have hopened : finish = o.finish := by
      rw [hopen.1]
      exact Bool.eq_false_iff.mpr fun h => Nat.ne_of_gt hpos (hfinish h)
    rw [hopened] at hcall
    obtain ⟨o₂, hcall₂, hino⟩ := he.readdir_eq hd hopen (hroom e hmem) (two_le_length_dots _)
    rw [Nat.zero_add] at hcall₂
    refine iff_of_true (listsOnce_of_two hd hino size₃ sizes ?_ ?_ (cons_ne_nil _ _) hcall hcall₂)
      (.inr (.inr ⟨e, he.last, he.shown, ?_, by omega⟩))
    · rw [append_assoc, ← he.visible_eq]
    · exact cons_ne_nil _ _
    · exact he.kept.resolve_right (Nat.ne_of_lt hpos)
  · refine iff_of_false ?_ ?_
    · have htake := take_lt hd (suffix_refl _) (.inl rfl) (Nat.lt_of_not_le hall) (not_exists.mp hcut)
      obtain ⟨replies, hreplies, -, hsum⟩ := virtualReplies_le hd (size₂ :: size₃ :: sizes)
        (two_le_length_dots _)
      refine not_listsOnce (virtualReplies_cons hcall hreplies) ?_
      rw [flatten_cons, length_append, length_direntsFrom, length_append, Nat.add_assoc]
      exact Nat.add_lt_add_left (Nat.lt_of_le_of_lt (Nat.add_le_add_left hsum _) htake) _
    · rintro (hnil | hsize | ⟨e, hlast, hshown, htwo, hsize⟩)
      · rw [FuseOpendir.needs, hnil] at hall
        exact hall (Nat.zero_le _)
      · omega
      · exact hcut ⟨e, hlast, hshown, .inl htwo, by omega, by omega⟩

/-- With room for one entry in each of three buffers or more, the first one decides. -/
theorem fsCommonVirtualReaddir_once_iff (d : FuseDirectory) (o : FuseOpendir) (size size₂ size₃ : ℕ)
    (sizes : List ℕ) (hd : d.Numbered) (hnew : o.ino = 0 ∧ o.finish = false ∧ o.failed = false)
    (hroom : ∀ n ∈ [size, size₂], ∀ name ∈ dotName :: dotdotName :: d.entries.map (·.name),
      direntSize o.plus name ≤ n) :
    ListsOnce d o (size :: size₂ :: size₃ :: sizes) ↔ FirstSuffices d o size := by
  obtain ⟨hino, hopen⟩ := hnew
  have hfirst := @readdir_first d o size hino hopen (hroom _ (by simp) _ (by simp))
  split at hfirst
  · next hdots =>
    refine listsOnce_of_dots_iff hd hopen hdots hfirst fun e he => hroom _ (by simp) _ ?_
    exact mem_cons_of_mem _ (mem_cons_of_mem _ (mem_map_of_mem he))
  · next hdots =>
    obtain ⟨finish, hsecond⟩ := @readdir_second d o size₂ hino hopen (hroom _ (by simp) _ (by simp))
    by_cases hnone : o.visible d.entries = []
    · refine iff_of_true (listsOnce_of_two hd ?_ size₃ sizes ?_ ?_ ?_ hfirst hsecond) (.inl hnone)
      · exact hino
      · rw [hnone]
        rfl
      · exact cons_ne_nil _ _
      · exact cons_ne_nil _ _
    · refine iff_of_false ?_ ?_
      · obtain ⟨ends, hends, -, hempty⟩ := @virtualReplies_end d { o with finish } hd size₃ sizes 2
          hino (Nat.le_refl 2)
        refine not_listsOnce (virtualReplies_cons hfirst (virtualReplies_cons hsecond hends)) ?_
        rw [flatten_cons, flatten_cons, flatten_eq_nil_iff.mpr hempty]
        exact Nat.lt_add_of_pos_right (length_pos_iff.mpr hnone)
      · rintro (hnil | hall | ⟨e, -, -, -, hlast⟩)
        · exact hnone hnil
        · omega
        · omega

/-- The second of two entries does not find room in the first buffer, and comes with the second one. -/
theorem fsCommonVirtualReaddir_once_iff_two :
    ListsOnce ⟨⟨1, 0⟩, none, [⟨[97], ⟨2, 0⟩, false⟩, ⟨[98], ⟨3, 0⟩, false⟩]⟩
      ⟨false, false, false, 0, false, false, false⟩ [100, 32, 32] :=
  (fsCommonVirtualReaddir_once_iff _ _ 100 32 32 [] ⟨by decide, by decide⟩ ⟨rfl, rfl, rfl⟩
    (by decide)).mpr (.inr (.inr ⟨_, rfl, by decide⟩))

/-- Every buffer takes one entry, and the one of the directory is never returned. -/
theorem virtual_entry_lost :
    virtualReplies ⟨⟨1, 0⟩, none, [⟨[97], ⟨2, 0⟩, false⟩]⟩ ⟨false, false, false, 0, false, false, false⟩ 0
        [32, 32, 32, 32] = some [[⟨1, 1, 0, [46]⟩], [⟨1, 2, 0, [46, 46]⟩], [], []] := by
  decide

end Virtual

/-! ## Directories that are read in the background -/

namespace FuseReaddir

/-- What has been returned, with the entries in the buffer of a call. -/
def returned (s : FuseReaddir) : List FuseDirent :=
  s.replies.flatten ++ (s.request.map (·.1.data)).getD []

def place (s : FuseReaddir) : ℕ := (s.request.map (·.1.offset)).getD s.offset

def pending (lookup : ℕ → Option FuseEntry) (s : FuseReaddir) : List FuseEntry :=
  (s.kept lookup).toList ++ s.entries

def init (o : FuseOpendir) : FuseReaddir := ⟨o, [], none, 0, [], []⟩

def listing (d : FuseDirectory) (s : FuseReaddir) : List FuseDirent :=
  direntsFrom 0 (d.dots ++ s.queued.map (·.listed))

end FuseReaddir

/-- The reader does not fail, the number of an inode leads to its entry, and every buffer has the room
that an entry needs at most. -/
def FuseReaddirAction.Fits (lookup : ℕ → Option FuseEntry) (plus : Bool) (room : ℕ) : FuseReaddirAction → Prop
  | .queue e => (0 < e.inode.ino ∧ lookup e.inode.ino = some e) ∧ direntSize plus e.name ≤ room
  | .fail => False
  | .readdir size => room ≤ size
  | _ => True

section Background

open FuseReaddir

variable {d : FuseDirectory} {lookup : ℕ → Option FuseEntry} {plus : Bool} {room : ℕ}

/-- What has been returned and what is pending make up the listing. -/
structure Unlost (d : FuseDirectory) (lookup : ℕ → Option FuseEntry) (plus : Bool) (room : ℕ)
    (s : FuseReaddir) : Prop where
  fits : ∀ e ∈ s.pending lookup, FuseReaddirAction.Fits lookup plus room (.queue e)
  failed : s.opendir.failed = false
  plus : s.opendir.plus = plus
  early : s.place < 2 → s.opendir.ino = 0
  request : ∀ r, s.request = some r →
    nextOffset s.offset r.1.data = r.1.offset ∧ room ≤ r.1.size ∧ (r.1.data = [] → r.1.pos = 0)
  listing : ∃ done, s.returned = direntsFrom 0 done ∧ done.length = s.place ∧
    done ++ (d.dots.drop s.place ++ (s.pending lookup).map (·.listed)) = d.dots ++ s.queued.map (·.listed)

variable {s s' : FuseReaddir} {b : DirentryBuffer} {name : Bytes} {inode : FuseInode} {ino : ℕ}
  {interrupted expired : Bool} {entries : List FuseEntry}

/-- The passes: the reply at the end, a dot, an entry, and the reply when no entry comes. -/
theorem pass_cases (hs : s.request = some (b, interrupted)) (hstep : s.pass d lookup expired = some s') :
    (¬ (b.pos < b.size ∧ ¬ interrupted ∧ ¬ s.opendir.failed) ∧ s' = s.reply b.data) ∨
      b.pos < b.size ∧ interrupted = false ∧
        ((∃ name inode, b.offset < 2 ∧ s' = s.add b name inode 0 ∧
            d.dots.drop b.offset = (name, inode) :: d.dots.drop (b.offset + 1)) ∨
          2 ≤ b.offset ∧ ((∃ e entries, s.pending lookup = e :: entries ∧
              s' = { s.keep 0 with entries }.add b e.name e.inode e.inode.ino) ∨
            s.pending lookup = [] ∧ s' = (s.keep 0).reply b.data)) := by
  simp only [FuseReaddir.pass, hs, bind_some] at hstep
  split at hstep
  · rename_i hopen
    refine .inr ⟨hopen.1, by simpa using hopen.2.1, ?_⟩
    split at hstep
    case h_1 hoffset | h_2 hoffset =>
      cases hstep
      exact .inl ⟨_, _, by omega, rfl, by rw [hoffset]; rfl⟩
    · rename_i hzero hone
      have hzero : b.offset ≠ 0 := hzero
      have hone : b.offset ≠ 1 := hone
      refine .inr ⟨by omega, ?_⟩
      rw [FuseReaddir.addEntry] at hstep
      split at hstep
      · rename_i hkept
        cases hstep
        exact .inl ⟨_, _, by rw [pending, hkept]; rfl, rfl⟩
      · rename_i hkept hentries
        cases hstep
        exact .inl ⟨_, _, by rw [pending, hkept, hentries]; rfl, rfl⟩
      · rename_i hkept hentries
        obtain ⟨-, heq⟩ := ite_none_right_eq_some.mp hstep
        cases heq
        exact .inr ⟨by rw [pending, hkept, hentries]; rfl, rfl⟩
  · rename_i hopen
    cases hstep
    exact .inl ⟨hopen, rfl⟩

namespace Unlost

/-- Another way to hold what has been returned. -/
theorem of_request {r : Option (DirentryBuffer × Bool)} {offset : ℕ} {replies : List (List FuseDirent)}
    (h : Unlost d lookup plus room s)
    (hreturned : FuseReaddir.returned { s with request := r, offset, replies } = s.returned)
    (hplace : FuseReaddir.place { s with request := r, offset, replies } = s.place)
    (hrequest : ∀ x, r = some x →
      nextOffset offset x.1.data = x.1.offset ∧ room ≤ x.1.size ∧ (x.1.data = [] → x.1.pos = 0)) :
    Unlost d lookup plus room { s with request := r, offset, replies } := by
  refine ⟨h.fits, h.failed, h.plus, ?_, hrequest, ?_⟩
  · rw [hplace]
    exact h.early
  · rw [hplace, hreturned]
    exact h.listing

theorem reply (h : Unlost d lookup plus room s) (hs : s.request = some (b, interrupted)) :
    Unlost d lookup plus room (s.reply b.data) := by
  obtain ⟨hoffset, -⟩ := h.request _ hs
  refine h.of_request ?_ ?_ fun x hx => nomatch hx
  · simp [returned, hs]
  · simp [place, hs, hoffset]

theorem add (h : Unlost d lookup plus room (s.keep ino)) (hs : s.request = some (b, false))
    (hino : s.opendir.ino = 0) (hentries : ∀ e ∈ s.entries, e ∈ (s.keep ino).pending lookup)
    (hnext : d.dots.drop b.offset ++ ((s.keep ino).pending lookup).map (·.listed) =
      (name, inode) :: (d.dots.drop (b.offset + 1) ++ s.entries.map (·.listed))) :
    Unlost d lookup plus room (s.add b name inode ino) := by
  rw [FuseReaddir.add]
  cases hadd : s.opendir.addDirentry b name inode with
  | none => exact h.reply hs
  | some b' =>
    obtain ⟨-, heq⟩ := ite_none_right_eq_some.mp hadd
    cases heq
    have hpending (r) : pending lookup { s with request := r } = s.entries := by
      simp [pending, kept, hino]
    have hreturned : (s.keep ino).returned = s.replies.flatten ++ b.data := by
      simp [returned, FuseReaddir.keep, hs]
    have hplace : (s.keep ino).place = b.offset := by
      simp [place, FuseReaddir.keep, hs]
    refine ⟨?_, h.failed, h.plus, fun _ => hino, ?_, ?_⟩
    · rw [hpending]
      exact fun e he => h.fits e (hentries e he)
    · intro r hr
      cases hr
      exact ⟨by simp [nextOffset, direntOf], (h.request _ hs).2.1, by simp⟩
    · obtain ⟨done, hdone, hlength, hall⟩ := h.listing
      rw [hreturned] at hdone
      rw [hplace] at hlength hall
      rw [hnext, append_cons] at hall
      refine ⟨done ++ [(name, inode)], ?_, by rw [length_append, hlength]; rfl, ?_⟩
      · rw [direntsFrom_append, ← hdone, Nat.zero_add, hlength, append_assoc]
        rfl
      · rw [hpending]
        exact hall

/-- Behind the dots nothing but the entries that are pending matters. -/
theorem of_pending (h : Unlost d lookup plus room s) (hplace : 2 ≤ s.place)
    (hpending : pending lookup { s.keep ino with entries } = s.pending lookup) :
    Unlost d lookup plus room { s.keep ino with entries } := by
  refine ⟨?_, h.failed, h.plus, fun hlt => absurd hlt (Nat.not_lt_of_le hplace), h.request, ?_⟩
  · rw [hpending]
    exact h.fits
  · rw [hpending]
    exact h.listing

theorem pass (h : Unlost d lookup plus room s) (hstep : s.pass d lookup expired = some s') :
    Unlost d lookup plus room s' := by
  obtain ⟨⟨b, interrupted⟩, hs, -⟩ := bind_eq_some_iff.mp hstep
  have hplace : s.place = b.offset := by rw [place, hs]; rfl
  rcases pass_cases hs hstep with ⟨-, rfl⟩ | ⟨-, rfl, ⟨name, inode, hlt, rfl, hdots⟩ |
    ⟨hle, ⟨e, entries, hpending, rfl⟩ | ⟨hpending, rfl⟩⟩⟩
  · exact h.reply hs
  · have hino : s.opendir.ino = 0 := h.early (hplace ▸ hlt)
    have hkeep : s.keep 0 = s := by rw [FuseReaddir.keep, ← hino]
    have hpending : s.pending lookup = s.entries := by simp [pending, kept, hino]
    refine add (hkeep ▸ h) hs hino ?_ ?_
    · rw [hkeep, hpending]
      exact fun e he => he
    · rw [hkeep, hpending, hdots, cons_append]
  · obtain ⟨⟨hpos, hlookup⟩, -⟩ := h.fits e (by simp [hpending])
    have hkept : pending lookup ({ s.keep 0 with entries }.keep e.inode.ino) = e :: entries := by
      simp [pending, kept, FuseReaddir.keep, hpos, hlookup]
    have hdots {n : ℕ} (hn : 2 ≤ n) : d.dots.drop n = [] := drop_eq_nil_of_le hn
    refine add (s := { s.keep 0 with entries }) ?_ hs rfl ?_ ?_
    · exact h.of_pending (hplace ▸ hle) (hkept.trans hpending.symm)
    · intro x hx
      rw [hkept]
      exact mem_cons_of_mem _ hx
    · rw [hkept, hdots hle, hdots (Nat.le_succ_of_le hle)]
      rfl
  · have hnone := (append_eq_nil_iff.mp hpending).2
    have hkept : pending lookup { s.keep 0 with entries := s.entries } = s.pending lookup :=
      hnone.trans hpending.symm
    exact (h.of_pending (hplace ▸ hle) hkept).reply hs

/-- Nothing is lost by an action whose entries find room. -/
theorem step {a : FuseReaddirAction} (h : Unlost d lookup plus room s) (ha : a.Fits lookup plus room)
    (hstep : readdirStep d lookup s a = some s') : Unlost d lookup plus room s' := by
  cases a with
  | queue e =>
    cases hstep
    refine { h with fits := ?_, listing := ?_ }
    · intro x hx
      simp only [pending, ← append_assoc, mem_append, mem_singleton] at hx
      rcases hx with hx | rfl
      · exact h.fits x (mem_append.mpr hx)
      · exact ha
    · obtain ⟨done, hdone, hlength, hall⟩ := h.listing
      refine ⟨done, hdone, hlength, ?_⟩
      simp only [pending, map_append, ← append_assoc] at hall ⊢
      rw [← hall]
      rfl
  | eod =>
    cases hstep
    exact { h with }
  | fail => exact ha.elim
  | readdir size =>
    obtain ⟨hnone, heq⟩ := ite_none_right_eq_some.mp hstep
    cases heq
    have hs : s.request = none := by simpa using hnone
    refine h.of_request (by simp [returned, hs]) (by simp [place, hs]) ?_
    intro r hr
    cases hr
    exact ⟨rfl, ha, fun _ => rfl⟩
  | interrupt =>
    obtain ⟨r, hs, heq⟩ := map_eq_some_iff.mp hstep
    cases heq
    refine h.of_request (by simp [returned, hs]) (by simp [place, hs]) ?_
    intro r' hr
    cases hr
    exact h.request r hs
  | pass expired => exact h.pass hstep

theorem init {o : FuseOpendir} (hino : o.ino = 0) (hfailed : o.failed = false) :
    Unlost d lookup o.plus room (FuseReaddir.init o) := by
  have hpending : (FuseReaddir.init o).pending lookup = [] := by
    simp [pending, kept, FuseReaddir.init, hino]
  refine ⟨?_, hfailed, rfl, fun _ => hino, ?_, [], rfl, rfl, ?_⟩
  · rw [hpending]
    exact fun e he => absurd he not_mem_nil
  · intro r hr
    cases hr
  · rw [hpending]
    rfl

theorem returned_prefix (h : Unlost d lookup plus room s) : s.returned <+: s.listing d := by
  obtain ⟨done, hdone, -, hall⟩ := h.listing
  rw [hdone, FuseReaddir.listing, ← hall, direntsFrom_append]
  exact prefix_append _ _

end Unlost

theorem add_request_of_le (h : direntSize s.opendir.plus name ≤ b.size - b.pos) :
    (s.add b name inode ino).request ≠ none := by
  rw [FuseReaddir.add, addDirentry_of_le inode h]
  exact some_ne_none _

/-- An empty reply to a call that has not been interrupted says that all entries have been returned. -/
theorem Unlost.complete (h : Unlost d lookup plus room s) (hroom : direntSize plus dotdotName ≤ room)
    (hs : s.request = some (b, false)) (hdata : b.data = []) (hstep : s.pass d lookup expired = some s')
    (hnone : s'.request = none) : s'.replies.flatten = s'.listing d := by
  obtain ⟨-, hsize, hpos⟩ := h.request _ hs
  simp only [hdata, forall_const] at hpos hsize
  have hfit {name : Bytes} (hname : direntSize plus name ≤ room) :
      direntSize s.opendir.plus name ≤ b.size - b.pos := by
    rw [h.plus]
    omega
  rcases pass_cases hs hstep with ⟨hclosed, -⟩ | ⟨-, -, ⟨name, inode, hlt, rfl, hdots⟩ |
    ⟨hle, ⟨e, entries, hpending, rfl⟩ | ⟨hpending, rfl⟩⟩⟩
  · have := direntSize_pos plus dotdotName
    exact absurd ⟨by omega, by simp, by simp [h.failed]⟩ hclosed
  · refine absurd hnone (add_request_of_le (hfit ?_))
    have hname : (name, inode) ∈ d.dots := mem_of_mem_drop (hdots ▸ mem_cons_self)
    have hdot : direntSize plus dotName = direntSize plus dotdotName := by cases plus <;> rfl
    simp only [FuseDirectory.dots, mem_cons, not_mem_nil, or_false, Prod.mk.injEq] at hname
    rcases hname with ⟨rfl, -⟩ | ⟨rfl, -⟩
    · rw [hdot]
      exact hroom
    · exact hroom
  · exact absurd hnone (add_request_of_le (hfit (h.fits e (by simp [hpending])).2))
  · obtain ⟨done, hdone, -, hall⟩ := h.listing
    have hdots : d.dots.drop s.place = [] := by
      rw [place, hs]
      exact drop_eq_nil_of_le hle
    rw [hpending, hdots, map_nil, append_nil, append_nil] at hall
    rw [hall] at hdone
    simpa [returned, hs, hdata, FuseReaddir.reply, FuseReaddir.keep, FuseReaddir.listing] using hdone

/-- A pass answers the call, or there is less room behind it. -/
theorem pass_expired (hs : s.request = some (b, interrupted)) :
    ∃ s', s.pass d lookup true = some s' ∧ (s'.request = none ∨
      ∃ b' interrupted', s'.request = some (b', interrupted') ∧ b'.size - b'.pos < b.size - b.pos) := by
  have hadd (s : FuseReaddir) (name inode ino) (hpos : b.pos < b.size) :
      (s.add b name inode ino).request = none ∨ ∃ b' interrupted',
        (s.add b name inode ino).request = some (b', interrupted') ∧ b'.size - b'.pos < b.size - b.pos := by
    by_cases hfit : direntSize s.opendir.plus name ≤ b.size - b.pos
    · have := direntSize_pos s.opendir.plus name
      rw [FuseReaddir.add, addDirentry_of_le inode hfit]
      exact .inr ⟨_, _, rfl, by simp only; omega⟩
    · rw [FuseReaddir.add, FuseOpendir.addDirentry, if_neg hfit]
      exact .inl rfl
  have hsome : (s.pass d lookup true).isSome := by
    simp only [FuseReaddir.pass, FuseReaddir.addEntry, hs, bind_some]
    repeat' split
    all_goals simp_all
  obtain ⟨s', hstep⟩ := isSome_iff_exists.mp hsome
  refine ⟨s', hstep, ?_⟩
  rcases pass_cases hs hstep with ⟨-, rfl⟩ | ⟨hpos, -, ⟨_, _, -, rfl, -⟩ | ⟨-, ⟨_, _, -, rfl⟩ | ⟨-, rfl⟩⟩⟩
  · exact .inl rfl
  · exact hadd _ _ _ _ hpos
  · exact hadd _ _ _ _ hpos
  · exact .inl rfl

theorem call_ends (hs : s.request.isSome) : ∃ n s', run (readdirStep d lookup) s
    (replicate n (.pass true)) = some s' ∧ s'.request = none := by
  obtain ⟨⟨b, interrupted⟩, hr⟩ := isSome_iff_exists.mp hs
  induction hroom : b.size - b.pos using Nat.strongRecOn generalizing s b interrupted with
  | _ m ih =>
    obtain ⟨s₁, hpass, hnone | ⟨b₁, interrupted₁, hr₁, hless⟩⟩ := @pass_expired d lookup s _ _ hr
    · exact ⟨1, s₁, run_cons_eq_some.mpr ⟨s₁, hpass, rfl⟩, hnone⟩
    · obtain ⟨n, s', hrun, hnone⟩ := ih _ (hroom ▸ hless) (by rw [hr₁]; rfl) b₁ interrupted₁ hr₁ rfl
      exact ⟨n + 1, s', run_cons_eq_some.mpr ⟨s₁, hpass, hrun⟩, hnone⟩

/-- The replies are a first part of the listing in the order of the queue, every call ends, and an empty
reply says that nothing is missing. -/
theorem fsCommonReaddir_listing (d : FuseDirectory) (lookup : ℕ → Option FuseEntry) (o : FuseOpendir)
    (room : ℕ) (as : List FuseReaddirAction) (s : FuseReaddir) (hnew : o.ino = 0 ∧ o.failed = false)
    (hroom : direntSize o.plus dotdotName ≤ room) (hfits : ∀ a ∈ as, a.Fits lookup o.plus room)
    (hrun : run (readdirStep d lookup) (FuseReaddir.init o) as = some s) :
    s.returned <+: s.listing d ∧
      (s.request.isSome → ∃ n s', run (readdirStep d lookup) s
        (replicate n (.pass true)) = some s' ∧ s'.request = none) ∧
      ∀ b expired s', s.request = some (b, false) → b.data = [] →
        readdirStep d lookup s (.pass expired) = some s' → s'.request = none →
          s'.replies.flatten = s'.listing d := by
  have h : Unlost d lookup o.plus room s :=
    run_invariant (fun _ _ _ h ha hstep => h.step ha hstep) (Unlost.init hnew.1 hnew.2)
      (along_of_forall hfits _) hrun
  exact ⟨h.returned_prefix, call_ends,
    fun b expired s' hs hdata hstep hnone => h.complete hroom hs hdata hstep hnone⟩

/-- A directory with one entry, and a first call that returns the dots. -/
def oneEntry : FuseEntry := ⟨[97], ⟨2, 0⟩, false⟩

def oneStep : FuseReaddir → FuseReaddirAction → Option FuseReaddir :=
  readdirStep ⟨⟨1, 0⟩, none, []⟩ fun _ => some oneEntry

def oneOpendir : FuseOpendir := ⟨false, false, false, 0, false, false, false⟩

def dotsCall : List FuseReaddirAction :=
  [.queue oneEntry, .readdir 64, .pass false, .pass false, .pass false]

theorem fsCommonReaddir_listing_second : ∃ s,
    run oneStep (.init oneOpendir) (dotsCall ++ [.readdir 32, .pass false]) = some s ∧
      s.returned <+: s.listing ⟨⟨1, 0⟩, none, []⟩ := by
  refine ⟨_, rfl, (fsCommonReaddir_listing ⟨⟨1, 0⟩, none, []⟩ (fun _ => some oneEntry) oneOpendir 32
    (dotsCall ++ [.readdir 32, .pass false]) _ ⟨rfl, rfl⟩ (by decide) ?_ rfl).1⟩
  simp [FuseReaddirAction.Fits, dotsCall, oneEntry, direntSize, oneOpendir]

/-- The reader fails behind the entry that it has queued: the next call, with room for all of them, gets
an empty reply. -/
theorem queued_entry_lost : ∃ s,
    run oneStep (.init oneOpendir) (dotsCall ++ [.fail, .readdir 4096, .pass false]) = some s ∧
      s.queued = [oneEntry] ∧
      s.replies = [direntsFrom 0 [(dotName, ⟨1, 0⟩), (dotdotName, ⟨1, 0⟩)], []] :=
  ⟨_, rfl, rfl, rfl⟩

end Background

end Osns
