import Mathlib.Order.Nat
import Osns.Verification.Skiplist.Calls

/-! A skiplist stands for a set of elements over any number of calls, as long as the dirnodes of its lanes
are counted right when an element is inserted. Removing dirnodes does not always do so. -/

namespace Osns

open List Option OrderedList Transition

/-! ## One call -/

section Represents

variable {α κ : Type} [DecidableEq α] [LinearOrder κ] {key : α → κ} {sl sl' : Skiplist α}
  {S : Finset α} {r : SearchResult α} {op : SlOp α κ}

/-- The elements of the list are those of a set. -/
structure Skiplist.Represents (key : α → κ) (sl : Skiplist α) (S : Finset α) : Prop where
  wellFormed : sl.WellFormed key
  elements : sl.list.toFinset = S

section

variable (h : sl.Represents key S)

include h

theorem Skiplist.Represents.mem_iff (x : α) : x ∈ sl.list ↔ x ∈ S := by
  rw [← h.elements, List.mem_toFinset]

theorem Skiplist.Represents.exists_key_iff (k : κ) :
    (∃ x ∈ sl.list, key x = k) ↔ ∃ x ∈ S, key x = k := by
  simp [h.mem_iff]

theorem Skiplist.Represents.count : sl.count = S.card := by
  rw [h.wellFormed.count, ← h.elements, toFinset_card_of_nodup h.wellFormed.increasing.nodup]

/-- What a call reports is right for the set before it, and it leaves the set after it. -/
def SlOp.Serves (key : α → κ) (sl : Skiplist α) (S : Finset α) (op : SlOp α κ) : Prop :=
  ∃ sl' r, slCall key sl op = some (sl', r) ∧ sl'.Represents key (op.apply key S) ∧ op.Reports key S r

theorem slInsert_serves (e : α) :
    (slCall key sl (.insert e) = none ∧ doLevelup sl.lanes (sl.count + 1) = none) ∨
      (SlOp.insert e).Serves key sl S := by
  by_cases hexists : ∃ x ∈ S, key x = key e
  · obtain ⟨x, hx, hkey⟩ := (h.exists_key_iff _).mpr hexists
    obtain ⟨r, hinsert, hok, hexact, hfound⟩ := slInsert_present h.wellFormed hx hkey
    refine .inr ⟨sl, r, hinsert, ?_, ?_, ?_, ?_⟩
    · rw [SlOp.apply, if_pos hexists]
      exact h
    · exact iff_of_false hok (not_not_intro hexists)
    · exact iff_of_true hexact hexists
    · intro y hy hkey'
      have heq : x = y := h.wellFormed.increasing.eq_of_key hx ((h.mem_iff y).mpr hy)
        (hkey.trans hkey'.symm)
      rw [hfound, heq]
  · rcases slInsert_absent h.wellFormed (fun hlist => hexists ((h.exists_key_iff _).mp hlist)) with
      hnone | ⟨sl', r, front, rest, hinsert, hwell, hlist, hlist', hok, hexact⟩
    · exact .inl hnone
    · refine .inr ⟨sl', r, hinsert, ⟨hwell, ?_⟩, ?_, ?_, ?_⟩
      · rw [SlOp.apply, if_neg hexists, hlist', ← h.elements, hlist]
        ext x
        simp only [List.mem_toFinset, mem_append, mem_cons, Finset.mem_union, Finset.mem_singleton]
        tauto
      · exact iff_of_true hok hexists
      · exact iff_of_false hexact hexists
      · intro x hx hkey
        exact absurd ⟨x, hx, hkey⟩ hexists

theorem slDelete_serves (k : κ) : (SlOp.delete k).Serves key sl S := by
  by_cases hexists : ∃ x ∈ S, key x = k
  · obtain ⟨x, hx, hkey⟩ := (h.exists_key_iff _).mpr hexists
    obtain ⟨sl', r, hdelete, hwell, hlist, hok⟩ := slDelete_present h.wellFormed hx hkey
    refine ⟨sl', r, hdelete, ⟨hwell, ?_⟩, iff_of_true hok hexists⟩
    ext y
    rw [SlOp.apply, Finset.mem_filter, hlist, List.mem_toFinset,
      h.wellFormed.increasing.nodup.mem_erase_iff, ← h.mem_iff]
    constructor
    · rintro ⟨hne, hy⟩
      refine ⟨hy, fun hkey' => hne ?_⟩
      exact h.wellFormed.increasing.eq_of_key hy hx (hkey'.trans hkey.symm)
    · rintro ⟨hy, hne⟩
      exact ⟨fun heq => hne (heq ▸ hkey), hy⟩
  · obtain ⟨r, hdelete, hok⟩ :=
      slDelete_absent h.wellFormed (fun hlist => hexists ((h.exists_key_iff _).mp hlist))
    refine ⟨sl, r, hdelete, ?_, iff_of_false hok hexists⟩
    have hall : S.filter (key · ≠ k) = S := by
      refine Finset.filter_true_of_mem fun x hx hkey => hexists ⟨x, hx, hkey⟩
    rw [SlOp.apply, hall]
    exact h

theorem slFind_serves (k : κ) : (SlOp.find k).Serves key sl S := by
  obtain ⟨vector, r, hfind, hfound⟩ := slFindGeneric_found h.wellFormed k
  refine ⟨sl, r, ?_, h, ?_, ?_⟩
  · rw [slCall, slFind, hfind]
    rfl
  · rw [← h.exists_key_iff]
    exact tells_exact_iff h.wellFormed.increasing hfound.tells
  · intro x hx hkey
    exact (tells_exact h.wellFormed.increasing hfound.tells ((h.mem_iff x).mpr hx) hkey).2.2.2

def SlOp.Counted (sl : Skiplist α) : SlOp α κ → Prop
  | .insert _ => sl.lanes.Counted
  | .delete _ => True
  | .find _ => True

instance SlOp.decidableCounted (sl : Skiplist α) : (op : SlOp α κ) → Decidable (op.Counted sl)
  | .insert _ => inferInstanceAs (Decidable sl.lanes.Counted)
  | .delete _ => isTrue True.intro
  | .find _ => isTrue True.intro

theorem slCall_serves (hop : op.Counted sl) : op.Serves key sl S := by
  cases op with
  | insert e =>
    refine (slInsert_serves h e).resolve_left ?_
    rintro ⟨-, hnone⟩
    obtain ⟨level, hlevel⟩ := doLevelup_isSome h.wellFormed.lanes hop (sl.count + 1)
    rw [hnone] at hlevel
    cases hlevel
  | delete k => exact slDelete_serves h k
  | find k => exact slFind_serves h k

theorem slCall_serves_of_isSome (hop : (slCall key sl op).isSome) :
    op.Serves key sl S := by
  cases op with
  | insert e =>
    refine (slInsert_serves h e).resolve_left ?_
    rintro ⟨hnone, -⟩
    rw [hnone] at hop
    cases hop
  | delete k => exact slDelete_serves h k
  | find k => exact slFind_serves h k

end

theorem SlOp.Serves.step (h : op.Serves key sl S) (hstep : slStep key sl op = some sl') :
    sl'.Represents key (op.apply key S) := by
  obtain ⟨sl₁, r, hcall, hrep, -⟩ := h
  rw [slStep, hcall, map_some] at hstep
  cases hstep
  exact hrep

end Represents

/-! ## Sequences of calls -/

section Runs

variable {α κ : Type} [LinearOrder κ] {key : α → κ}

theorem createSlSkiplist_sound (prob maxlevel : ℕ) : (createSlSkiplist α prob maxlevel).lanes.Sound where
  start := ⟨_, rfl, length_replicate, Nat.zero_le _⟩
  others := by
    intro d dirnode hne hd
    cases d with
    | zero => exact absurd rfl hne
    | succ d => cases hd
  links := by
    intro d dirnode level junction hd hjunction
    cases d with
    | zero =>
      cases hd
      rw [getElem?_replicate] at hjunction
      split at hjunction
      · cases hjunction
        have hvalid : (createSlSkiplist α prob maxlevel).lanes.Valid slStart level :=
          ⟨_, rfl, by rw [length_replicate]; assumption⟩
        exact ⟨hvalid, hvalid⟩
      · cases hjunction
    | succ d => cases hd

variable [DecidableEq α]

theorem createSlSkiplist_represents (key : α → κ) (prob maxlevel : ℕ) :
    (createSlSkiplist α prob maxlevel).Represents key ∅ where
  wellFormed := ⟨List.Pairwise.nil, rfl, createSlSkiplist_sound prob maxlevel⟩
  elements := rfl

variable {sl : Skiplist α} {ops : List (SlOp α κ)}

/-- By induction over the calls, each of which serves the set. -/
theorem run_represents {S : Finset α} (h : sl.Represents key S)
    (hops : Along (slStep key) (fun sl op => op.Counted sl) sl ops) :
    ∃ sl', run (slStep key) sl ops = some sl' ∧
      sl'.Represents key (ops.foldl (SlOp.apply key) S) := by
  induction ops generalizing sl S with
  | nil => exact ⟨sl, rfl, h⟩
  | cons op ops ih =>
    obtain ⟨sl₁, r, hcall, hrep, -⟩ := slCall_serves h hops.1
    have hstep : slStep key sl op = some sl₁ := by rw [slStep, hcall, map_some]
    obtain ⟨sl', hrun, hrep'⟩ := ih hrep (hops.2 sl₁ hstep)
    exact ⟨sl', run_cons_eq_some.mpr ⟨sl₁, hstep, hrun⟩, hrep'⟩

/-- A call that returns keeps the list sorted and the lanes sound. -/
theorem wellFormed_step (sl : Skiplist α) (op : SlOp α κ) (sl' : Skiplist α) (hwell : sl.WellFormed key)
    (hstep : slStep key sl op = some sl') : sl'.WellFormed key := by
  have hrep : sl.Represents key sl.list.toFinset := ⟨hwell, rfl⟩
  have hsome : (slCall key sl op).isSome := by
    rw [slStep, map_eq_some_iff] at hstep
    obtain ⟨r, hr, -⟩ := hstep
    rw [hr]
    rfl
  exact ((slCall_serves_of_isSome hrep hsome).step hstep).wellFormed

/-- Any sequence of calls is served as a set would serve it when every insertion finds the lanes counted. -/
theorem slRun_orderedSet (key : α → κ) (prob maxlevel : ℕ) (ops : List (SlOp α κ))
    (hops : Transition.Along (slStep key) (fun sl op => op.Counted sl)
      (createSlSkiplist α prob maxlevel) ops) :
    ∃ sl, run (slStep key) (createSlSkiplist α prob maxlevel) ops = some sl ∧
      Increasing key sl.list ∧ sl.list.toFinset = ops.foldl (SlOp.apply key) ∅ ∧
      sl.count = (ops.foldl (SlOp.apply key) ∅).card ∧
      ∀ op : SlOp α κ, op.Counted sl →
        ∃ sl' r, slCall key sl op = some (sl', r) ∧
          op.Reports key (ops.foldl (SlOp.apply key) ∅) r := by
  obtain ⟨sl, hrun, hrep⟩ := run_represents (createSlSkiplist_represents key prob maxlevel) hops
  refine ⟨sl, hrun, hrep.wellFormed.increasing, hrep.elements, hrep.count, fun op hop => ?_⟩
  obtain ⟨sl', r, hcall, -, hreports⟩ := slCall_serves hrep hop
  exact ⟨sl', r, hcall, hreports⟩

theorem slRun_orderedSet_two :
    ∃ sl, run (slStep (id : ℕ → ℕ)) (createSlSkiplist ℕ 4 9)
        [.insert 3, .insert 1, .insert 2, .delete 3] = some sl ∧
      Increasing id sl.list ∧ sl.list.toFinset = {1, 2} ∧ sl.count = 2 := by
  obtain ⟨sl, hrun, hlist, hset, hcount, -⟩ := slRun_orderedSet (id : ℕ → ℕ) 4 9
    [.insert 3, .insert 1, .insert 2, .delete 3] (by decide +kernel)
  refine ⟨sl, hrun, hlist, hset.trans ?_, hcount.trans ?_⟩
  · decide +kernel
  · decide +kernel

/-- Behind any calls of one thread, which gets all locks, a further one changes the set and reports on it
as for the ordered set, as long as freed dirnodes keep their contents; only `sl_insert` can fail, at the
division in `do_levelup`. -/
theorem slCall_refines (key : α → κ) (prob maxlevel : ℕ) (ops : List (SlOp α κ)) :
    Transition.Along (slStep key)
      (fun sl op => op.Serves key sl sl.list.toFinset ∨
        ∃ e, op = .insert e ∧ doLevelup sl.lanes (sl.count + 1) = none)
      (createSlSkiplist α prob maxlevel) ops := by
  apply along_of_preserves wellFormed_step _ (createSlSkiplist_represents key prob maxlevel).wellFormed
  intro sl op hwell
  cases op with
  | insert e => exact (slInsert_serves ⟨hwell, rfl⟩ e).symm.imp_right fun h => ⟨e, rfl, h.2⟩
  | delete k => exact .inl (slDelete_serves ⟨hwell, rfl⟩ k)
  | find k => exact .inl (slFind_serves ⟨hwell, rfl⟩ k)

/-- Calls after which a dirnode has been removed from a lane twice. -/
def removedTwice : List (SlOp ℕ ℕ) :=
  [.insert 12, .insert 14, .insert 11, .insert 16, .insert 9, .insert 5, .insert 17, .insert 13,
    .insert 15, .insert 4, .delete 5, .insert 8, .insert 7, .insert 1, .insert 0, .insert 3, .insert 10,
    .delete 1, .delete 3, .delete 7, .delete 4, .delete 8, .insert 6, .delete 6]

/-- The dirnodes of a lane are counted below zero, and the next insertion divides by zero. -/
theorem slInsert_divides_by_zero :
    (run (slStep (id : ℕ → ℕ)) (createSlSkiplist ℕ 4 9) removedTwice).map
        (fun sl => (sl.list, (sl.lanes.junction slStart 0).map (·.count))) =
      some ([0, 9, 10, 11, 12, 13, 14, 15, 16, 17], some 4294967295) ∧
      run (slStep (id : ℕ → ℕ)) (createSlSkiplist ℕ 4 9) (removedTwice ++ [.insert 2]) = none := by
  constructor
  · decide +kernel
  · exact isNone_iff_eq_none.mp (by decide +kernel)

end Runs

/-! ## The lock operations

The first element is counted twice in the lowest lane when the lock operations correct the lanes, and once
when they do not. -/

variable {α κ : Type}

/-- The dirnodes of a lane behind the first one, which is linked with them in a circle. -/
structure Skiplist.LaneRight (sl : Skiplist α) (level : ℕ) (lane : List ℕ) : Prop where
  nodup : (slStart :: lane).Nodup
  linked : ∀ x ∈ (slStart :: lane).zip (lane ++ [slStart]),
    (sl.lanes.junction x.1 level).map (·.n) = some x.2 ∧
      (sl.lanes.junction x.2 level).map (·.p) = some x.1
  live : ∀ d ∈ lane, d ∉ sl.lanes.freed
  elements : ∃ es, es <+ sl.list ∧ lane.map (fun d => sl.lanes.dirnodes[d]?.bind (·.list)) = es.map some
  count : (sl.lanes.junction slStart level).map (·.count) = some lane.length
  steps : (slStart :: lane).foldr (fun d sum => (sl.lanes.junction d level).elim 0 (·.step) + sum) 0 =
    sl.list.length

def Skiplist.LanesRight (sl : Skiplist α) : Prop :=
  ∃ top, sl.lanes.level = some top ∧ ∃ lane : ℕ → List ℕ, ∀ level ≤ top,
    sl.LaneRight level (lane level) ∧ lane (level + 1) <+ lane level

/-- The skiplist and the flags behind every call, as long as the calls return. -/
def slLog (call : Skiplist α → SlOp α κ → Option (Skiplist α × SearchResult α)) (sl : Skiplist α) :
    List (SlOp α κ) → List (Skiplist α × SearchFlags)
  | [] => []
  | op :: ops => (call sl op).elim [] fun r => (r.1, r.2.flags) :: slLog call r.1 ops

def SlOp.inserts : SlOp α κ → Bool
  | .insert _ => true
  | .delete _ => false
  | .find _ => false

theorem createSlSkiplist_lanesRight (prob maxlevel : ℕ) :
    (createSlSkiplist α prob maxlevel).LanesRight := by
  refine ⟨0, rfl, fun _ => [], ?_⟩
  intro level hlevel
  rw [Nat.le_zero.mp hlevel]
  refine ⟨⟨pairwise_singleton _ _, ?_, nofun, ⟨[], Sublist.refl _, rfl⟩, rfl, rfl⟩, Sublist.refl _⟩
  exact forall_mem_singleton.mpr ⟨rfl, rfl⟩

/-- The lane is empty, and there are two steps for one element. -/
theorem not_lanesRight_of_step {sl : Skiplist α} {e : α} (hlist : sl.list = [e])
    (hjunction : sl.lanes.junction slStart 0 = some { initJunction with step := 2 }) :
    ¬ sl.LanesRight := by
  rintro ⟨top, -, lane, hlane⟩
  obtain ⟨hright, -⟩ := hlane 0 (Nat.zero_le _)
  have hcount := hright.count
  have hsteps := hright.steps
  rw [hjunction, map_some, some_inj] at hcount
  rw [eq_nil_of_length_eq_zero hcount.symm, hlist, foldr_cons, hjunction] at hsteps
  cases hsteps

variable [DecidableEq α] [LinearOrder κ]

/-- The lanes are right behind every call until an element is inserted. -/
theorem slLog_lanesRight_iff (key : α → κ) (prob maxlevel : ℕ) (ops : List (SlOp α κ)) :
    (∀ x ∈ slLog (slCall key) (createSlSkiplist α prob maxlevel) ops, x.1.LanesRight) ↔
      ∀ op ∈ ops, ¬ op.inserts := by
  have hright := createSlSkiplist_lanesRight (α := α) prob maxlevel
  induction ops with
  | nil => exact iff_of_true (forall_mem_nil _) (forall_mem_nil _)
  | cons op ops ih =>
    refine Iff.trans ?_ (forall_mem_cons.trans (and_congr_right' ih.symm)).symm
    cases op with
    | insert e =>
      refine iff_of_false ?_ fun h => h.1 rfl
      exact fun h => not_lanesRight_of_step (e := e) rfl rfl (h _ mem_cons_self)
    | delete | find => exact forall_mem_cons.trans (and_congr_left' (iff_of_true hright Bool.false_ne_true))

theorem slLog_insert_not_lanesRight :
    ¬ ∀ x ∈ slLog (slCall id) (createSlSkiplist ℕ 4 9) [.insert 1], x.1.LanesRight :=
  fun h => not_lanesRight_of_step rfl rfl (h _ mem_cons_self)

/-- Both kinds of lock operations agree until an element is inserted. -/
theorem slLog_nolock_iff (key : α → κ) (prob maxlevel : ℕ) (ops : List (SlOp α κ)) :
    slLog (slCallNolock key) (createSlSkiplist α prob maxlevel) ops =
      slLog (slCall key) (createSlSkiplist α prob maxlevel) ops ↔ ∀ op ∈ ops, ¬ op.inserts := by
  induction ops with
  | nil => exact iff_of_true rfl (forall_mem_nil _)
  | cons op ops ih =>
    rw [forall_mem_cons, ← ih]
    cases op with
    | insert e =>
      refine iff_of_false ?_ fun h => h.1 rfl
      intro heq
      have hstep : some (some 1) = some (some 2) :=
        congrArg (fun log => log.head?.map fun x => (x.1.lanes.junction slStart 0).map (·.step)) heq
      cases hstep
    | delete | find => exact cons_inj_right _ |>.trans (and_iff_right Bool.false_ne_true).symm

theorem slLog_insert_nolock :
    slLog (slCallNolock id) (createSlSkiplist ℕ 4 9) [.insert 1] ≠
      slLog (slCall id) (createSlSkiplist ℕ 4 9) [.insert 1] := by
  intro heq
  have hstep := congrArg (map fun x => (x.1.lanes.junction slStart 0).map (·.step)) heq
  exact absurd hstep (by decide +kernel)

end Osns
