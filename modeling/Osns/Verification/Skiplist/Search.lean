import Osns.Library.OrderedList
import Osns.Verification.Skiplist.Lanes

/-! The lanes shorten the search, but they never lead past an element that is not too small. So the answer
is that of a search from the front, wherever the dirnodes are. -/

namespace Osns

open List Option OrderedList

def Lanes.PathSound {α : Type} (lanes : Lanes α) (top : ℕ) (path : ℕ → ℕ) : Prop :=
  ∀ i, i ≤ top → lanes.Valid (path i) i

/-! ## Lanes -/

section Lanes

variable {α : Type} {lanes : Lanes α} {compare : α → Ordering} {top level : ℕ} {list : List α}
  {s : LaneState}

/-- Elements that have been passed over are too small. What is left has one that is too large, which is never
passed. -/
def LaneExit.Fits (lanes : Lanes α) (compare : α → Ordering) (top level : ℕ) (list : List α) :
    LaneExit α → Prop
  | .down rest s =>
    (∃ front, list = front ++ rest ∧ ∀ x ∈ front, compare x = .lt) ∧
      (∃ x ∈ rest, compare x = .gt) ∧ lanes.Valid s.dirnode level ∧ lanes.PathSound top s.path
  | .exact e s =>
    (∃ front rest, list = front ++ e :: rest ∧ ∀ x ∈ front, compare x = .lt) ∧
      compare e = .eq ∧ lanes.PathSound top s.path ∧ s.path 0 ≠ slStart
  | .past _ _ => False

variable {exit : LaneExit α}

theorem LaneExit.Fits.cons {e : α} {rest : List α} (he : compare e = .lt)
    (h : exit.Fits lanes compare top level rest) :
    exit.Fits lanes compare top level (e :: rest) := by
  cases exit with
  | down list s =>
    obtain ⟨⟨front, rfl, hfront⟩, hrest⟩ := h
    exact ⟨⟨e :: front, rfl, forall_mem_cons.mpr ⟨he, hfront⟩⟩, hrest⟩
  | exact x s =>
    obtain ⟨⟨front, rest, rfl, hfront⟩, hrest⟩ := h
    exact ⟨⟨e :: front, rest, rfl, forall_mem_cons.mpr ⟨he, hfront⟩⟩, hrest⟩
  | past found s => exact h

theorem pathSound_update {path : ℕ → ℕ} {d : ℕ} (h : lanes.PathSound top path)
    (hd : lanes.Valid d level) : lanes.PathSound top (Function.update path level d) := by
  intro i hi
  by_cases heq : i = level
  · subst heq
    rw [Function.update_self]
    exact hd
  · rw [Function.update_of_ne heq]
    exact h i hi

theorem pathSound_moveDown {d : ℕ} (h : lanes.PathSound top s.path) (hd : lanes.Valid d level) :
    lanes.PathSound top (s.moveDown level d).path := by
  intro i hi
  simp only [LaneState.moveDown]
  split
  · exact hd.mono ‹_›
  · exact h i hi

theorem skipLane_fits (hs : lanes.Sound) (hlist : ∃ x ∈ list, compare x = .gt)
    (hd : lanes.Valid s.dirnode level) (hpath : lanes.PathSound top s.path) :
    ∃ exit, skipLane lanes compare level list s = some exit ∧
      exit.Fits lanes compare top level list := by
  induction list generalizing s with
  | nil =>
    obtain ⟨x, hx, -⟩ := hlist
    exact absurd hx not_mem_nil
  | cons e rest ih =>
    obtain ⟨junction, hjunction, hn, -⟩ := hs.junction hd
    obtain ⟨next, hnext⟩ := hn.dirnode
    have hstay : LaneExit.Fits lanes compare top level (e :: rest) (.down (e :: rest) s) :=
      ⟨⟨[], rfl, by simp⟩, hlist, hd, hpath⟩
    rw [skipLane, hjunction, bind_eq_bind, bind_some, hnext, bind_eq_bind, bind_some]
    by_cases hstart : junction.n = slStart
    · rw [if_pos hstart]
      exact ⟨_, rfl, hstay⟩
    · rw [if_neg hstart]
      cases hcmp : compare e with
      | gt => exact ⟨_, rfl, hstay⟩
      | eq =>
        refine ⟨_, rfl, ⟨[], rest, rfl, by simp⟩, hcmp, pathSound_moveDown hpath hn, ?_⟩
        simpa [LaneState.moveDown] using hstart
      | lt =>
        have hrest : ∃ x ∈ rest, compare x = .gt := by
          obtain ⟨x, hx, hgt⟩ := hlist
          rcases mem_cons.mp hx with rfl | hx
          · rw [hcmp] at hgt
            cases hgt
          · exact ⟨x, hx, hgt⟩
        have hne : ¬ rest.isEmpty := by
          obtain ⟨x, hx, -⟩ := hrest
          simpa using ne_nil_of_mem hx
        simp only
        rw [if_neg hne]
        obtain ⟨exit, hexit, hfits⟩ := ih (s := ⟨junction.n,
          Function.update s.path level junction.n, u32 (s.row + junction.step), 1⟩) hrest hn
          (pathSound_update hpath hn)
        exact ⟨exit, hexit, hfits.cons hcmp⟩

theorem LaneExit.Fits.append {front rest : List α} (hfront : ∀ x ∈ front, compare x = .lt)
    (h : exit.Fits lanes compare top level rest) :
    exit.Fits lanes compare top level (front ++ rest) := by
  induction front with
  | nil => exact h
  | cons e front ih =>
    rw [forall_mem_cons] at hfront
    exact (ih hfront.2).cons hfront.1

theorem searchLanes_fits (hs : lanes.Sound) (hlist : ∃ x ∈ list, compare x = .gt)
    (hd : lanes.Valid s.dirnode level) (hpath : lanes.PathSound top s.path) (htop : level ≤ top) :
    ∃ exit, searchLanes lanes compare level list s = some exit ∧
      exit.Fits lanes compare top 0 list := by
  induction level generalizing list s with
  | zero => exact skipLane_fits hs hlist hd hpath
  | succ level ih =>
    obtain ⟨exit, hexit, hfits⟩ := skipLane_fits hs hlist hd hpath
    rw [searchLanes, hexit, bind_some]
    cases exit with
    | down rest s' =>
      obtain ⟨⟨front, rfl, hfront⟩, hrest, hd', hpath'⟩ := hfits
      have habove : lanes.Valid (s'.path (level + 1)) level :=
        (hpath' (level + 1) htop).mono (Nat.le_succ level)
      obtain ⟨exit, hexit, hfits⟩ := ih (s := ⟨s'.dirnode,
        Function.update s'.path level (s'.path (level + 1)), s'.row, s'.step⟩) hrest
        (hd'.mono (Nat.le_succ level)) (pathSound_update hpath' habove) (Nat.le_of_succ_le htop)
      exact ⟨exit, hexit, hfits.append hfront⟩
    | exact e s' => exact ⟨_, rfl, hfits⟩
    | past found s' => exact hfits.elim

end Lanes

/-! ## Answers -/

section Answers

variable {α κ : Type} [LinearOrder κ] {key : α → κ} {k : κ}

def SearchResult.Tells (r : SearchResult α) : Answer α → Prop
  | .empty => r.flags.empty ∧ ¬ r.flags.exact ∧ ¬ r.flags.noent
  | .exact e => r.flags.exact ∧ ¬ r.flags.empty ∧ ¬ r.flags.noent ∧ r.found = some e
  | .before e =>
    r.flags.noent ∧ r.flags.before ∧ ¬ r.flags.after ∧ ¬ r.flags.empty ∧ ¬ r.flags.exact ∧
      r.found = some e
  | .after e =>
    r.flags.noent ∧ r.flags.after ∧ ¬ r.flags.before ∧ ¬ r.flags.empty ∧ ¬ r.flags.exact ∧
      r.found = some e

attribute [local simp] SearchResult.Tells initSlSearchresult SearchFlags.none

theorem searchList_tells {count : ℕ} {list : List α} {r : SearchResult α}
    (hlist : ∃ x ∈ list, k < key x) (hctr : r.ctr + list.length ≤ count + 1)
    (hflags : r.flags = .none) :
    (searchList (fun e => cmp (key e) k) count list r).Tells (linearSearch key k list) ∧
      ¬ (searchList (fun e => cmp (key e) k) count list r).flags.dirnode ∧
      ¬ (searchList (fun e => cmp (key e) k) count list r).flags.ok := by
  induction list generalizing r with
  | nil =>
    obtain ⟨x, hx, -⟩ := hlist
    exact absurd hx not_mem_nil
  | cons e rest ih =>
    rw [length_cons] at hctr
    rw [searchList, if_pos (by omega)]
    dsimp only
    cases hcmp : cmp (key e) k with
    | gt =>
      rw [linearSearch_cons_of_gt ((cmp_eq_gt_iff _ _).mp hcmp)]
      simp [hflags]
    | eq =>
      rw [linearSearch_cons_of_eq ((cmp_eq_eq_iff _ _).mp hcmp)]
      simp [hflags]
    | lt =>
      have hlt : key e < k := (cmp_eq_lt_iff _ _).mp hcmp
      have hrest : ∃ x ∈ rest, k < key x := by
        obtain ⟨x, hx, hgt⟩ := hlist
        rcases mem_cons.mp hx with rfl | hx
        · exact absurd hlt hgt.asymm
        · exact ⟨x, hx, hgt⟩
      have hne : rest ≠ [] := by
        obtain ⟨x, hx, -⟩ := hrest
        exact ne_nil_of_mem hx
      have hle := u32_le (r.ctr + 1)
      dsimp only
      rw [if_neg (by simpa using hne), linearSearch_cons_of_lt hlt hne]
      exact ih hrest (by simp only; omega) hflags

/-- The list is increasing and counted, the lanes are sound. -/
structure Skiplist.WellFormed (key : α → κ) (sl : Skiplist α) : Prop where
  increasing : Increasing key sl.list
  count : sl.count = sl.list.length
  lanes : sl.lanes.Sound

/-- What a search ends with: an answer, and a vector of dirnodes that may be used for a change. -/
structure Skiplist.Found (key : α → κ) (sl : Skiplist α) (k : κ) (vector : SlVector)
    (r : SearchResult α) : Prop where
  tells : r.Tells (linearSearch key k sl.list)
  path : sl.lanes.PathSound vector.maxlevel vector.path
  maxlevel : vector.maxlevel ≤ sl.lanes.maxlevel + 1
  dirnode : r.flags.dirnode → vector.path 0 ≠ slStart
  ok : ¬ r.flags.ok

variable {sl : Skiplist α}

theorem searchInside_found (h : sl.WellFormed key) (hlist : ∃ x ∈ sl.list, k < key x) {level : ℕ}
    (hlevel : level ≤ sl.lanes.maxlevel) :
    ∃ vector r, searchInside sl (fun e => cmp (key e) k) level sl.list = some (vector, r) ∧
      sl.Found key k vector r := by
  have hstart : sl.lanes.PathSound (level + 1) (createVectorPath (level + 1)).path :=
    fun i hi => h.lanes.valid_start (by omega)
  have hgt : ∃ x ∈ sl.list, cmp (key x) k = .gt := by
    obtain ⟨x, hx, hgt⟩ := hlist
    exact ⟨x, hx, (cmp_eq_gt_iff _ _).mpr hgt⟩
  obtain ⟨exit, hexit, hfits⟩ := searchLanes_fits (s := ⟨slStart, (createVectorPath (level + 1)).path,
    1, 0⟩) h.lanes hgt (h.lanes.valid_start (by omega)) hstart (Nat.le_succ level)
  rw [searchInside, hexit]
  dsimp only [bind_eq_bind, bind_some]
  cases exit with
  | down rest s =>
    obtain ⟨⟨front, hl, hfront⟩, hrest, -, hpath⟩ := hfits
    have hrest' : ∃ x ∈ rest, k < key x := by
      obtain ⟨x, hx, hgt⟩ := hrest
      exact ⟨x, hx, (cmp_eq_gt_iff _ _).mp hgt⟩
    have hsearch : linearSearch key k sl.list = linearSearch key k rest := by
      rw [hl]
      refine linearSearch_append (fun x hx => (cmp_eq_lt_iff _ _).mp (hfront x hx)) ?_
      obtain ⟨x, hx, -⟩ := hrest
      exact ne_nil_of_mem hx
    have hlen : rest.length ≤ sl.count := by
      rw [h.count, hl, length_append]
      omega
    have hctr : 0 + rest.length ≤ sl.count + 1 := by omega
    obtain ⟨htells, hno, hok⟩ := searchList_tells (r := { initSlSearchresult α with
      row := s.row, step := s.step }) hrest' hctr rfl
    exact ⟨_, _, rfl, by rw [hsearch]; exact htells, hpath, by simp only [createVectorPath]; omega,
      fun hyes => absurd hyes hno, hok⟩
  | exact e s =>
    obtain ⟨⟨front, rest, hl, hfront⟩, heq, hpath, hne⟩ := hfits
    refine ⟨_, _, rfl, ?_, hpath, by simp only [createVectorPath]; omega, fun _ => hne,
      by simp⟩
    rw [hl, linearSearch_append (fun x hx => (cmp_eq_lt_iff _ _).mp (hfront x hx))
      (cons_ne_nil _ _), linearSearch_cons_of_eq ((cmp_eq_eq_iff _ _).mp heq)]
    simp
  | past found s => exact hfits.elim

theorem slFindGeneric_found (h : sl.WellFormed key) (k : κ) :
    ∃ vector r, slFindGeneric key sl k = some (vector, r) ∧ sl.Found key k vector r := by
  obtain ⟨level, hlevel, hle⟩ := h.lanes.exists_level
  -- Outside the lanes the vector is the first dirnode on all levels.
  have hfound : ∀ r : SearchResult α, r.Tells (linearSearch key k sl.list) →
      ¬ r.flags.dirnode ∧ ¬ r.flags.ok → sl.Found key k (createVectorPath (level + 1)) r := by
    rintro r htells ⟨hno, hok⟩
    refine ⟨htells, fun i hi => h.lanes.valid_start ?_, ?_, fun hyes => absurd hyes hno, hok⟩
    · change i ≤ level + 1 at hi
      omega
    · change level + 1 ≤ _
      omega
  rw [slFindGeneric, hlevel]
  dsimp only [bind_eq_bind, bind_some]
  rcases eq_nil_or_concat' sl.list with hnil | ⟨front, tail, hl⟩
  · rw [if_pos (by rw [h.count, hnil]; rfl)]
    refine ⟨_, _, rfl, hfound _ ?_ (by simp)⟩
    simp [hnil]
  · have hcount : sl.count ≠ 0 := by
      rw [h.count, hl, length_append, length_singleton]
      omega
    have hlast : sl.list.getLast? = some tail := by rw [hl, getLast?_concat]
    obtain ⟨head, rest, hcons⟩ : ∃ head rest, sl.list = head :: rest :=
      exists_cons_of_ne_nil (by rw [hl]; simp)
    have hhead : sl.list.head? = some head := by rw [hcons, head?_cons]
    rw [if_neg hcount, hlast, hhead]
    dsimp only [bind_some]
    have hsmaller : ∀ x ∈ front, key x < key tail := by
      have hincreasing := h.increasing
      rw [hl] at hincreasing
      exact (increasing_append_cons_iff.mp hincreasing).2.2.1
    cases htail : cmp (key tail) k with
    | lt =>
      have hlt := (cmp_eq_lt_iff _ _).mp htail
      refine ⟨_, _, rfl, hfound _ ?_ (by simp)⟩
      rw [hl, linearSearch_append (fun x hx => (hsmaller x hx).trans hlt) (cons_ne_nil _ _),
        linearSearch_singleton_of_lt hlt]
      simp
    | eq =>
      have heq := (cmp_eq_eq_iff _ _).mp htail
      refine ⟨_, _, rfl, hfound _ ?_ (by simp)⟩
      rw [hl, linearSearch_append (fun x hx => heq ▸ hsmaller x hx) (cons_ne_nil _ _),
        linearSearch_cons_of_eq heq]
      simp
    | gt =>
      have hgt := (cmp_eq_gt_iff _ _).mp htail
      dsimp only
      cases hfirst : cmp (key head) k with
      | gt =>
        refine ⟨_, _, rfl, hfound _ ?_ (by simp)⟩
        rw [hcons, linearSearch_cons_of_gt ((cmp_eq_gt_iff _ _).mp hfirst)]
        simp
      | eq =>
        refine ⟨_, _, rfl, hfound _ ?_ (by simp)⟩
        rw [hcons, linearSearch_cons_of_eq ((cmp_eq_eq_iff _ _).mp hfirst)]
        simp
      | lt => exact searchInside_found h ⟨tail, by rw [hl]; simp, hgt⟩ hle

end Answers

end Osns
