import Osns.Model.Namelist
import Osns.Verification.KeyExchange.Negotiation
import Osns.Verification.Sftp.Attributes

/-! Which lists of names are read, searched and built as the names between their commas. -/

namespace Osns

open List Result Separated

/-! ## Reading -/

variable {fuel left size : ℕ} {list behind memory after name : Bytes} {items : List Bytes}

/-- A pass takes what it hands out off the bytes that are left, and nothing for the comma. -/
theorem length_of_findItems (h : findItems fuel left memory = .ok (items, after)) :
    items.flatten.length = left := by
  induction fuel generalizing left memory items after with
  | zero => cases h
  | succ fuel ih =>
    rw [findItems, memchr_eq] at h
    by_cases hmem : comma ∈ memory.take left
    · have hlt := idxOf_lt_length_of_mem hmem
      have hindex : (memory.take left ++ memory.drop left).idxOf comma = _ := idxOf_append_of_mem hmem
      rw [← hindex, take_append_drop, length_take] at hlt
      rw [if_pos hmem, ok_bind] at h
      simp only [if_pos (show 0 < left - memory.idxOf comma by omega), bind_eq_ok, pure_eq_ok,
        Except.ok.injEq, Prod.mk.injEq] at h
      obtain ⟨⟨items', rest⟩, hrest, rfl, -⟩ := h
      have hlength := ih hrest
      simp only [flatten_cons, length_append, length_take, length_set, hlength]
      omega
    · rw [if_neg hmem] at h
      by_cases hle : left ≤ memory.length
      · rw [if_pos hle] at h
        cases h
        simp [hle]
      · rw [if_neg hle] at h
        cases h

theorem parseSshCommalist_eq
    (hsize : size = list.length ∧ 0 < size ∨ size = 0 ∧ 0 ∉ list ∧ behind.head? = some 0) :
    parseSshCommalist (list ++ behind) size =
      findItems ((list ++ behind).length + 1) list.length (list ++ behind) := by
  rcases hsize with ⟨rfl, hpos⟩ | ⟨rfl, hzero, hhead⟩
  · rw [parseSshCommalist, if_pos hpos]
  · obtain ⟨rest, rfl⟩ := head?_eq_some_iff.mp hhead
    have hfind : (list ++ 0 :: rest).findIdx? (· = 0) = some list.length := by
      have hnone : list.findIdx? (· = 0) = none := by
        rw [findIdx?_eq_none_iff]
        intro b hb
        exact decide_eq_false fun h => hzero (h ▸ hb)
      simp [findIdx?_append, hnone, findIdx?_cons]
    rw [parseSshCommalist, if_neg (Nat.lt_irrefl 0), hfind]

theorem parseSshCommalist_iff
    (hsize : size = list.length ∧ 0 < size ∨ size = 0 ∧ 0 ∉ list ∧ behind.head? = some 0) :
    parseSshCommalist (list ++ behind) size = .ok (list.splitOn comma, list ++ behind) ↔
      comma ∉ list := by
  rw [parseSshCommalist_eq hsize]
  constructor
  · intro h
    obtain ⟨hfence, hfields⟩ := fence_splitOn comma list
    have hlength := length_fence comma (list.splitOn comma)
    rw [hfence, length_of_findItems h] at hlength
    obtain ⟨field, heq⟩ : ∃ field, list.splitOn comma = [field] := by
      rw [← length_eq_one_iff]
      simp only [length_append, length_singleton] at hlength
      omega
    rw [heq] at hfence
    obtain rfl : field = list := by simpa [fence] using hfence
    exact hfields field (by rw [heq]; exact mem_singleton_self _)
  · intro h
    rw [splitOn_eq_singleton h, findItems, memchr_eq]
    simp [h]

theorem stringFoundCommalist_eq (hlist : list.length < 2 ^ 32) (hname : name.length < 2 ^ 32)
    (hcomma : comma ∉ name) :
    stringFoundCommalist list name = decide (name ∈ list.splitOn comma) := by
  rw [stringFoundCommalist, u32_of_lt hlist, u32_of_lt hname, take_length, take_length,
    ← (fence_splitOn comma list).1, strstr_fence hcomma (fence_splitOn comma list).2]

/-! ## Building -/

def Commalist.names (clist : Commalist) : List Bytes :=
  if clist.len = 0 then [] else (clist.list.take clist.len).splitOn comma

/-- The names for which the call returns a length, and the list behind all calls. -/
def addNames (clist : Commalist) : List Bytes → Except Fault (List Bytes × Commalist)
  | [] => .ok ([], clist)
  | name :: names => do
    let (len, clist) ← addNameToCommalist name clist
    let (added, clist) ← addNames clist names
    return (if len = 0 then added else name :: added, clist)

variable {clist : Commalist}

theorem store_text (text : Bytes) (hle : clist.len + text.length ≤ clist.list.length) :
    ∃ list, Buffer.store clist.list clist.len text = some list ∧
      list.length = clist.list.length ∧
      list.take (clist.len + text.length) = clist.list.take clist.len ++ text := by
  obtain ⟨list, hstore⟩ := Option.isSome_iff_exists.mp (Buffer.store_isSome hle)
  refine ⟨list, hstore, Buffer.length_of_store hstore, ?_⟩
  obtain ⟨-, rfl⟩ := Buffer.store_eq_some_iff.mp hstore
  exact take_left' (by rw [length_append, length_take_of_le (by omega)])

theorem addNameToCommalist_spec (hlen : clist.len ≤ clist.list.length)
    (hname : clist.list.length + name.length + 1 < 2 ^ 32) :
    ∃ len clist', addNameToCommalist name clist = .ok (len, clist') ∧
      clist'.list.length = clist.list.length ∧ clist'.len ≤ clist'.list.length ∧
      clist'.names = clist.names ++ if len = 0 then [] else name.splitOn comma := by
  rw [addNameToCommalist]
  simp only [u32_of_lt (show name.length < 2 ^ 32 by omega),
    u32_of_lt (show clist.len + name.length + 1 < 2 ^ 32 by omega), take_length]
  split
  · exact ⟨0, clist, rfl, rfl, hlen, by simp⟩
  · next hfit =>
    by_cases hempty : clist.len = 0
    · obtain ⟨list, hstore, hlength, htake⟩ :=
        store_text name (show clist.len + name.length ≤ clist.list.length by omega)
      rw [hempty] at hstore htake hfit
      refine ⟨name.length, ⟨list, name.length⟩, by simp [hempty, hstore, inBounds], hlength, ?_, ?_⟩
      · change name.length ≤ list.length
        omega
      · rw [Nat.zero_add, take_zero, nil_append] at htake
        simp [Commalist.names, hempty, htake]
    · obtain ⟨list, hstore, hlength, htake⟩ := store_text (comma :: name)
        (show clist.len + (name.length + 1) ≤ clist.list.length by omega)
      refine ⟨name.length + 1, ⟨list, clist.len + (name.length + 1)⟩,
        by simp [hempty, hstore, inBounds], hlength, ?_, ?_⟩
      · change clist.len + (name.length + 1) ≤ list.length
        omega
      · rw [length_cons] at htake
        simp only [Commalist.names, htake, hempty, if_false]
        rw [if_neg (by omega), splitOn, splitOnP_append_cons _ _ (by simp), ← splitOn, ← splitOn,
          if_neg (Nat.succ_ne_zero _)]

/-- The list splits into the fields of the names that have been added. -/
theorem addNames_spec {names : List Bytes} (hlen : clist.len ≤ clist.list.length)
    (hnames : ∀ name ∈ names, clist.list.length + name.length + 1 < 2 ^ 32) :
    ∃ added clist', addNames clist names = .ok (added, clist') ∧ added.Sublist names ∧
      clist'.len ≤ clist'.list.length ∧
      clist'.names = clist.names ++ added.flatMap (splitOn comma) := by
  induction names generalizing clist with
  | nil => exact ⟨[], clist, rfl, .slnil, hlen, (append_nil _).symm⟩
  | cons name names ih =>
    obtain ⟨hname, hnames⟩ := forall_mem_cons.mp hnames
    obtain ⟨len, clist', hadd, hsame, hlen', hfields⟩ := addNameToCommalist_spec hlen hname
    obtain ⟨added, clist'', hrest, hsub, hlen'', hfields'⟩ := ih hlen' (by rwa [hsame])
    refine ⟨if len = 0 then added else name :: added, clist'', ?_, ?_, hlen'', ?_⟩
    · rw [addNames, hadd, ok_bind]
      simp only [hrest, ok_bind]
      rfl
    · split
      · exact hsub.cons name
      · exact hsub.cons_cons name
    · rw [hfields', hfields]
      split <;> simp

theorem flatMap_splitOn_iff {added : List Bytes} :
    added.flatMap (splitOn comma) = added ↔ ∀ name ∈ added, comma ∉ name := by
  constructor
  · intro h name hname
    rw [← h] at hname
    obtain ⟨text, -, hfield⟩ := mem_flatMap.mp hname
    exact (fence_splitOn comma text).2 name hfield
  · intro h
    rw [flatMap_congr fun name hname => splitOn_eq_singleton (h name hname), flatMap_singleton']

/-- Only lists without a comma are read right. The other two functions are right, as long as the names
that are added have no comma and their lengths fit in an `unsigned int` with that of the list. -/
theorem commalist_right (list behind : Bytes) (size : ℕ) (name : Bytes) (names : List Bytes)
    (clist : Commalist) (hlist : list.length < 2 ^ 31)
    (hsize : size = list.length ∧ 0 < size ∨ size = 0 ∧ 0 ∉ list ∧ behind.head? = some 0)
    (hname : comma ∉ name ∧ name.length < 2 ^ 31) (hclist : clist.len = 0)
    (hnames : ∀ name ∈ names, clist.list.length + name.length + 1 < 2 ^ 32) :
    (parseSshCommalist (list ++ behind) size = .ok (list.splitOn comma, list ++ behind) ↔
      comma ∉ list) ∧
    stringFoundCommalist list name = decide (name ∈ list.splitOn comma) ∧
    ∃ added clist', addNames clist names = .ok (added, clist') ∧ added.Sublist names ∧
      clist'.len ≤ clist'.list.length ∧
      (clist'.names = added ↔ ∀ name ∈ added, comma ∉ name) := by
  obtain ⟨added, clist', hadd, hsub, hlen, hbuilt⟩ := addNames_spec (by omega) hnames
  rw [show clist.names = [] from if_pos hclist, nil_append] at hbuilt
  refine ⟨parseSshCommalist_iff hsize, stringFoundCommalist_eq (by omega) (by omega) hname.1, added,
    clist', hadd, hsub, hlen, ?_⟩
  rw [hbuilt, flatMap_splitOn_iff]

theorem commalist_right_one :
    (parseSshCommalist ([97] ++ [0]) 0 = .ok ([97].splitOn comma, [97] ++ [0]) ↔ comma ∉ [97]) ∧
    stringFoundCommalist [97] [98] = decide ([98] ∈ [97].splitOn comma) ∧
    ∃ added clist', addNames ⟨[0, 0, 0, 0], 0⟩ [[97], [98]] = .ok (added, clist') ∧
      added.Sublist [[97], [98]] ∧ clist'.len ≤ clist'.list.length ∧
      (clist'.names = added ↔ ∀ name ∈ added, comma ∉ name) :=
  commalist_right [97] [0] 0 [98] [[97], [98]] ⟨[0, 0, 0, 0], 0⟩ (by decide)
    (.inr ⟨rfl, by decide, rfl⟩) ⟨by decide, by decide⟩ rfl (by decide)

/-- The last name of `a,b` with the byte behind it, and nothing to be read there. -/
theorem parseSshCommalist_long :
    parseSshCommalist [97, comma, 98, 0] 0 = .ok ([[97], [98, 0]], [97, comma, 98, 0]) ∧
      parseSshCommalist [97, comma, 98] 3 = .error .body :=
  ⟨rfl, rfl⟩

end Osns
