import Mathlib.Algebra.GroupWithZero.Nat
import Mathlib.Data.List.TakeWhile
import Osns.Library.Separated
import Osns.Model.Compare
import Osns.Model.Pk

/-! The chosen algorithms against section 7.1 of RFC 4253. -/

namespace Osns

open List Separated

/-- A name-list of RFC 4251: names of at most 64 characters, without commas and zeros. -/
structure NameList where
  names : List Bytes
  nonempty : ∀ n ∈ names, n ≠ []
  short : ∀ n ∈ names, n.length ≤ 64
  noComma : ∀ n ∈ names, comma ∉ n
  noZero : ∀ n ∈ names, 0 ∉ n

def NameList.encode (l : NameList) : Bytes := Separated.join comma l.names

/-- The first name of the client that the server has as well. -/
def bestCommon (client server : NameList) : Option Bytes := client.names.find? (· ∈ server.names)

/-! ## Searching a list -/

section Search

variable {n : Bytes} {ns ss : List Bytes}

theorem strchr_fence (hn : comma ∉ n) (ns : List Bytes) :
    strchr ((fence comma (n :: ns)).drop 1) comma = some (fence comma ns) := by
  obtain ⟨rest, hrest⟩ := fence_eq_cons comma ns
  have hdrop : (n ++ fence comma ns).dropWhile (· ≠ comma) = fence comma ns := by
    rw [dropWhile_append_of_pos, hrest]
    · simp
    · intro b hb
      simp only [ne_eq, decide_not, Bool.not_eq_eq_eq_not, Bool.not_true, decide_eq_false_iff_not]
      exact fun h => hn (h ▸ hb)
  rw [fence, drop_one, tail_cons, strchr, hdrop, hrest]

theorem take_fence (n : Bytes) (ns : List Bytes) :
    ((fence comma (n :: ns)).drop 1).take
      ((fence comma (n :: ns)).length - 1 - (fence comma ns).length) = n := by
  have hlen : (fence comma (n :: ns)).length - 1 - (fence comma ns).length =
      n.length := by
    simp only [fence, length_cons, length_append]
    omega
  rw [hlen, fence, drop_one, tail_cons, take_left]

theorem strstr_fence (hn : comma ∉ n) (hss : ∀ s ∈ ss, comma ∉ s) :
    strstr (fence comma ss) (comma :: (n ++ [comma])) = decide (n ∈ ss) := by
  rw [strstr, decide_eq_decide]
  exact infix_fence_iff hn hss

theorem length_fence_le (ns : List Bytes) : ns.length < (fence comma ns).length := by
  rw [length_fence]
  omega

theorem copyName_of_le (h : n.length ≤ 64) : copyName 65 n = n := by
  rw [copyName, if_pos (by omega)]

variable {cs : List Bytes}

variable (hcs : ∀ c ∈ cs, comma ∉ c) (hshort : ∀ c ∈ cs, c.length ≤ 64) (hss : ∀ s ∈ ss, comma ∉ s)

include hcs hshort hss

theorem findName_fence (hne : cs ≠ []) {fuel : ℕ} (hfuel : cs.length ≤ fuel) :
    findName (fence comma ss) 65 fuel (fence comma cs) = .ok ((cs.find? (· ∈ ss)).getD []) := by
  induction cs generalizing fuel with
  | nil => exact absurd rfl hne
  | cons n ns ih =>
    obtain ⟨fuel, rfl⟩ : ∃ k, fuel = k + 1 := ⟨fuel - 1, by simp at hfuel; omega⟩
    have hn := hcs n mem_cons_self
    have hle := hshort n mem_cons_self
    rw [findName]
    simp only [strchr_fence hn, take_fence, strstr_fence hn hss, copyName_of_le hle]
    by_cases hmem : n ∈ ss
    · simp [hmem]
    · simp only [hmem, decide_false, Bool.false_eq_true, if_false, find?_cons]
      cases ns with
      | nil => simp [fence]
      | cons m ms =>
        have hlong : ¬ (fence comma (m :: ms)).length ≤ 1 := by
          have := length_fence_le (m :: ms)
          simp at this ⊢
          omega
        rw [if_neg hlong]
        exact ih (fun c hc => hcs c (mem_cons_of_mem _ hc))
          (fun c hc => hshort c (mem_cons_of_mem _ hc)) (cons_ne_nil _ _)
          (by simp at hfuel ⊢; omega)

theorem compareLists_fence (hcne : cs ≠ []) (hsne : ss ≠ []) :
    compareLists (fence comma cs) (fence comma ss) 65 = .ok ((cs.find? (· ∈ ss)).getD []) := by
  obtain ⟨n, ns, rfl⟩ := exists_cons_of_ne_nil hcne
  obtain ⟨m, ms, rfl⟩ := exists_cons_of_ne_nil hsne
  have hn := hcs n mem_cons_self
  have hm := hss m mem_cons_self
  have htake : ∀ (x : Bytes) (xs : List Bytes), (fence comma (x :: xs)).take
      ((fence comma (x :: xs)).length - (fence comma xs).length) = comma :: x := by
    intro x xs
    have hlen : (fence comma (x :: xs)).length - (fence comma xs).length = (comma :: x).length := by
      simp only [fence, length_cons, length_append]
      omega
    rw [hlen, fence, ← cons_append, take_left]
  have hfuel := length_fence_le (n :: ns)
  simp only [compareLists, strchr_fence hn, strchr_fence hm, htake, take_fence, cons.injEq,
    true_and, copyName_of_le (hshort n mem_cons_self)]
  by_cases heq : n = m
  · simp [heq]
  · rw [if_neg heq]
    exact findName_fence hcs hshort hss hcne (Nat.le_of_lt hfuel)

end Search

theorem mem_fence {b : UInt8} {ns : List Bytes} (h : b ∈ fence comma ns) :
    b = comma ∨ ∃ n ∈ ns, b ∈ n := by
  induction ns with
  | nil => exact .inl (mem_singleton.mp h)
  | cons n ns ih =>
    rw [fence, mem_cons, mem_append] at h
    rcases h with h | h | h
    · exact .inl h
    · exact .inr ⟨n, mem_cons_self, h⟩
    · rcases ih h with h | ⟨x, hx, hb⟩
      · exact .inl h
      · exact .inr ⟨x, mem_cons_of_mem _ hx, hb⟩

namespace NameList

variable (l : NameList)

theorem cString_fence (h : l.names ≠ []) :
    cString ([comma] ++ l.encode ++ [comma]) = fence comma l.names := by
  rw [encode, ← fence_eq_join comma h, cString, takeWhile_eq_self_iff]
  intro b hb
  rcases mem_fence hb with rfl | ⟨n, hn, hbn⟩
  · decide
  · simp only [ne_eq, decide_not, Bool.not_eq_eq_eq_not, Bool.not_true, decide_eq_false_iff_not]
    exact fun h0 => l.noZero n hn (h0 ▸ hbn)

theorem encode_eq_nil_iff : l.encode = [] ↔ l.names = [] := by
  obtain ⟨names, nonempty, _, _, _⟩ := l
  cases names with
  | nil => simp [encode, Separated.join]
  | cons n ns =>
    have hn := nonempty n mem_cons_self
    cases ns with
    | nil => simp [encode, Separated.join, hn]
    | cons m ms => simp [encode, Separated.join]

end NameList

theorem getBestGuess_eq (client server : NameList) (restC restS : Bytes) :
    getBestGuess { len := client.encode.length, ptr := some (client.encode ++ restC) }
        { len := server.encode.length, ptr := some (server.encode ++ restS) } 65 =
      .ok ((bestCommon client server).getD []) := by
  by_cases hc : client.names = []
  · have hlen : client.encode.length = 0 := by
      rw [client.encode_eq_nil_iff.mpr hc]
      rfl
    simp [getBestGuess, hlen, bestCommon, hc]
  by_cases hs : server.names = []
  · have hlen : server.encode.length = 0 := by
      rw [server.encode_eq_nil_iff.mpr hs]
      rfl
    have hnone : bestCommon client server = none := by
      rw [bestCommon, find?_eq_none]
      simp [hs]
    simp [getBestGuess, hlen, hnone]
  have hclen : client.encode.length ≠ 0 := by
    rw [ne_eq, length_eq_zero_iff, client.encode_eq_nil_iff]
    exact hc
  have hslen : server.encode.length ≠ 0 := by
    rw [ne_eq, length_eq_zero_iff, server.encode_eq_nil_iff]
    exact hs
  have hguess := compareLists_fence client.noComma client.short server.noComma hc hs
  simp only [getBestGuess, hclen, hslen, reduceCtorEq, or_self, if_false, SshString.bytes_append,
    Result.ok_bind, client.cString_fence hc, server.cString_fence hs, hguess, bestCommon]

/-! ## The comparison of two messages -/

/-- A KEXINIT message. -/
structure Kexinit where
  cookie : Bytes
  lists : AlgoType → NameList
  trailer : Bytes
  cookie_length : cookie.length = 16
  trailer_length : trailer.length = 5
  fits : ∀ t, 4 + (lists t).encode.length < 2 ^ 32

def Kexinit.encodeLists (k : Kexinit) (types : List AlgoType) : Bytes :=
  types.flatMap fun t => sshString (k.lists t).encode

def Kexinit.encode (k : Kexinit) : Bytes :=
  [20] ++ k.cookie ++ (k.encodeLists AlgoType.all ++ k.trailer)

section Comparison

variable {π : Type} (algos : List (Algo π)) (client server : Kexinit) (t : AlgoType)

/-- A type has a common name that the local table knows, or does without one. -/
def Negotiable : Prop :=
  match bestCommon (client.lists t) (server.lists t) with
  | none => t.optional = true
  | some name => ∃ algo ∈ algos, algo.type = t ∧ algo.sshname = name

def Selected (chosen : Chosen) (t : AlgoType) : Prop :=
  match bestCommon (client.lists t) (server.lists t) with
  | none => chosen t = none
  | some name =>
    ∃ index algo, chosen t = some index ∧ algos[index]? = some algo ∧ algo.type = t ∧
      algo.sshname = name

theorem getIndexAlgo_spec (name : Bytes) (t : AlgoType) :
    match getIndexAlgo algos name t with
    | none => ¬ ∃ algo ∈ algos, algo.type = t ∧ algo.sshname = name
    | some index => ∃ algo, algos[index]? = some algo ∧ algo.type = t ∧ algo.sshname = name := by
  cases h : getIndexAlgo algos name t with
  | none =>
    rw [getIndexAlgo, findIdx?_eq_none_iff] at h
    rintro ⟨algo, hmem, ht, hname⟩
    have := h algo hmem
    simp [ht, hname] at this
  | some index =>
    rw [getIndexAlgo, findIdx?_eq_some_iff_getElem] at h
    obtain ⟨hlt, hp, -⟩ := h
    simp only [decide_eq_true_eq] at hp
    exact ⟨algos[index], getElem?_eq_getElem hlt, hp.1, hp.2⟩

theorem bestCommon_ne_nil {c s : NameList} {name : Bytes} (h : bestCommon c s = some name) :
    name ≠ [] :=
  c.nonempty name (mem_of_find?_eq_some h)

/-- An index is found exactly for a type that can be negotiated. -/
theorem chooseAlgo_spec :
    match chooseAlgo algos t ((bestCommon (client.lists t) (server.lists t)).getD []) with
    | none => ¬ Negotiable algos client server t
    | some index => Negotiable algos client server t ∧
        ∀ chosen : Chosen, chosen t = index → Selected algos client server chosen t := by
  cases hbest : bestCommon (client.lists t) (server.lists t) with
  | none =>
    by_cases hopt : t.optional
    · simp [chooseAlgo, Negotiable, Selected, hbest, hopt]
    · simp [chooseAlgo, Negotiable, hbest, hopt]
  | some name =>
    have hspec := getIndexAlgo_spec algos name t
    cases hindex : getIndexAlgo algos name t with
    | none =>
      simp only [hindex] at hspec
      simpa [chooseAlgo, Negotiable, hbest, bestCommon_ne_nil hbest, hindex] using hspec
    | some index =>
      simp only [hindex] at hspec
      obtain ⟨algo, hget, ht, hname⟩ := hspec
      simp only [chooseAlgo, Option.getD_some, ne_eq, bestCommon_ne_nil hbest,
        not_false_eq_true, if_true, hindex, Option.map_some]
      constructor
      · simp only [Negotiable, hbest]
        exact ⟨algo, mem_of_getElem? hget, ht, hname⟩
      · intro chosen hchosen
        simp only [Selected, hbest]
        exact ⟨index, algo, hchosen, hget, ht, hname⟩

theorem compareTypes_cons (types : List AlgoType) (restC restS : Bytes) (chosen : Chosen) :
    compareTypes algos (t :: types) (client.encodeLists (t :: types) ++ restC)
        (server.encodeLists (t :: types) ++ restS) chosen =
      match chooseAlgo algos t ((bestCommon (client.lists t) (server.lists t)).getD []) with
      | none => .ok (false, Function.update chosen t none)
      | some index => compareTypes algos types (client.encodeLists types ++ restC)
          (server.encodeLists types ++ restS) (Function.update chosen t index) := by
  have hcons : ∀ (k : Kexinit) (rest : Bytes), k.encodeLists (t :: types) ++ rest =
      sshString (k.lists t).encode ++ (k.encodeLists types ++ rest) := by
    intro k rest
    simp [Kexinit.encodeLists]
  have hdrop : ∀ (k : Kexinit) (rest : Bytes), (sshString (k.lists t).encode ++ rest).drop
      (4 + (k.lists t).encode.length) = rest := by
    intro k rest
    exact drop_left' (length_sshString _)
  rw [compareTypes, hcons, hcons, readSshString_sshString _ _ (client.fits t),
    readSshString_sshString _ _ (server.fits t)]
  simp only [hdrop, getBestGuess_eq, Result.ok_bind]
  exact if_neg (by omega)

/-- All types have to be negotiable, and then each of them gets its choice. -/
theorem compareTypes_spec (types : List AlgoType) (hnodup : types.Nodup) (restC restS : Bytes)
    (chosen : Chosen) :
    ∃ success chosen', compareTypes algos types (client.encodeLists types ++ restC)
        (server.encodeLists types ++ restS) chosen = .ok (success, chosen') ∧
      (success = true ↔ ∀ t ∈ types, Negotiable algos client server t) ∧
      (success = true → (∀ t ∈ types, Selected algos client server chosen' t) ∧
        ∀ t ∉ types, chosen' t = chosen t) := by
  induction types generalizing chosen with
  | nil => exact ⟨true, chosen, rfl, by simp, by simp⟩
  | cons t types ih =>
    obtain ⟨hnot, hrest⟩ := nodup_cons.mp hnodup
    have hchoose := chooseAlgo_spec algos client server t
    rw [compareTypes_cons]
    cases hindex : chooseAlgo algos t ((bestCommon (client.lists t) (server.lists t)).getD []) with
    | none =>
      simp only [hindex] at hchoose
      refine ⟨false, _, rfl, ?_, by simp⟩
      simp only [Bool.false_eq_true, false_iff]
      intro hall
      exact hchoose (hall t mem_cons_self)
    | some index =>
      simp only [hindex] at hchoose
      obtain ⟨success, chosen', hrun, hiff, hsel⟩ := ih hrest (Function.update chosen t index)
      refine ⟨success, chosen', hrun, ?_, ?_⟩
      · rw [hiff, forall_mem_cons]
        simp [hchoose.1]
      · intro hsuccess
        obtain ⟨hselected, hkeep⟩ := hsel hsuccess
        constructor
        · rw [forall_mem_cons]
          refine ⟨hchoose.2 chosen' ?_, hselected⟩
          rw [hkeep t hnot, Function.update_self]
        · intro u hu
          rw [mem_cons, not_or] at hu
          rw [hkeep u hu.2, Function.update_of_ne hu.1]

theorem Kexinit.length_encode (k : Kexinit) :
    k.encode.length = 62 + (AlgoType.all.map fun t => (k.lists t).encode.length).sum := by
  simp only [Kexinit.encode, Kexinit.encodeLists, AlgoType.all, flatMap_cons,
    flatMap_nil, length_append, length_cons, length_nil, length_sshString,
    k.cookie_length, k.trailer_length, map_cons, map_nil, sum_cons, sum_nil]
  omega

theorem Kexinit.long_of_names {k : Kexinit} (hkex : (k.lists .kex).names ≠ [])
    (hhost : (k.lists .hostkey).names ≠ []) : 63 < k.encode.length := by
  have hpos : ∀ l : NameList, l.names ≠ [] → 0 < l.encode.length := by
    intro l hl
    rw [length_pos_iff, ne_eq, l.encode_eq_nil_iff]
    exact hl
  have h₁ := hpos _ hkex
  have h₂ := hpos _ hhost
  rw [k.length_encode]
  simp only [AlgoType.all, map_cons, sum_cons]
  omega

theorem names_of_negotiable {t : AlgoType} (hopt : t.optional = false)
    (h : Negotiable algos client server t) :
    (client.lists t).names ≠ [] ∧ (server.lists t).names ≠ [] := by
  cases hbest : bestCommon (client.lists t) (server.lists t) with
  | none => simp [Negotiable, hbest, hopt] at h
  | some name =>
    have hserver := find?_some hbest
    simp only [decide_eq_true_eq] at hserver
    exact ⟨ne_nil_of_mem (mem_of_find?_eq_some hbest), ne_nil_of_mem hserver⟩

theorem long_of_negotiable (h : ∀ t, Negotiable algos client server t) :
    63 < client.encode.length ∧ 63 < server.encode.length := by
  have hkex := names_of_negotiable algos client server rfl (h .kex)
  have hhost := names_of_negotiable algos client server rfl (h .hostkey)
  exact ⟨Kexinit.long_of_names hkex.1 hhost.1, Kexinit.long_of_names hkex.2 hhost.2⟩

theorem Kexinit.drop_encode (k : Kexinit) :
    k.encode.drop 17 = k.encodeLists AlgoType.all ++ k.trailer := by
  refine drop_left' ?_
  simp [k.cookie_length]

theorem AlgoType.mem_all : t ∈ AlgoType.all := by
  cases t <;> decide

/-- The comparison succeeds exactly on negotiable messages, and then selects for every type the
best common name. -/
theorem compareMsgKexinit_spec (chosen : Chosen) :
    ∃ success chosen',
      compareMsgKexinit algos (some client.encode) (some server.encode) chosen =
        .ok (success, chosen') ∧
      (success = true ↔ ∀ t, Negotiable algos client server t) ∧
      (success = true → ∀ t, Selected algos client server chosen' t) := by
  rw [compareMsgKexinit]
  split
  · next hshort =>
    refine ⟨false, chosen, rfl, ?_, by simp⟩
    simp only [Bool.false_eq_true, false_iff]
    intro hall
    have := long_of_negotiable algos client server hall
    omega
  · obtain ⟨success, chosen', hrun, hiff, hsel⟩ := compareTypes_spec algos client server
      AlgoType.all (by decide) client.trailer server.trailer chosen
    rw [client.drop_encode, server.drop_encode]
    refine ⟨success, chosen', hrun, ?_, ?_⟩
    · rw [hiff]
      exact ⟨fun h t => h t t.mem_all, fun h t _ => h t⟩
    · intro hsuccess t
      exact (hsel hsuccess).1 t t.mem_all

end Comparison

/-! ## A name outside the table -/

/-- The list with the one name `none`. -/
def singleName : NameList where
  names := [[110, 111, 110, 101]]
  nonempty := by decide
  short := by decide
  noComma := by decide
  noZero := by decide

def singleKexinit : Kexinit where
  cookie := replicate 16 0
  lists _ := singleName
  trailer := replicate 5 0
  cookie_length := rfl
  trailer_length := rfl
  fits _ := by decide

/-- Two messages agree on every type, but the table has no entry. -/
theorem emptyTable_fails :
    (∀ t, bestCommon (singleKexinit.lists t) (singleKexinit.lists t) = some [110, 111, 110, 101]) ∧
    (compareMsgKexinit ([] : List (Algo Unit)) (some singleKexinit.encode)
      (some singleKexinit.encode) (fun _ => none)).map Prod.fst = .ok false := by
  constructor
  · intro t
    change bestCommon singleName singleName = some [110, 111, 110, 101]
    decide
  · decide

/-! ## The host key algorithms -/

variable (row : PkalgoRow) (rows : List PkalgoRow) (last : PkalgoRow)

/-- The rows in front of the end marker are visited in order, and considered for the list. -/
def HostkeysConsidered (rows : List PkalgoRow) (last : PkalgoRow) : Prop :=
  getNextPkalgo (rows ++ [last]) none = .ok (some 0) ∧
    (∀ i < rows.length, getNextPkalgo (rows ++ [last]) (some i)
      = .ok (if i + 1 < rows.length then some (i + 1) else none)) ∧
    ∀ session, buildHostkeyList (rows ++ [last]) session = .ok (rows.filter session.takes)

/-- The pointer to the first row is not above the start of the table. -/
theorem getNextPkalgo_first (table : List PkalgoRow) : getNextPkalgo table (some 0) = .ok none := rfl

theorem buildHostkeyList_cons (session : HostkeySession) :
    buildHostkeyList (row :: rows ++ [last]) session = .ok ([row].filter session.takes) := by
  cases h : session.takes row <;>
    simp [buildHostkeyList, getNextPkalgo, hostkeyRows, h]

/-- Only the first row is visited. -/
theorem hostkeysConsidered_iff : HostkeysConsidered (row :: rows) last ↔ rows = [] := by
  constructor
  · rintro ⟨-, hnext, -⟩
    have hfirst := (getNextPkalgo_first _).symm.trans (hnext 0 (by simp))
    simpa using hfirst
  · rintro rfl
    refine ⟨rfl, ?_, fun session => buildHostkeyList_cons row [] last session⟩
    intro i hi
    rw [length_singleton, Nat.lt_one_iff] at hi
    subst hi
    rfl

def rowOf (id : ℕ) : PkalgoRow := ⟨id, false, true, [], []⟩

theorem second_row_not_considered :
    getNextPkalgo [rowOf 1, rowOf 2, rowOf 0] (some 0) = .ok none ∧
      buildHostkeyList [rowOf 1, rowOf 2, rowOf 0] ⟨false, false, fun _ => 0, fun _ => true⟩
        = .ok [rowOf 1] ∧
      ¬ HostkeysConsidered [rowOf 1, rowOf 2] (rowOf 0) := by
  refine ⟨rfl, by decide, ?_⟩
  intro h
  cases h.2.1 0 (by decide)

end Osns
