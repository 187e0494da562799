import Mathlib.Data.List.Infix
import Osns.Model.Sftp.SharedDirectory

/-! Which targets of links are in the directory that a client shares. -/

namespace Osns

open List

def dot : UInt8 := 0x2e

/-- A directory is given by the names on the way to it from the root. -/
def enter (directory : List Bytes) (name : Bytes) : List Bytes :=
  if name = [] ∨ name = [dot] then directory
  else if name = [dot, dot] then directory.dropLast
  else directory ++ [name]

def resolve (directory : List Bytes) (path : Bytes) : List Bytes :=
  (path.splitOn slash).foldl enter directory

def location (home : List Bytes) (path : Bytes) : List Bytes :=
  resolve (if path.head? = some slash then [] else home) path

def SharedDirectory.directory (home : List Bytes) : SharedDirectory → List Bytes
  | .home => home
  | .root => []
  | .custom path => location home path

/-- How far a path has gone up, and the names it has then gone down. -/
def shorten (way : ℕ × List Bytes) (name : Bytes) : ℕ × List Bytes :=
  if name = [dot, dot] ∧ way.2 = [] then (way.1 + 1, []) else (way.1, enter way.2 name)

def shortest (path : Bytes) : ℕ × List Bytes := (path.splitOn slash).foldl shorten (0, [])

def follow (directory : List Bytes) (way : ℕ × List Bytes) : List Bytes :=
  directory.take (directory.length - way.1) ++ way.2

variable {directory : List Bytes} {path : Bytes}

theorem enter_follow (way : ℕ × List Bytes) (name : Bytes) :
    enter (follow directory way) name = follow directory (shorten way name) := by
  obtain ⟨back, names⟩ := way
  unfold follow shorten enter
  by_cases hskip : name = [] ∨ name = [dot]
  · have hup : name ≠ [dot, dot] := by rcases hskip with rfl | rfl <;> decide
    simp [hskip, hup]
  · by_cases hup : name = [dot, dot]
    · cases names with
      | nil =>
        have hlast : (directory.take (directory.length - back)).dropLast =
            directory.take (directory.length - (back + 1)) := by
          rw [dropLast_eq_take, take_take, length_take]
          congr 1
          omega
        simp [hup, hlast]
      | cons first names => simp [hup, dropLast_append_of_ne_nil]
    · simp [hskip, hup]

theorem resolve_eq_follow : resolve directory path = follow directory (shortest path) := by
  have hstart : directory = follow directory (0, []) := by simp [follow]
  rw [resolve, shortest, ← foldl_hom (follow directory) enter_follow, ← hstart]

theorem prefix_follow_iff {way : ℕ × List Bytes} :
    directory <+: follow directory way ↔ directory.drop (directory.length - way.1) <+: way.2 := by
  unfold follow
  nth_rewrite 1 [← take_append_drop (directory.length - way.1) directory]
  exact prefix_append_right_inj _

theorem resolve_append (front rest : Bytes) :
    resolve directory (front ++ slash :: rest) = resolve (resolve directory front) rest := by
  rw [resolve, splitOn, splitOnP_append_cons front rest (by simp), foldl_append]
  rfl

theorem resolve_slash (rest : Bytes) : resolve directory (slash :: rest) = resolve directory rest :=
  resolve_append [] rest

theorem int32_of_lt {n : ℕ} (h : n < 2 ^ 31) : int32 n = n := if_pos h

/-- What is found is the directory with a slash behind it. -/
theorem comparePathDirectory_eq_iff {front : Bytes} {n : ℕ} (hpath : path.length < 2 ^ 31) :
    comparePathDirectory path front front.length = n ↔
      n = front.length ∧ ∃ rest, path = front ++ slash :: rest := by
  unfold comparePathDirectory
  rw [take_length]
  constructor
  · intro h
    split at h
    · next hfound =>
      obtain ⟨hlen, hfront, hslash⟩ := hfound
      obtain ⟨hlt, hget⟩ := List.getElem?_eq_some_iff.mp hslash
      rw [int32_of_lt (hlen.trans hpath)] at h
      have hsplit := take_append_drop front.length path
      rw [hfront, drop_eq_getElem_cons hlen, hget] at hsplit
      exact ⟨by omega, _, hsplit.symm⟩
    · omega
  · rintro ⟨rfl, rest, rfl⟩
    rw [length_append] at hpath
    rw [if_pos ⟨by simp, take_left, by simp⟩, int32_of_lt (by omega)]

theorem custom_ne_nil {pre home : Option Bytes} (h : setPrefixSftpClient pre home = .custom path) :
    path ≠ [] := by
  rintro rfl
  unfold setPrefixSftpClient at h
  split at h
  · cases h
  · split_ifs at h with hhome
    rcases take_eq_nil_iff.mp (SharedDirectory.custom.inj h) with hzero | rfl
    · exact hhome (.inr hzero)
    · exact hhome (.inr rfl)

variable {base : List Bytes} {home : Option Bytes} {shared : SharedDirectory} {n : ℕ}

/-- The part of a target behind the directory that is shared and a slash. Without a slash in front a
target is relative to the home directory. -/
def SharedDirectory.Behind (home : Option Bytes) (path rest : Bytes) : SharedDirectory → Prop
  | .home => if path.head? = some slash then ∃ h ∈ home, path = h ++ slash :: rest else path = rest
  | .root => path = slash :: rest
  | .custom front => path = front ++ slash :: rest

theorem behind_of_comparePath (hhome : ∀ h ∈ home, h.length < 2 ^ 32) (hpath : path.length < 2 ^ 31)
    (h : sftpComparePath home path shared = n) :
    ∃ rest, shared.Behind home path rest ∧
      resolve directory (path.drop n) = resolve directory rest := by
  unfold sftpComparePath at h
  split at h
  · simp only [SharedDirectory.Behind]
    split at h
    · next habsolute =>
      cases home with
      | none => cases h
      | some front =>
        rw [Option.elim_some, u32_of_lt (hhome front rfl), comparePathDirectory_eq_iff hpath] at h
        obtain ⟨rfl, rest, rfl⟩ := h
        refine ⟨rest, ?_, by rw [drop_left, resolve_slash]⟩
        rw [if_pos habsolute]
        exact ⟨front, rfl, rfl⟩
    · next hrelative =>
      obtain rfl : n = 0 := by omega
      exact ⟨path, by rw [if_neg hrelative], rfl⟩
  · split at h
    · next habsolute =>
      obtain rfl : n = 1 := by omega
      obtain ⟨rest, rfl⟩ := head?_eq_some_iff.mp habsolute
      exact ⟨rest, rfl, rfl⟩
    · cases h
  · rw [comparePathDirectory_eq_iff hpath] at h
    obtain ⟨rfl, rest, rfl⟩ := h
    exact ⟨rest, rfl, by rw [drop_left, resolve_slash]⟩

theorem comparePath_of_behind (hhome : ∀ h ∈ home, h.length < 2 ^ 32) (hpath : path.length < 2 ^ 31)
    {rest : Bytes} (h : shared.Behind home path rest) : ∃ n : ℕ, sftpComparePath home path shared = n := by
  cases shared with
  | home =>
    rw [SharedDirectory.Behind] at h
    rw [sftpComparePath]
    split at h
    · next habsolute =>
      obtain ⟨front, hfront, hrest⟩ := h
      obtain rfl := Option.mem_def.mp hfront
      refine ⟨front.length, ?_⟩
      rw [if_pos habsolute, Option.elim_some, u32_of_lt (hhome front rfl)]
      exact (comparePathDirectory_eq_iff hpath).mpr ⟨rfl, rest, hrest⟩
    · next hrelative => exact ⟨0, if_neg hrelative⟩
  | root =>
    obtain rfl : path = slash :: rest := h
    exact ⟨1, rfl⟩
  | custom front => exact ⟨front.length, (comparePathDirectory_eq_iff hpath).mpr ⟨rfl, rest, h⟩⟩

theorem resolve_behind (hhome : ∀ h ∈ home, resolve [] h = base)
    (hshared : ∀ front, shared = .custom front → front ≠ []) {rest : Bytes}
    (h : shared.Behind home path rest) :
    resolve (shared.directory base) rest = location base path := by
  cases shared with
  | home =>
    rw [SharedDirectory.Behind] at h
    split at h
    · next habsolute =>
      obtain ⟨front, hfront, rfl⟩ := h
      rw [location, if_pos habsolute, resolve_append, hhome front hfront]
      rfl
    · next hrelative =>
      subst h
      rw [location, if_neg hrelative]
      rfl
  | root =>
    obtain rfl : path = slash :: rest := h
    rw [location, if_pos head?_cons, resolve_slash]
    rfl
  | custom front =>
    obtain rfl : path = front ++ slash :: rest := h
    rw [location, resolve_append, head?_append_of_ne_nil _ (hshared front rfl)]
    rfl

/-- The target is in the directory, and the part behind the front leads there. -/
def TargetInside (base directory : List Bytes) (path : Bytes) (n : ℕ) : Prop :=
  directory <+: location base path ∧ resolve directory (path.drop n) = location base path

/-- A path does not go up, or the names of the directory that it leaves are the first that it goes down
again. -/
def StaysInside (directory : List Bytes) (rest : Bytes) : Prop :=
  (shortest rest).1 = 0 ∨ directory.drop (directory.length - (shortest rest).1) <+: (shortest rest).2

theorem staysInside_iff {rest : Bytes} : StaysInside directory rest ↔
    directory <+: resolve directory rest := by
  rw [resolve_eq_follow, prefix_follow_iff, StaysInside]
  refine or_iff_right_of_imp fun hup => ?_
  rw [hup, Nat.sub_zero, drop_length]
  exact nil_prefix

/-- The rest of the target is always relative to the directory, and may lead out of it. -/
theorem sftpComparePath_inside_iff (pre home : Option Bytes) (path : Bytes) (base : List Bytes)
    (hhome : ∀ h ∈ home, h.length < 2 ^ 32 ∧ resolve [] h = base) (hpath : path.length < 2 ^ 31) :
    (∀ n : ℕ, sftpComparePath home path (setPrefixSftpClient pre home) = n →
        TargetInside base ((setPrefixSftpClient pre home).directory base) path n) ↔
      ∀ rest, (setPrefixSftpClient pre home).Behind home path rest →
        StaysInside ((setPrefixSftpClient pre home).directory base) rest := by
  have hlocation {rest : Bytes} (hrest : (setPrefixSftpClient pre home).Behind home path rest) :=
    resolve_behind (fun h hh => (hhome h hh).2) (fun _ => custom_ne_nil) hrest
  have hlength (h : Bytes) (hh : h ∈ home) : h.length < 2 ^ 32 := (hhome h hh).1
  constructor
  · intro hinside rest hrest
    obtain ⟨n, hn⟩ := comparePath_of_behind hlength hpath hrest
    rw [staysInside_iff, hlocation hrest]
    exact (hinside n hn).1
  · intro hstays n hn
    obtain ⟨rest, hrest, hdrop⟩ := behind_of_comparePath hlength hpath hn
    have hfront := staysInside_iff.mp (hstays rest hrest)
    rw [hlocation hrest] at hfront hdrop
    exact ⟨hfront, hdrop⟩

/-- The target `/h/a` for the home directory `/h`. -/
theorem sftpComparePath_inside_iff_home :
    sftpComparePath (some [slash, 104]) [slash, 104, slash, 97] (setPrefixSftpClient none none) = 2 ∧
      TargetInside [[104]] [[104]] [slash, 104, slash, 97] 2 := by
  refine ⟨by decide, (sftpComparePath_inside_iff none (some [slash, 104]) [slash, 104, slash, 97] [[104]]
    (by rintro h ⟨⟩; decide) (by decide)).mpr ?_ 2 (by decide)⟩
  rintro rest ⟨h, ⟨⟩, heq⟩
  cases heq
  exact .inl (by decide)

/-- The target `/h/../x` for the home directory `/h`. -/
theorem sftpComparePath_outside :
    sftpComparePath (some [slash, 104]) [slash, 104, slash, dot, dot, slash, 120]
        (setPrefixSftpClient none (some [slash, 104])) = 2 ∧
      location [[104]] [slash, 104, slash, dot, dot, slash, 120] = [[120]] := by
  decide

end Osns
