import Mathlib.Data.List.TakeWhile
import Osns.Library.Glob
import Osns.Model.HostPattern
import Osns.Model.Pk

/-! The host patterns as globs, and where the matcher leaves them. -/

namespace Osns

open List Glob

/-! ## Patterns as globs -/

def globToken (b : UInt8) : Glob.Token UInt8 :=
  if b = question then .one else if b = asterisk then .any else .char b

def glob (entry : Bytes) : List (Glob.Token UInt8) := entry.map globToken

/-- Some entry of the list matches the whole name or the whole address. -/
def ListMatches (list hostname ipv4 : Bytes) : Prop :=
  ∃ entry ∈ list.splitOn comma, Glob.Matches (glob entry) hostname ∨ Glob.Matches (glob entry) ipv4

instance (list hostname ipv4 : Bytes) : Decidable (ListMatches list hostname ipv4) :=
  inferInstanceAs (Decidable (∃ entry ∈ list.splitOn comma, _))

theorem glob_of_literal {bytes : Bytes} (h : ∀ b ∈ bytes, isWildcard b = false) :
    glob bytes = bytes.map .char := by
  apply map_congr_left
  intro b hb
  have hb := h b hb
  simp only [isWildcard, decide_eq_false_iff_not, not_or] at hb
  rw [globToken, if_neg hb.1, if_neg hb.2]

theorem glob_split (start : Bytes) :
    glob start = (start.takeWhile (!isWildcard ·)).map .char ++
      glob (start.dropWhile (!isWildcard ·)) := by
  have hliteral : ∀ b ∈ start.takeWhile (!isWildcard ·), isWildcard b = false := by
    intro b hb
    simpa using mem_takeWhile_imp hb
  rw [← glob_of_literal hliteral, glob, glob, glob, ← map_append, takeWhile_append_dropWhile]

theorem globToken_eq_any {b : UInt8} (h : globToken b = .any) : b = asterisk := by
  unfold globToken at h
  split at h
  · cases h
  · split at h
    · assumption
    · cases h

theorem glob_asterisk (start : Bytes) : glob (asterisk :: start) = .any :: glob start := rfl

theorem glob_question (start : Bytes) : glob (question :: start) = .one :: glob start := rfl

/-! ## Where the matcher leaves the globs -/

/-- No `string` starts inside one that has `after` behind it. -/
def noOverlap (string after : Bytes) : Bool :=
  (range string.length).all fun k => k = 0 ∨ ¬ string <+: (string ++ after).drop k

/-- The search for `string` in front of `help` does not skip a place inside one that it has tried,
or `help` starts with an asterisk, for which the earlier place is as good. -/
def findStringOnTrack (onTrack : Bytes → Bool) (string help : Bytes) : ℕ → Bytes → Bool
  | 0, _ => false
  | fuel + 1, pos =>
    match behindStrstr string pos with
    | none => true
    | some pos =>
      onTrack pos && (Glob.Matches (glob help) pos ||
        (help.head? = some asterisk || noOverlap string pos) &&
          findStringOnTrack onTrack string help fuel pos)

def asteriskOnTrack (onTrack : Bytes → Bytes → Bool) (pos start : Bytes) : Bool :=
  (start.takeWhile isWildcard).all (· = asterisk) &&
    match (start.dropWhile isWildcard).dropWhile (!isWildcard ·) with
    | [] => true
    | help :: rest =>
      findStringOnTrack (onTrack · (help :: rest))
        ((start.dropWhile isWildcard).takeWhile (!isWildcard ·)) (help :: rest)
        (pos.length + 1) pos

def whileOnTrack (onTrack : Bytes → Bytes → Bool) : ℕ → Bytes → Bytes → Bool
  | 0, _, _ => false
  | fuel + 1, pos, start =>
    match start.dropWhile (!isWildcard ·) with
    | [] => true
    | wildcard :: rest =>
      let bytes := start.takeWhile (!isWildcard ·)
      if pos = [] then !start.all (· = asterisk)
      else if bytes <+: pos then
        if wildcard = question then
          match pos.drop bytes.length with
          | [] => true
          | _ :: pos => if rest = [] then true else whileOnTrack onTrack fuel pos rest
        else asteriskOnTrack onTrack (pos.drop bytes.length) rest
      else true

def onTrack : ℕ → Bytes → Bytes → Bool
  | 0, _, _ => false
  | left + 1, host, hostpattern =>
    whileOnTrack (onTrack left) (hostpattern.length + 1) host hostpattern

/-- The pairs that are compared for one entry: the name only if the address does not match. -/
def entryOnTrack (hostname ipv4 entry : Bytes) : Bool :=
  !isHostPattern entry ||
    onTrack 21 ipv4 entry && (Glob.Matches (glob entry) ipv4 || onTrack 21 hostname entry)

def entriesOnTrack (hostname ipv4 : Bytes) : List Bytes → Bool
  | [] => true
  | entry :: entries =>
    entryOnTrack hostname ipv4 entry &&
      (Glob.Matches (glob entry) hostname || Glob.Matches (glob entry) ipv4 ||
        entriesOnTrack hostname ipv4 entries)

/-! ## Searching a string -/

section Search

variable {string pos after : Bytes}

theorem behindStrstr_eq_some (h : behindStrstr string pos = some after) :
    ∃ before, pos = before ++ string ++ after ∧
      ∀ a b, pos = a ++ string ++ b → before.length ≤ a.length := by
  induction pos with
  | nil =>
    unfold behindStrstr at h
    split at h
    · next hnil =>
      cases h
      exact ⟨[], by simp [hnil], fun a b _ => Nat.zero_le _⟩
    · cases h
  | cons b pos ih =>
    rw [behindStrstr] at h
    split at h
    · next hstarts =>
      obtain ⟨rest, hrest⟩ := hstarts
      rw [← hrest, drop_left] at h
      cases h
      exact ⟨[], by simp [hrest], fun a b _ => Nat.zero_le _⟩
    · next hstarts =>
      obtain ⟨before, hpos, hfirst⟩ := ih h
      refine ⟨b :: before, by simp [hpos], ?_⟩
      intro a c hsplit
      cases a with
      | nil => exact absurd ⟨c, hsplit.symm⟩ hstarts
      | cons d a =>
        rw [cons_append, cons_append] at hsplit
        exact Nat.succ_le_succ (hfirst a c (cons.inj hsplit).2)

theorem behindStrstr_eq_none (h : behindStrstr string pos = none) (a b : Bytes) :
    pos ≠ a ++ string ++ b := by
  induction pos generalizing a with
  | nil =>
    unfold behindStrstr at h
    split at h
    · cases h
    · next hnil =>
      intro hsplit
      have := append_eq_nil_iff.mp hsplit.symm
      exact hnil (append_eq_nil_iff.mp this.1).2
  | cons c pos ih =>
    rw [behindStrstr] at h
    split at h
    · cases h
    · next hstarts =>
      intro hsplit
      cases a with
      | nil => exact hstarts ⟨b, hsplit.symm⟩
      | cons d a =>
        rw [cons_append, cons_append] at hsplit
        exact ih h a (cons.inj hsplit).2

theorem occurs_behind {before a b : Bytes} (hpos : before ++ string ++ after = a ++ string ++ b)
    (hlater : before.length < a.length) :
    (∃ a', after = a' ++ string ++ b) ∨
      ∃ k, 0 < k ∧ k < string.length ∧ (string ++ after).drop k = string ++ b := by
  by_cases hinside : a.length < before.length + string.length
  · refine .inr ⟨a.length - before.length, by omega, by omega, ?_⟩
    have hdrop := congrArg (drop a.length) hpos
    rw [append_assoc, append_assoc, drop_left, drop_append,
      drop_eq_nil_of_le (by omega), nil_append] at hdrop
    exact hdrop
  · refine .inl ⟨a.drop (before ++ string).length, ?_⟩
    have hdrop := congrArg (drop (before ++ string).length) hpos
    rw [drop_left, append_assoc, drop_append_of_le_length (by rw [length_append]; omega)] at hdrop
    rw [hdrop, append_assoc]

theorem skip_matched {help : Bytes} (hpos : ∃ before, pos = before ++ string ++ after ∧
      ∀ a b, pos = a ++ string ++ b → before.length ≤ a.length)
    (hfails : ¬ Glob.Matches (glob help) after)
    (hclear : help.head? = some asterisk || noOverlap string after) :
    (∃ a b, pos = a ++ string ++ b ∧ Glob.Matches (glob help) b) ↔
      ∃ a b, after = a ++ string ++ b ∧ Glob.Matches (glob help) b := by
  obtain ⟨before, rfl, hfirst⟩ := hpos
  constructor
  · rintro ⟨a, b, hsplit, hmatches⟩
    rcases Nat.eq_or_lt_of_le (hfirst a b hsplit) with hsame | hlater
    · have hafter := (append_inj hsplit (by simp [hsame])).2
      exact absurd (hafter ▸ hmatches) hfails
    · rcases occurs_behind hsplit hlater with ⟨a', hbehind⟩ | ⟨k, hk, hlt, hinside⟩
      · exact ⟨a', b, hbehind, hmatches⟩
      · rcases Bool.or_eq_true_iff.mp hclear with hasterisk | hclear
        · obtain ⟨tail, rfl⟩ := head?_eq_some_iff.mp (of_decide_eq_true hasterisk)
          rw [glob_asterisk] at hmatches hfails
          refine absurd (matches_any_of_suffix hmatches ?_) hfails
          -- Both texts are ends of the host, and `b` is the shorter one.
          have hb : b <:+ before ++ string ++ after := ⟨a ++ string, hsplit.symm⟩
          have hafter : after <:+ before ++ string ++ after := ⟨before ++ string, rfl⟩
          refine suffix_of_suffix_length_le hb hafter ?_
          have hlength := congrArg length hsplit
          simp only [length_append] at hlength
          omega
        · rw [noOverlap, all_eq_true] at hclear
          rcases of_decide_eq_true (hclear k (mem_range.mpr hlt)) with hzero | hnot
          · omega
          · exact absurd ⟨b, hinside.symm⟩ hnot
  · rintro ⟨a, b, rfl, hmatches⟩
    exact ⟨before ++ string ++ a, b, by simp, hmatches⟩

theorem findString_iff {again onTrack : Bytes → Bool} {help : Bytes} (hstring : string ≠ [])
    (hagain : ∀ after, onTrack after → (again after ↔ Glob.Matches (glob help) after)) {fuel : ℕ}
    (hfuel : pos.length < fuel) (htrack : findStringOnTrack onTrack string help fuel pos) :
    findString again string fuel pos ↔
      ∃ a b, pos = a ++ string ++ b ∧ Glob.Matches (glob help) b := by
  induction fuel generalizing pos with
  | zero => exact absurd hfuel (Nat.not_lt_zero _)
  | succ fuel ih =>
    rw [findString]
    rw [findStringOnTrack] at htrack
    cases hfind : behindStrstr string pos with
    | none =>
      simp only [Bool.false_eq_true, false_iff]
      rintro ⟨a, b, hsplit, -⟩
      exact behindStrstr_eq_none hfind a b hsplit
    | some after =>
      obtain ⟨before, hpos, hfirst⟩ := behindStrstr_eq_some hfind
      simp only [hfind, Bool.and_eq_true, Bool.or_eq_true] at htrack
      obtain ⟨honTrack, htrack⟩ := htrack
      simp only [Bool.or_eq_true]
      rw [hagain after honTrack]
      by_cases hmatches : Glob.Matches (glob help) after
      · simp only [hmatches, true_or, true_iff]
        exact ⟨before, after, hpos, hmatches⟩
      · simp only [hmatches, decide_false, Bool.false_eq_true, false_or] at htrack ⊢
        have hshorter : after.length < fuel := by
          have hlength := congrArg length hpos
          have hpositive := length_pos_iff.mpr hstring
          simp only [length_append] at hlength
          omega
        have hclear := Bool.or_eq_true_iff.mpr htrack.1
        rw [skip_matched ⟨before, hpos, hfirst⟩ hmatches hclear, ih hshorter htrack.2]

end Search

/-! ## The matcher -/

section Matcher

variable {again onTrack : Bytes → Bytes → Bool} {pos start : Bytes}

theorem glob_skip (h : (start.takeWhile isWildcard).all (· = asterisk)) {text : Bytes} :
    Glob.Matches (.any :: glob start) text ↔
      Glob.Matches (.any :: glob (start.dropWhile isWildcard)) text := by
  have hrun : glob (start.takeWhile isWildcard) =
      replicate (start.takeWhile isWildcard).length .any := by
    rw [glob, map_congr_left (g := fun _ => .any), map_const']
    intro b hb
    rw [of_decide_eq_true (all_eq_true.mp h b hb)]
    rfl
  have hsplit : glob start = glob (start.takeWhile isWildcard) ++ glob (start.dropWhile isWildcard) := by
    rw [glob, glob, glob, ← map_append, takeWhile_append_dropWhile]
  rw [hsplit, hrun, matches_replicate_any]

theorem literal_ne_nil {b : UInt8} {rest : Bytes} (h : start.dropWhile isWildcard = b :: rest) :
    (b :: rest).takeWhile (!isWildcard ·) ≠ [] := by
  have hb : isWildcard b = false := by
    have := head_dropWhile_not isWildcard (l := start) (by simp [h])
    simpa [h] using this
  simp [hb]

theorem matchAsterisk_iff
    (hagain : ∀ pos help rest, onTrack pos (help :: rest) →
      (again pos (help :: rest) ↔ Glob.Matches (glob (help :: rest)) pos))
    (htrack : asteriskOnTrack onTrack pos start) :
    matchAsterisk again pos start ↔ Glob.Matches (.any :: glob start) pos := by
  rw [asteriskOnTrack, Bool.and_eq_true] at htrack
  rw [glob_skip htrack.1, matchAsterisk]
  cases hstart : start.dropWhile isWildcard with
  | nil =>
    simp only [if_true, true_iff]
    exact ⟨[], nil_suffix, rfl⟩
  | cons b rest =>
    have hstring := literal_ne_nil hstart
    rw [hstart] at htrack
    simp only [cons_ne_nil, if_false]
    rw [glob_split, matches_any_chars_append]
    cases hhelp : (b :: rest).dropWhile (!isWildcard ·) with
    | nil =>
      have hall := takeWhile_append_dropWhile (p := (!isWildcard ·)) (l := b :: rest)
      rw [hhelp, append_nil] at hall
      rw [hall]
      simp only [decide_eq_true_eq]
      constructor
      · rintro ⟨before, rfl⟩
        exact ⟨before, [], (append_nil _).symm, rfl⟩
      · rintro ⟨before, after, rfl, hafter⟩
        rw [matches_nil.mp hafter, append_nil]
        exact suffix_append _ _
    | cons help tail =>
      rw [hhelp] at htrack
      exact findString_iff hstring (fun after => hagain after help tail)
        (Nat.lt_succ_self _) htrack.2

theorem wildcard_cases {wildcard : UInt8} {rest : Bytes}
    (h : start.dropWhile (!isWildcard ·) = wildcard :: rest) :
    wildcard = question ∨ wildcard = asterisk := by
  have hnot := head_dropWhile_not (!isWildcard ·) (l := start) (by simp [h])
  simp only [h, head_cons, Bool.not_eq_false'] at hnot
  exact of_decide_eq_true hnot

theorem matchWhile_iff
    (hagain : ∀ pos help rest, onTrack pos (help :: rest) →
      (again pos (help :: rest) ↔ Glob.Matches (glob (help :: rest)) pos))
    {fuel : ℕ} (hfuel : start.length < fuel) (hstart : start ≠ [])
    (htrack : whileOnTrack onTrack fuel pos start) :
    matchWhile again fuel pos start ↔ Glob.Matches (glob start) pos := by
  induction fuel generalizing pos start with
  | zero => exact absurd hfuel (Nat.not_lt_zero _)
  | succ fuel ih =>
    rw [matchWhile]
    rw [whileOnTrack] at htrack
    cases hsplit : start.dropWhile (!isWildcard ·) with
    | nil =>
      have hall := takeWhile_append_dropWhile (p := (!isWildcard ·)) (l := start)
      rw [hsplit, append_nil] at hall
      rw [glob_split, hsplit, hall]
      simp only [glob, map_nil, append_nil, matches_chars, decide_eq_true_eq]
      constructor
      · exact fun h => h.2.2
      · rintro rfl
        exact ⟨hstart, hstart, rfl⟩
    | cons wildcard rest =>
      simp only [hsplit] at htrack ⊢
      by_cases hpos : pos = []
      · -- The loop has ended with the host.
        subst hpos
        simp only [if_true, Bool.not_eq_true'] at htrack
        simp only [if_true, Bool.false_eq_true, false_iff]
        intro hmatches
        rw [matches_nil_text] at hmatches
        refine Bool.eq_false_iff.mp htrack (all_eq_true.mpr fun b hb => ?_)
        exact decide_eq_true (globToken_eq_any (hmatches _ (mem_map_of_mem hb)))
      · simp only [if_neg hpos] at htrack ⊢
        rw [glob_split, hsplit, matches_chars_append]
        by_cases hbytes : start.takeWhile (!isWildcard ·) <+: pos
        · simp only [if_pos hbytes] at htrack ⊢
          simp only [hbytes, true_and]
          rcases wildcard_cases hsplit with rfl | rfl
          · simp only [if_true] at htrack ⊢
            rw [glob_question]
            cases hrest : pos.drop (start.takeWhile (!isWildcard ·)).length with
            | nil => simp
            | cons b pos' =>
              rw [hrest] at htrack
              rw [matches_one_cons]
              simp only at htrack ⊢
              by_cases hend : rest = []
              · simp [hend, glob]
              · rw [if_neg hend] at htrack ⊢
                refine ih ?_ hend htrack
                have hlength := congrArg length hsplit
                have hle := (dropWhile_suffix (l := start) (!isWildcard ·)).length_le
                simp only [length_cons] at hlength
                omega
          · have hne : asterisk ≠ question := by decide
            simp only [if_neg hne] at htrack ⊢
            rw [glob_asterisk]
            exact matchAsterisk_iff hagain htrack
        · simp [hbytes]

end Matcher

theorem matchPatternHost_iff {left : ℕ} {host hostpattern : Bytes} (hpattern : hostpattern ≠ [])
    (htrack : onTrack left host hostpattern) :
    matchPatternHost left host hostpattern ↔ Glob.Matches (glob hostpattern) host := by
  induction left generalizing host hostpattern with
  | zero => cases htrack
  | succ left ih =>
    exact matchWhile_iff (fun pos help rest h => ih (cons_ne_nil _ _) h)
      (Nat.lt_succ_self _) hpattern htrack

/-! ## Lists of hosts -/

section Lists

variable {hostname ipv4 : Bytes}

theorem compareHost_iff {entry : Bytes} (htrack : entryOnTrack hostname ipv4 entry) :
    compareHost hostname ipv4 entry ↔
      Glob.Matches (glob entry) hostname ∨ Glob.Matches (glob entry) ipv4 := by
  unfold compareHost
  cases hpattern : isHostPattern entry with
  | true =>
    have hne : entry ≠ [] := by
      rintro rfl
      cases hpattern
    rw [entryOnTrack, hpattern, Bool.not_true, Bool.false_or, Bool.and_eq_true] at htrack
    obtain ⟨hipv4, hhostname⟩ := htrack
    rw [if_pos rfl, Bool.or_eq_true, matchPatternHost_iff hne hipv4]
    rw [Bool.or_eq_true, decide_eq_true_eq] at hhostname
    rcases hhostname with hmatches | hhostname
    · simp [hmatches]
    · rw [matchPatternHost_iff hne hhostname, or_comm]
  | false =>
    have hliteral : ∀ b ∈ entry, isWildcard b = false := by
      simpa [isHostPattern] using hpattern
    rw [glob_of_literal hliteral]
    simp only [Bool.false_eq_true, if_false, Bool.or_eq_true, decide_eq_true_eq, matches_chars]
    rw [or_comm, eq_comm, @eq_comm _ entry]

theorem entries_iff {entries : List Bytes} (htrack : entriesOnTrack hostname ipv4 entries) :
    entries.any (compareHost hostname ipv4) ↔
      ∃ entry ∈ entries, Glob.Matches (glob entry) hostname ∨ Glob.Matches (glob entry) ipv4 := by
  induction entries with
  | nil => simp
  | cons entry entries ih =>
    simp only [entriesOnTrack, Bool.and_eq_true, Bool.or_eq_true, decide_eq_true_eq] at htrack
    obtain ⟨hentry, hrest⟩ := htrack
    simp only [any_cons, Bool.or_eq_true, mem_cons, or_and_right, exists_or,
      exists_eq_left, compareHost_iff hentry]
    rcases hrest with hmatch | hrest
    · simp [hmatch]
    · rw [ih hrest]

theorem modifyHead_nil_append (fields : List Bytes) : fields.modifyHead ([] ++ ·) = fields := by
  cases fields <;> rfl

theorem findHost_eq (start host : Bytes) :
    findHost hostname ipv4 start host =
      ((host.splitOn comma).modifyHead (start ++ ·)).any (compareHost hostname ipv4) := by
  induction host generalizing start with
  | nil => simp [findHost]
  | cons b host ih =>
    rw [findHost, splitOn, splitOnP_cons_eq_if_modifyHead]
    split
    · next hcomma =>
      rw [ih, if_pos (beq_iff_eq.mpr hcomma)]
      simp only [modifyHead_nil_append, modifyHead_cons, append_nil, any_cons]
      rfl
    · next hcomma =>
      rw [ih, if_neg (by simpa using hcomma), modifyHead_modifyHead]
      simp [splitOn, Function.comp_def]

/-- On track a list matches exactly the hosts that one of its globs matches. -/
theorem compareHostOpenssh_iff (list hostname ipv4 : Bytes)
    (htrack : entriesOnTrack hostname ipv4 (list.splitOn comma)) :
    compareHostOpenssh list hostname ipv4 ↔ ListMatches list hostname ipv4 := by
  have hentries : compareHostOpenssh list hostname ipv4 =
      (list.splitOn comma).any (compareHost hostname ipv4) := by
    rw [compareHostOpenssh, findHost_eq, modifyHead_nil_append]
  rw [hentries, entries_iff htrack, ListMatches]

/-- The list `*.lan,10.0.?.*` and a host that its second entry matches by the address. -/
theorem compareHostOpenssh_lan :
    compareHostOpenssh (ascii ['*', '.', 'l', 'a', 'n', ',', '1', '0', '.', '0', '.', '?', '.', '*'])
        (ascii ['h']) (ascii ['1', '0', '.', '0', '.', '7', '.', '9']) ↔
      ListMatches (ascii ['*', '.', 'l', 'a', 'n', ',', '1', '0', '.', '0', '.', '?', '.', '*'])
        (ascii ['h']) (ascii ['1', '0', '.', '0', '.', '7', '.', '9']) :=
  compareHostOpenssh_iff _ _ _ (by decide)

/-- Four lists that lead off the track: a question mark behind an asterisk, a host that ends in
front of an asterisk, a string that overlaps another, and an entry with too many levels. -/
theorem compareHostOpenssh_off_track :
    (compareHostOpenssh (ascii ['a', '*', '?']) (ascii ['a']) (ascii ['1']) = true ∧
      ¬ ListMatches (ascii ['a', '*', '?']) (ascii ['a']) (ascii ['1'])) ∧
    (compareHostOpenssh (ascii ['a', '?', '*']) (ascii ['a', 'b']) (ascii ['1']) = false ∧
      ListMatches (ascii ['a', '?', '*']) (ascii ['a', 'b']) (ascii ['1'])) ∧
    (compareHostOpenssh (ascii ['*', 'a', 'a', '?']) (ascii ['a', 'a', 'a', 'b']) (ascii ['1']) =
        false ∧
      ListMatches (ascii ['*', 'a', 'a', '?']) (ascii ['a', 'a', 'a', 'b']) (ascii ['1'])) ∧
    (compareHostOpenssh ((range 22).flatMap fun k => [asterisk, UInt8.ofNat (97 + k)])
        ((range 22).map fun k => UInt8.ofNat (97 + k)) (ascii ['1']) = false ∧
      ListMatches ((range 22).flatMap fun k => [asterisk, UInt8.ofNat (97 + k)])
        ((range 22).map fun k => UInt8.ofNat (97 + k)) (ascii ['1'])) := by
  decide

end Lists

end Osns
