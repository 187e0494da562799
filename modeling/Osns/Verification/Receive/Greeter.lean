import Osns.Model.Greeter
import Mathlib.Data.List.TakeWhile
import Mathlib.Data.List.Infix

/-! The first line that starts with "SSH-" is found however the bytes of the server are cut into pieces,
as long as neither it nor a line in front of it is too long. -/

namespace Osns

open List

/-! ## The end of a line -/

section Lines

variable {text buffer line rest : Bytes} {size : ℕ}

theorem memmem_length (h : memmem text buffer = some size) :
    size + text.length ≤ buffer.length := by
  induction buffer generalizing size with
  | nil => cases h
  | cons b buffer ih =>
    rw [memmem] at h
    split at h
    · rename_i hpre
      cases h
      rw [Nat.zero_add]
      exact (List.isPrefixOf_iff_prefix.mp hpre).length_le
    · obtain ⟨n, hn, rfl⟩ := Option.map_eq_some_iff.mp h
      have hlen := ih hn
      rw [length_cons]
      omega

theorem memmem_append (h : memmem text buffer = some size) (more : Bytes) :
    memmem text (buffer ++ more) = some size := by
  induction buffer generalizing size with
  | nil => cases h
  | cons b buffer ih =>
    have hlen := memmem_length h
    have hiff : text.isPrefixOf (b :: buffer) ↔ text.isPrefixOf (b :: buffer ++ more) := by
      rw [List.isPrefixOf_iff_prefix, isPrefixOf_iff_prefix]
      refine ⟨fun hp => hp.trans (prefix_append _ _), fun hp => ?_⟩
      exact prefix_of_prefix_length_le hp (prefix_append _ _) (by omega)
    rw [cons_append, memmem]
    rw [cons_append] at hiff
    rw [memmem] at h
    split at h
    · rename_i hpre
      rw [if_pos (hiff.mp hpre)]
      exact h
    · rename_i hpre
      obtain ⟨n, hn, rfl⟩ := Option.map_eq_some_iff.mp h
      rw [if_neg fun hp => hpre (hiff.mpr hp), ih hn]
      rfl

theorem memmem_termCrlf (hline : ¬ termCrlf <:+: line) :
    memmem termCrlf (line ++ (termCrlf ++ rest)) = some line.length := by
  induction line with
  | nil => rfl
  | cons b line ih =>
    have htail : ¬ termCrlf <:+: line := fun h => hline (infix_cons h)
    have hstart : ¬ termCrlf.isPrefixOf (b :: (line ++ (termCrlf ++ rest))) := by
      rw [List.isPrefixOf_iff_prefix, termCrlf, cons_prefix_cons]
      rintro ⟨rfl, hten⟩
      cases line with
      | nil => exact absurd (cons_prefix_cons.mp hten).1 (by decide)
      | cons c line =>
        obtain ⟨rfl, -⟩ := cons_prefix_cons.mp hten
        exact hline (prefix_append [13, 10] line).isInfix
    rw [cons_append, memmem, if_neg hstart, ih htail]
    rfl

theorem memmem_rd {s : GreeterState} (hline : ¬ termCrlf <:+: line)
    (h : s.rd ++ s.incoming.flatten = line ++ (termCrlf ++ rest)) :
    (memmem termCrlf s.rd = none ∧ ∃ chunk incoming, s.incoming = chunk :: incoming) ∨
      (memmem termCrlf s.rd = some line.length ∧ s.rd.take line.length = line ∧
        s.rd.drop (line.length + 2) ++ s.incoming.flatten = rest) := by
  have hfound : memmem termCrlf (line ++ (termCrlf ++ rest)) = some line.length :=
    memmem_termCrlf hline
  cases hrd : memmem termCrlf s.rd with
  | none =>
    refine .inl ⟨rfl, ?_⟩
    cases hincoming : s.incoming with
    | nil =>
      rw [hincoming, flatten_nil, append_nil] at h
      rw [← h, hrd] at hfound
      cases hfound
    | cons chunk incoming => exact ⟨chunk, incoming, rfl⟩
  | some size =>
    have hmore := memmem_append hrd s.incoming.flatten
    rw [h, hfound] at hmore
    cases hmore
    have hlen : line.length + 2 ≤ s.rd.length := memmem_length hrd
    refine .inr ⟨rfl, ?_, ?_⟩
    · rw [← take_append_of_le_length (by omega), h, take_left]
    · rw [← drop_append_of_le_length hlen, h, ← append_assoc]
      exact drop_left' (by rw [length_append]; rfl)

end Lines

/-! ## Numbers -/

def IsNumber (digits : Bytes) : Prop := digits ≠ [] ∧ digits.all isDigit

/-- The numbers of a version: a major and a minor one, or a major one alone. -/
def IsVersion (text : Bytes) (version : ProtocolVersion) : Prop :=
  IsNumber text ∧ version = { major := decimal text, minor := 0 } ∨
    ∃ major minor, text = major ++ 46 :: minor ∧ IsNumber major ∧ IsNumber minor ∧
      version = { major := decimal major, minor := decimal minor }

section Numbers

variable {digits text software : Bytes} {b : UInt8} {version : ProtocolVersion}

theorem IsNumber.isDigit (h : IsNumber digits) (hb : b ∈ digits) : isDigit b :=
  all_eq_true.mp h.2 b hb

theorem IsNumber.ne (h : IsNumber digits) {c : UInt8} (hc : Osns.isDigit c = false) :
    ∀ b ∈ digits, decide (b ≠ c) = true := by
  intro b hb
  have hdigit := h.isDigit hb
  rw [decide_eq_true_iff]
  rintro rfl
  rw [hc] at hdigit
  cases hdigit

theorem readSign_digit (hb : isDigit b) (text : Bytes) : readSign (b :: text) = (1, b :: text) := by
  unfold readSign
  split
  case h_1 heq | h_2 heq =>
    cases heq
    exact absurd hb (by decide)
  · rfl

theorem not_isSpace_digit (hb : isDigit b) : ¬ isSpace b := by
  simp only [isDigit, isSpace, decide_eq_true_eq, UInt8.le_iff_toNat_le] at hb ⊢
  rintro (rfl | ⟨-, hle⟩)
  · exact absurd hb.1 (by decide)
  · exact absurd (hb.1.trans hle) (by decide)

theorem atoi_number (h : IsNumber digits) :
    atoi digits = if decimal digits < 2 ^ 31 then some (decimal digits : ℤ) else none := by
  have htake : digits.takeWhile isDigit = digits :=
    takeWhile_eq_self_iff.mpr fun b hb => h.isDigit hb
  cases digits with
  | nil => exact absurd rfl h.1
  | cons b text =>
    have hb : isDigit b := h.isDigit mem_cons_self
    rw [atoi, dropWhile_cons_of_neg (not_isSpace_digit hb), readSign_digit hb]
    simp only [htake, Int.one_mul]
    exact if_congr (by omega) rfl rfl

theorem toUnsigned_of_lt {n : ℕ} (hn : n < 2 ^ 31) : toUnsigned n = n := by
  unfold toUnsigned
  omega

theorem IsNumber.notMem (h : IsNumber digits) {c : UInt8} (hc : Osns.isDigit c = false) : c ∉ digits :=
  fun hmem => absurd (h.isDigit hmem) (by simp [hc])

theorem IsVersion.read (h : IsVersion text version) :
    45 ∉ text ∧ readMinor text = (if version.minor < 2 ^ 31 then some (version.minor : ℤ) else none) ∧
      atoi (text.takeWhile (· ≠ 46)) =
        if version.major < 2 ^ 31 then some (version.major : ℤ) else none := by
  rcases h with ⟨hmajor, rfl⟩ | ⟨major, minor, rfl, hmajor, hminor, rfl⟩
  · refine ⟨hmajor.notMem rfl, if_neg (hmajor.notMem rfl), ?_⟩
    rw [takeWhile_eq_self_iff.mpr (hmajor.ne rfl), atoi_number hmajor]
  · have hback : ((major ++ 46 :: minor).dropWhile (· ≠ 46)).drop 1 = minor := by
      rw [dropWhile_append_of_pos (hmajor.ne rfl), dropWhile_cons_of_neg (by decide),
        drop_succ_cons, drop_zero]
    refine ⟨?_, ?_, ?_⟩
    · have hnone : 45 ∉ major ∧ 45 ∉ minor := ⟨hmajor.notMem rfl, hminor.notMem rfl⟩
      simp [hnone]
    · rw [readMinor, if_pos (by simp), hback, atoi_number hminor]
    · rw [takeWhile_append_of_pos (hmajor.ne rfl), takeWhile_cons_of_neg (by decide), append_nil,
        atoi_number hmajor]

theorem readSshProtocolVersion_eq (h : IsVersion text version) :
    readSshProtocolVersion (greeterStart ++ (text ++ 45 :: software)) =
      if version.major < 2 ^ 31 ∧ version.minor < 2 ^ 31 then some ((version.major : ℤ), version)
      else none := by
  obtain ⟨hnone, hminor, hmajor⟩ := h.read
  have hne : ∀ b ∈ text, decide (b ≠ 45) = true :=
    fun b hb => decide_eq_true (ne_of_mem_of_not_mem hb hnone)
  have hfront : (text ++ 45 :: software).takeWhile (· ≠ 45) = text := by
    rw [takeWhile_append_of_pos hne, takeWhile_cons_of_neg (by decide), append_nil]
  simp only [readSshProtocolVersion, drop_left, if_pos (show 45 ∈ text ++ 45 :: software by simp), hfront,
    hminor, hmajor]
  by_cases hone : version.minor < 2 ^ 31
  · rw [if_pos hone]
    by_cases htwo : version.major < 2 ^ 31
    · rw [if_pos htwo, if_pos ⟨htwo, hone⟩]
      simp [toUnsigned_of_lt hone, toUnsigned_of_lt htwo]
    · rw [if_neg htwo, if_neg (fun hboth => htwo hboth.1)]
      rfl
  · rw [if_neg hone]
    exact (if_neg fun hboth => hone hboth.2).symm

end Numbers

/-! ## All lines -/

def greeting (lines : List Bytes) (greeter rest : Bytes) : Bytes :=
  lines.flatMap (· ++ termCrlf) ++ (greeter ++ (termCrlf ++ rest))

theorem greeting_cons (line : Bytes) (lines : List Bytes) (greeter rest : Bytes) :
    greeting (line :: lines) greeter rest = line ++ (termCrlf ++ greeting lines greeter rest) := by
  rw [greeting, flatMap_cons, append_assoc, append_assoc, greeting]

/-- A line in front of the one that starts with "SSH-". -/
structure OtherLine (line : Bytes) : Prop where
  single : ¬ termCrlf <:+: line
  other : ¬ greeterStart <+: line

/-- The version of a line stands between "SSH-" and the next '-'. -/
def AnnouncesVersion (greeter : Bytes) (version : ProtocolVersion) : Prop :=
  ∃ text software, greeter = greeterStart ++ (text ++ 45 :: software) ∧ IsVersion text version

/-- The line is recorded with its version, and the bytes behind it are left for the packets, however the
bytes arrive. -/
def Recognises (malloc : ℕ → Bool) (lines : List Bytes) (greeter rest : Bytes) : Prop :=
  ∀ s : GreeterState, s.rd ++ s.incoming.flatten = greeting lines greeter rest →
    ∃ version left, cbReadSocketSshGreeter malloc s = some (.session greeter version left) ∧
      AnnouncesVersion greeter version ∧ left.rd ++ left.incoming.flatten = rest

/-- A line that fits and announces a version that is not zero, with numbers that are an `int`. -/
structure Readable (greeter : Bytes) : Prop where
  size : greeter.length ≤ 253
  text : 0 ∉ greeter
  version : ∃ version, AnnouncesVersion greeter version ∧ 0 < version.major ∧
    version.major < 2 ^ 31 ∧ version.minor < 2 ^ 31

section Passes

variable {malloc : ℕ → Bool} {s : GreeterState} {line greeter rest : Bytes} {lines : List Bytes}
  {incoming : List Bytes}

theorem greeterPass_chunk {chunk : Bytes} (hnone : memmem termCrlf s.rd = none)
    (h : s.incoming = chunk :: incoming) :
    greeterPass malloc s = .next { rd := s.rd ++ chunk, incoming } := by
  simp [greeterPass, hnone, h]

section

variable (hsome : memmem termCrlf s.rd = some line.length) (htake : s.rd.take line.length = line)
  (hsize : line.length ≤ 253)

include hsome htake hsize

theorem greeterPass_line :
    greeterPass malloc s =
      if greeterStart.length < (line.takeWhile (· ≠ 0)).length ∧
          (line.takeWhile (· ≠ 0)).take greeterStart.length = greeterStart then
        .done (readGreeterLine malloc (line.takeWhile (· ≠ 0))
          { s with rd := s.rd.drop (line.length + 2) })
      else .next { s with rd := s.rd.drop (line.length + 2) } := by
  simp [greeterPass, hsome, if_neg (Nat.not_lt_of_le hsize), htake]

theorem greeterPass_other (hline : OtherLine line) :
    greeterPass malloc s = .next { s with rd := s.rd.drop (line.length + 2) } := by
  rw [greeterPass_line hsome htake hsize, if_neg]
  rintro ⟨-, hstart⟩
  have hpre : greeterStart <+: line.takeWhile (· ≠ 0) := by
    rw [← hstart]
    exact take_prefix _ _
  exact hline.other (hpre.trans <| takeWhile_prefix _)

end

theorem greeterPass_greeter (hsome : memmem termCrlf s.rd = some greeter.length)
    (htake : s.rd.take greeter.length = greeter) (hgreeter : Readable greeter)
    (hmalloc : malloc greeter.length) :
    ∃ version, AnnouncesVersion greeter version ∧ greeterPass malloc s =
      .done (.session greeter version { s with rd := s.rd.drop (greeter.length + 2) }) := by
  obtain ⟨version, ⟨text, software, hline, hversion⟩, hpos, hmajor, hminor⟩ := hgreeter.version
  have htext : greeter.takeWhile (· ≠ 0) = greeter := by
    rw [takeWhile_eq_self_iff]
    intro b hb
    rw [decide_eq_true_iff]
    rintro rfl
    exact hgreeter.text hb
  have hstart : greeterStart.length < greeter.length ∧
      greeter.take greeterStart.length = greeterStart := by
    rw [hline]
    refine ⟨?_, take_left⟩
    rw [length_append, length_append, length_cons]
    omega
  have hread : readSshProtocolVersion (greeterStart ++ (text ++ 45 :: software)) = _ :=
    readSshProtocolVersion_eq hversion
  rw [← hline, if_pos ⟨hmajor, hminor⟩] at hread
  refine ⟨version, ⟨text, software, hline, hversion⟩, ?_⟩
  rw [greeterPass_line hsome htake hgreeter.size, htext, if_pos hstart, readGreeterLine,
    if_pos hmalloc, hread]
  simp only
  rw [if_neg (by omega), if_neg (by omega)]

theorem passes_chunk {chunk : Bytes} (h : s.incoming = chunk :: incoming) :
    GreeterState.passes { rd := s.rd ++ chunk, incoming } < s.passes := by
  simp only [GreeterState.passes, h, length_append, flatten_cons, length_cons]
  omega

theorem passes_line (h : memmem termCrlf s.rd = some line.length) :
    GreeterState.passes { s with rd := s.rd.drop (line.length + 2) } < s.passes := by
  have hlen : line.length + 2 ≤ s.rd.length := memmem_length h
  simp only [GreeterState.passes, length_drop]
  omega

/-- What a pass does as long as the line has not been found: the lines that are left get fewer, or the
pieces that are to come. -/
theorem greeterPass_cases (hlines : ∀ line ∈ lines, OtherLine line ∧ line.length ≤ 253)
    (hsingle : ¬ termCrlf <:+: greeter) (hgreeter : Readable greeter) (hmalloc : malloc greeter.length)
    (h : s.rd ++ s.incoming.flatten = greeting lines greeter rest) :
    (∃ s' lines', greeterPass malloc s = .next s' ∧ s'.passes < s.passes ∧
      (∀ line ∈ lines', OtherLine line ∧ line.length ≤ 253) ∧
      s'.rd ++ s'.incoming.flatten = greeting lines' greeter rest) ∨
    ∃ version left, greeterPass malloc s = .done (.session greeter version left) ∧
      AnnouncesVersion greeter version ∧ left.rd ++ left.incoming.flatten = rest := by
  have hwait : (memmem termCrlf s.rd = none ∧ ∃ chunk incoming, s.incoming = chunk :: incoming) →
      ∃ s' lines', greeterPass malloc s = .next s' ∧ s'.passes < s.passes ∧
        (∀ line ∈ lines', OtherLine line ∧ line.length ≤ 253) ∧
        s'.rd ++ s'.incoming.flatten = greeting lines' greeter rest := by
    rintro ⟨hnone, chunk, incoming, hincoming⟩
    refine ⟨_, lines, greeterPass_chunk hnone hincoming, passes_chunk hincoming, hlines, ?_⟩
    rw [← h, hincoming, flatten_cons, append_assoc]
  cases lines with
  | nil =>
    -- The next line is the one that is looked for.
    rcases memmem_rd hsingle h with hnone | ⟨hsome, htake, hrest⟩
    · exact .inl (hwait hnone)
    · obtain ⟨version, hversion, hpass⟩ := greeterPass_greeter hsome htake hgreeter hmalloc
      exact .inr ⟨version, _, hpass, hversion, hrest⟩
  | cons line lines =>
    rw [forall_mem_cons] at hlines
    obtain ⟨⟨hline, hsize⟩, hlines⟩ := hlines
    rw [greeting_cons] at h
    rcases memmem_rd hline.single h with hnone | ⟨hsome, htake, hrest⟩
    · exact .inl (hwait hnone)
    · exact .inl ⟨_, lines, greeterPass_other hsome htake hsize hline, passes_line hsome, hlines,
        hrest⟩

theorem recognises_of_readable (hlines : ∀ line ∈ lines, OtherLine line ∧ line.length ≤ 253)
    (hsingle : ¬ termCrlf <:+: greeter) (hgreeter : Readable greeter) (hmalloc : malloc greeter.length) :
    Recognises malloc lines greeter rest := by
  intro s hs
  have hspec : ∃ r, Loop.run (greeterPass malloc) (s.passes + 1) s = some r ∧
      ∃ version left, r = .session greeter version left ∧ AnnouncesVersion greeter version ∧
        left.rd ++ left.incoming.flatten = rest := by
    refine Loop.run_spec
      (P := fun s => ∃ lines, (∀ line ∈ lines, OtherLine line ∧ line.length ≤ 253) ∧
        s.rd ++ s.incoming.flatten = greeting lines greeter rest)
      GreeterState.passes ?_ ⟨lines, hlines, hs⟩ (Nat.lt_succ_self _)
    rintro s ⟨lines, hlines, hs⟩
    rcases greeterPass_cases hlines hsingle hgreeter hmalloc hs with
      ⟨next, lines', hpass, hless, hlines', hnext⟩ | ⟨version, left, hpass, hversion, hleft⟩
    · rw [hpass]
      exact ⟨⟨lines', hlines', hnext⟩, hless⟩
    · rw [hpass]
      exact ⟨version, left, rfl, hversion, hleft⟩
  obtain ⟨_, hrun, version, left, rfl, hversion, hleft⟩ := hspec
  exact ⟨version, left, hrun, hversion, hleft⟩

/-! ### What a session says -/

variable {version : ProtocolVersion} {left : GreeterState} {fuel : ℕ}

/-- A line that has been recorded fits, and its version has been read. -/
structure Recorded (malloc : ℕ → Bool) (line : Bytes) (version : ProtocolVersion) : Prop where
  size : line.length ≤ 253
  text : 0 ∉ line
  saved : malloc line.length
  major : version.major ≠ 0
  read : ∃ result, readSshProtocolVersion line = some (result, version)

theorem recorded_of_session
    (hrun : Loop.run (greeterPass malloc) fuel s = some (.session line version left)) :
    Recorded malloc line version := by
  refine Loop.run_invariant (P := fun _ => True) (Q := fun r => ∀ line version left,
    r = .session line version left → Recorded malloc line version) ?_ True.intro hrun line version left rfl
  intro s _
  rw [greeterPass]
  split
  · split
    · exact fun _ _ _ h => by cases h
    · trivial
  · next size _ =>
    split
    · exact fun _ _ _ h => by cases h
    · next hsize =>
      simp only
      split
      · intro line version left h
        unfold readGreeterLine at h
        split at h
        · split at h
          · cases h
          · split_ifs at h
            cases h
            refine ⟨?_, ?_, ‹_›, ‹_›, _, ‹_›⟩
            · refine Nat.le_trans (IsPrefix.length_le <| takeWhile_prefix _) ?_
              exact (length_take_le ..).trans (Nat.le_of_not_lt hsize)
            · exact fun hmem => by simpa using mem_takeWhile_imp hmem
        · cases h
      · trivial

/-- No line in front of a line that has been recorded is too long. -/
theorem session_lines (hlines : ∀ line ∈ lines, OtherLine line)
    (hrun : Loop.run (greeterPass malloc) fuel ⟨greeting lines greeter rest, []⟩ =
      some (.session greeter version left)) : ∀ line ∈ lines, line.length ≤ 253 := by
  induction lines generalizing fuel with
  | nil => exact forall_mem_nil _
  | cons line lines ih =>
    rw [forall_mem_cons] at hlines ⊢
    obtain ⟨hline, hlines⟩ := hlines
    cases fuel with
    | zero => cases hrun
    | succ fuel =>
      have hfirst : greeting (line :: lines) greeter rest =
          line ++ (termCrlf ++ greeting lines greeter rest) := greeting_cons ..
      rcases @memmem_rd _ _ ⟨greeting (line :: lines) greeter rest, []⟩ hline.single
        (by rw [← hfirst]; exact append_nil _) with ⟨-, chunk, incoming, hincoming⟩ | ⟨hsome, htake, hrest⟩
      · cases hincoming
      by_cases hsize : line.length ≤ 253
      · rw [Loop.run_next (greeterPass_other hsome htake hsize hline)] at hrun
        rw [flatten_nil, append_nil] at hrest
        simp only [hrest] at hrun
        exact ⟨hsize, ih hlines hrun⟩
      · have hpass : greeterPass malloc ⟨greeting (line :: lines) greeter rest, []⟩ =
            .done (.disconnect .eproto) := by
          simp [greeterPass, hsome, Nat.lt_of_not_le hsize]
        rw [Loop.run_done hpass] at hrun
        cases hrun

/-- A line is recognised exactly when it is readable and can be saved, and no line in front is too long. -/
theorem greeter_recognised_iff (malloc : ℕ → Bool) (lines : List Bytes) (greeter rest : Bytes)
    (hlines : ∀ line ∈ lines, OtherLine line) (hsingle : ¬ termCrlf <:+: greeter) :
    Recognises malloc lines greeter rest ↔
      (∀ line ∈ lines, line.length ≤ 253) ∧ Readable greeter ∧ malloc greeter.length := by
  constructor
  · intro h
    obtain ⟨version, left, hrun, hannounces, -⟩ := h ⟨greeting lines greeter rest, []⟩ (append_nil _)
    obtain ⟨hsize, htext, hmalloc, hmajor, result, hread⟩ := recorded_of_session hrun
    refine ⟨session_lines hlines hrun, ⟨hsize, htext, version, hannounces, Nat.pos_of_ne_zero hmajor, ?_⟩,
      hmalloc⟩
    obtain ⟨text, software, rfl, hversion⟩ := hannounces
    rw [readSshProtocolVersion_eq hversion] at hread
    exact (Option.ite_none_right_eq_some.mp hread).1
  · rintro ⟨hsizes, hgreeter, hmalloc⟩
    exact recognises_of_readable (fun line hline => ⟨hlines line hline, hsizes line hline⟩) hsingle hgreeter
      hmalloc

end Passes

def shortGreeter : Bytes := [83, 83, 72, 45, 50, 46, 48, 45, 120]

theorem shortGreeter_readable : Readable shortGreeter where
  size := by decide
  text := by decide
  version := ⟨⟨2, 0⟩, ⟨[50, 46, 48], [120], rfl, .inr ⟨[50], [48], rfl, ⟨by decide, rfl⟩,
    ⟨by decide, rfl⟩, by decide⟩⟩, by decide, by decide, by decide⟩

theorem greeter_recognised_iff_short :
    Recognises (fun _ => true) [[104, 105]] shortGreeter [0, 0] := by
  have hline : OtherLine [104, 105] := ⟨by decide, by decide⟩
  refine (greeter_recognised_iff _ _ _ _ (forall_mem_singleton.mpr hline) (by decide)).mpr
    ⟨forall_mem_singleton.mpr (by decide), shortGreeter_readable, rfl⟩

def letters (n : ℕ) : Bytes := replicate n 97

theorem otherLine_letters (n : ℕ) : OtherLine (letters n) where
  single := by
    intro h
    have hmem : (13 : UInt8) ∈ letters n := h.subset mem_cons_self
    exact absurd (eq_of_mem_replicate hmem) (by decide)
  other := by
    intro h
    have hmem : (83 : UInt8) ∈ letters n := h.subset mem_cons_self
    exact absurd (eq_of_mem_replicate hmem) (by decide)

/-- A line of 254 bytes in front of the version closes the connection. -/
theorem greeter_long_line :
    OtherLine (letters 254) ∧ Readable shortGreeter ∧
      cbReadSocketSshGreeter (fun _ => true) ⟨greeting [letters 254] shortGreeter [], []⟩ =
        some (.disconnect .eproto) ∧
      ¬ Recognises (fun _ => true) [letters 254] shortGreeter [] := by
  have hrun : cbReadSocketSshGreeter (fun _ => true) ⟨greeting [letters 254] shortGreeter [], []⟩ =
      some (.disconnect .eproto) := by decide +kernel
  refine ⟨otherLine_letters 254, shortGreeter_readable, hrun, ?_⟩
  intro h
  obtain ⟨version, left, hsession, -⟩ :=
    h ⟨greeting [letters 254] shortGreeter [], []⟩ (append_nil _)
  rw [hrun] at hsession
  cases hsession

end Osns
