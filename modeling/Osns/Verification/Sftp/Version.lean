import Osns.Model.Sftp.Version
import Osns.Verification.Message.Reader

/-! Which version messages are processed as they should be. -/

namespace Osns

open List Option Loop

variable {bytes body : Bytes} {s : VersionState} {pair : Bytes × Bytes}

/-! ## The pairs of a message -/

def takeString (bytes : Bytes) : Option (Bytes × Bytes) :=
  let len := getUint32 bytes
  if 4 ≤ bytes.length ∧ 4 + len ≤ bytes.length then
    some ((bytes.drop 4).take len, bytes.drop (4 + len))
  else none

def takePair (bytes : Bytes) : Option ((Bytes × Bytes) × Bytes) := do
  let (name, bytes) ← takeString bytes
  let (data, bytes) ← takeString bytes
  return ((name, data), bytes)

/-- All complete pairs, and the bytes behind the last of them. A pair has at least eight bytes, so
the length bounds their number. -/
def takePairs : ℕ → Bytes → List (Bytes × Bytes) × Bytes
  | 0, bytes => ([], bytes)
  | fuel + 1, bytes =>
    match takePair bytes with
    | none => ([], bytes)
    | some (pair, bytes) => (pair :: (takePairs fuel bytes).1, (takePairs fuel bytes).2)

def versionPairs (body : Bytes) : List (Bytes × Bytes) × Bytes :=
  takePairs body.length (body.drop 4)

def HandsOver (call : SshString × SshString) (pair : Bytes × Bytes) : Prop :=
  call.1.Holds pair.1 ∧ call.2.Holds pair.2

/-- The function ends, sets the version of the message and processes exactly its complete pairs. -/
def VersionProcessed (body : Bytes) : Prop :=
  ∃ fuel calls, processSftpVersion fuel body = some (.ok (getUint32 body, calls)) ∧
    List.Forall₂ HandsOver calls (versionPairs body).1

/-- At most nine bytes are left behind the pairs, and with them the last pair has more than nine; the
comparison at the end does not wrap around. -/
structure PairsFit (size : ℕ) (pairs : List (Bytes × Bytes)) (rest : Bytes) : Prop where
  short : rest.length ≤ 9
  last : ∀ pair ∈ pairs.getLast?, 9 < 8 + pair.1.length + pair.2.length + rest.length
  no_wrap : size - rest.length + 9 < 2 ^ 32

/-- There is a version, it fits an `unsigned char`, and the pairs fit the loop. -/
structure VersionFits (body : Bytes) : Prop where
  header : 4 ≤ body.length
  version : getUint32 body < 2 ^ 8
  pairs : PairsFit body.length (versionPairs body).1 (versionPairs body).2

/-! ## Strings -/

section Strings

variable {text rest : Bytes}

theorem takeString_eq (h : takeString bytes = some (text, rest)) :
    bytes.length = 4 + text.length + rest.length ∧ getUint32 bytes = text.length ∧
      bytes.drop 4 = text ++ rest := by
  unfold takeString at h
  simp only at h
  split at h
  · next hfits =>
    obtain ⟨rfl, rfl⟩ := Prod.mk.inj (some.inj h)
    simp only [length_take, length_drop]
    refine ⟨by omega, by omega, ?_⟩
    rw [← drop_drop, take_append_drop]
  · cases h

theorem readSshStringSized_self (bytes : Bytes) :
    ∃ n s, readSshStringSized bytes bytes.length = .ok (n, s) ∧ n ≤ bytes.length ∧
      (s.ptr = none → n = 0) := by
  unfold readSshStringSized
  split
  · next hheader =>
    rw [Buffer.load_of_le (by omega), inBounds_some, Result.ok_bind]
    simp only
    split
    · next hfits => exact ⟨_, _, rfl, hfits, by simp⟩
    · exact ⟨_, _, rfl, Nat.zero_le _, fun _ => rfl⟩
  · exact ⟨_, _, rfl, Nat.zero_le _, fun _ => rfl⟩

theorem readSshStringSized_takeString (hsize : bytes.length < 2 ^ 32)
    (h : takeString bytes = some (text, rest)) :
    ∃ s, readSshStringSized bytes bytes.length = .ok (4 + text.length, s) ∧ s.Holds text := by
  obtain ⟨hlength, hget, hdrop⟩ := takeString_eq h
  refine ⟨{ len := text.length, ptr := some (text ++ rest) }, ?_, rest, rfl⟩
  have hheader : getUint32 ((bytes.drop 0).take 4) = text.length := by
    rw [drop_zero, getUint32_take (Nat.le_refl 4), hget]
  rw [readSshStringSized, if_pos (by omega), Buffer.load_of_le (by omega),
    inBounds_some, Result.ok_bind]
  simp only [hheader, hdrop, u32_of_lt (show 4 + text.length < 2 ^ 32 by omega)]
  rw [if_pos (by omega)]
  rfl

theorem drop_of_takeString (h : takeString bytes = some (text, rest)) :
    bytes.drop (4 + text.length) = rest := by
  obtain ⟨-, -, hdrop⟩ := takeString_eq h
  rw [← drop_drop, hdrop, drop_left]

theorem takePair_eq {pair : Bytes × Bytes} (h : takePair bytes = some (pair, rest)) :
    ∃ middle, takeString bytes = some (pair.1, middle) ∧ takeString middle = some (pair.2, rest) := by
  unfold takePair at h
  cases hname : takeString bytes with
  | none => simp [hname] at h
  | some name =>
    cases hdata : takeString name.2 with
    | none => simp [hname, hdata] at h
    | some data =>
      simp only [hname, hdata, bind_eq_bind, bind_some, Option.pure_def,
        some.injEq, Prod.mk.injEq] at h
      obtain ⟨rfl, rfl⟩ := h
      exact ⟨name.2, rfl, hdata⟩

end Strings

/-! ## Passes -/

section Passes

theorem read_at (hsize : body.length < 2 ^ 32) {pos : ℕ} (hpos : pos ≤ body.length) :
    readSshStringSized (body.drop pos) (u32Sub body.length pos) =
      readSshStringSized (body.drop pos) (body.drop pos).length := by
  rw [u32Sub_of_le hsize hpos, length_drop]

theorem processVersionPass_done (hstops : ¬ u32 (s.pos + 9) < body.length) :
    processVersionPass body s = .done (.ok s.calls) :=
  if_neg hstops

def Processes (body : Bytes) (s : VersionState) (pairs : List (Bytes × Bytes)) : Prop :=
  ∃ fuel calls, run (processVersionPass body) fuel s = some (.ok (s.calls ++ calls)) ∧
    List.Forall₂ HandsOver calls pairs

theorem not_processes_of_stop (hstops : ¬ u32 (s.pos + 9) < body.length)
    {pairs : List (Bytes × Bytes)} : ¬ Processes body s (pair :: pairs) := by
  rintro ⟨fuel, calls, hrun, hcalls⟩
  cases fuel with
  | zero => cases hrun
  | succ fuel =>
    rw [run, processVersionPass_done hstops] at hrun
    have hnil := self_eq_append_right.mp (Except.ok.inj (some.inj hrun))
    rw [hnil] at hcalls
    cases hcalls

variable (hsize : body.length < 2 ^ 32) (hpos : s.pos ≤ body.length)

include hsize hpos

theorem processVersionPass_next (hgoes : u32 (s.pos + 9) < body.length) :
    ∃ s', processVersionPass body s = .next s' ∧ s.pos ≤ s'.pos ∧ s'.pos ≤ body.length ∧
      (s' = s ∨ ∃ call, s'.calls = s.calls ++ [call]) := by
  obtain ⟨n, name, hname, hn, hnone⟩ := readSshStringSized_self (body.drop s.pos)
  rw [length_drop] at hn
  have hpos' : s.pos + n ≤ body.length := by omega
  unfold processVersionPass
  simp only [if_pos hgoes, read_at hsize hpos, hname, u32_of_lt (show s.pos + n < 2 ^ 32 by omega)]
  cases hptr : name.ptr with
  | none =>
    refine ⟨s, ?_, Nat.le_refl _, hpos, .inl rfl⟩
    simp [hnone hptr]
  | some ptr =>
    obtain ⟨m, data, hdata, hm, -⟩ := readSshStringSized_self (body.drop (s.pos + n))
    rw [length_drop] at hm
    simp only [isSome_some, if_true, read_at hsize hpos', hdata,
      u32_of_lt (show s.pos + n + m < 2 ^ 32 by omega)]
    exact ⟨_, rfl, by simp only; omega, by simp only; omega, .inr ⟨(name, data), rfl⟩⟩

theorem processVersionPass_pair (hgoes : u32 (s.pos + 9) < body.length) {rest : Bytes}
    (hpair : takePair (body.drop s.pos) = some (pair, rest)) :
    ∃ s' call, processVersionPass body s = .next s' ∧ s'.calls = s.calls ++ [call] ∧
      HandsOver call pair ∧ s'.pos ≤ body.length ∧ body.drop s'.pos = rest := by
  obtain ⟨middle, hname, hdata⟩ := takePair_eq hpair
  obtain ⟨hlength, -, -⟩ := takeString_eq hname
  obtain ⟨hlength', -, -⟩ := takeString_eq hdata
  have hmiddle := drop_of_takeString hname
  have hrest := drop_of_takeString hdata
  rw [drop_drop] at hmiddle
  rw [length_drop] at hlength
  rw [← hmiddle, drop_drop] at hrest
  have hpos' : s.pos + (4 + pair.1.length) ≤ body.length := by omega
  obtain ⟨name, hreadName, hholdsName⟩ :=
    readSshStringSized_takeString (by rw [length_drop]; omega) hname
  obtain ⟨data, hreadData, hholdsData⟩ := readSshStringSized_takeString (by omega) hdata
  rw [← hmiddle] at hreadData
  refine ⟨⟨s.pos + (4 + pair.1.length) + (4 + pair.2.length), s.calls ++ [(name, data)]⟩,
    (name, data), ?_, rfl, ⟨hholdsName, hholdsData⟩, ?_, hrest⟩
  · have hptr : name.ptr.isSome := by
      obtain ⟨tail, rfl⟩ := hholdsName
      rfl
    unfold processVersionPass
    simp only [if_pos hgoes, read_at hsize hpos, hreadName, hptr, if_true, read_at hsize hpos',
      u32_of_lt (show s.pos + (4 + pair.1.length) < 2 ^ 32 by omega), hreadData]
    rw [u32_of_lt (by omega)]
  · simp only
    omega

/-! ## Runs -/

theorem calls_of_run {fuel : ℕ} {calls : List (SshString × SshString)}
    (hrun : run (processVersionPass body) fuel s = some (.ok calls)) : s.calls <+: calls := by
  induction fuel generalizing s with
  | zero => cases hrun
  | succ fuel ih =>
    rw [run] at hrun
    by_cases hgoes : u32 (s.pos + 9) < body.length
    · obtain ⟨s', hpass, -, hpos', hcalls⟩ := processVersionPass_next hsize hpos hgoes
      rw [hpass] at hrun
      have hrest := ih hpos' hrun
      rcases hcalls with rfl | ⟨call, hcall⟩
      · exact hrest
      · rw [hcall] at hrest
        exact (prefix_append _ _).trans hrest
    · rw [processVersionPass_done hgoes] at hrun
      obtain rfl := Except.ok.inj (some.inj hrun)
      exact prefix_rfl

theorem run_of_wrap (hwrap : 2 ^ 32 ≤ s.pos + 9) (fuel : ℕ) :
    run (processVersionPass body) fuel s = none := by
  induction fuel generalizing s with
  | zero => rfl
  | succ fuel ih =>
    have hgoes : u32 (s.pos + 9) < body.length := by
      unfold u32
      omega
    obtain ⟨s', hpass, hle, hpos', -⟩ := processVersionPass_next hsize hpos hgoes
    rw [run, hpass]
    exact ih hpos' (by omega)

theorem processes_nil_iff : Processes body s [] ↔ PairsFit body.length [] (body.drop s.pos) := by
  constructor
  · rintro ⟨fuel, calls, hrun, hcalls⟩
    cases hcalls
    rw [append_nil] at hrun
    have hnowrap : s.pos + 9 < 2 ^ 32 := by
      by_contra hwrap
      rw [run_of_wrap hsize hpos (Nat.le_of_not_lt hwrap)] at hrun
      cases hrun
    refine ⟨?_, by simp, by rw [length_drop]; omega⟩
    rw [length_drop]
    by_contra hlong
    have hgoes : u32 (s.pos + 9) < body.length := by
      rw [u32_of_lt hnowrap]
      omega
    obtain ⟨s', hpass, -, hpos', hcalls⟩ := processVersionPass_next hsize hpos hgoes
    rcases hcalls with rfl | ⟨call, hcall⟩
    · -- The pass has changed nothing, so there is no end.
      have hnone (fuel : ℕ) : run (processVersionPass body) fuel s' = none := by
        induction fuel with
        | zero => rfl
        | succ fuel ih =>
          rw [run, hpass]
          exact ih
      rw [hnone] at hrun
      cases hrun
    · cases fuel with
      | zero => cases hrun
      | succ fuel =>
        rw [run, hpass] at hrun
        have hstarts := (calls_of_run hsize hpos' hrun).length_le
        rw [hcall, length_append, length_singleton] at hstarts
        omega
  · rintro ⟨hshort, -, hnowrap⟩
    rw [length_drop] at hshort hnowrap
    refine ⟨1, [], ?_, .nil⟩
    have hstops : ¬ u32 (s.pos + 9) < body.length := by
      rw [u32_of_lt (by omega)]
      omega
    rw [run, processVersionPass_done hstops, append_nil]

theorem processes_cons (hgoes : u32 (s.pos + 9) < body.length) {rest : Bytes}
    (hpair : takePair (body.drop s.pos) = some (pair, rest)) :
    ∃ s', s'.pos ≤ body.length ∧ body.drop s'.pos = rest ∧
      ∀ pairs, Processes body s (pair :: pairs) ↔ Processes body s' pairs := by
  obtain ⟨s', call, hpass, hcalls, hhands, hpos', hrest⟩ :=
    processVersionPass_pair hsize hpos hgoes hpair
  refine ⟨s', hpos', hrest, fun pairs => ?_⟩
  constructor
  · rintro ⟨fuel, calls, hrun, hforall⟩
    cases hforall with
    | @cons first _ others _ hfirst hothers =>
      cases fuel with
      | zero => cases hrun
      | succ fuel =>
        rw [run, hpass] at hrun
        obtain ⟨tail, htail⟩ := calls_of_run hsize hpos' hrun
        rw [hcalls, append_assoc, append_cancel_left_eq] at htail
        obtain ⟨rfl, rfl⟩ := cons.inj htail
        refine ⟨fuel, _, ?_, hothers⟩
        rw [hcalls, append_assoc]
        exact hrun
  · rintro ⟨fuel, calls, hrun, hforall⟩
    refine ⟨fuel + 1, call :: calls, ?_, .cons hhands hforall⟩
    rw [hcalls, append_assoc] at hrun
    rw [run, hpass]
    exact hrun

end Passes

/-! ## The pairs and the loop -/

section Pairs

theorem length_of_takePair {rest : Bytes} (h : takePair bytes = some (pair, rest)) :
    bytes.length = 8 + pair.1.length + pair.2.length + rest.length := by
  obtain ⟨middle, hname, hdata⟩ := takePair_eq h
  obtain ⟨hlength, -, -⟩ := takeString_eq hname
  obtain ⟨hlength', -, -⟩ := takeString_eq hdata
  omega

theorem length_takePairs_le (n : ℕ) (bytes : Bytes) : (takePairs n bytes).2.length ≤ bytes.length := by
  induction n generalizing bytes with
  | zero => exact Nat.le_refl _
  | succ n ih =>
    rw [takePairs]
    cases hpair : takePair bytes with
    | none => exact Nat.le_refl _
    | some found =>
      have hlength := length_of_takePair hpair
      have hrest := ih found.2
      simp only
      omega

theorem last_takePairs_le (n : ℕ) (bytes : Bytes) (h : pair ∈ (takePairs n bytes).1.getLast?) :
    8 + pair.1.length + pair.2.length + (takePairs n bytes).2.length ≤ bytes.length := by
  induction n generalizing bytes with
  | zero => cases h
  | succ n ih =>
    rw [takePairs] at h ⊢
    cases hpair : takePair bytes with
    | none => simp [hpair] at h
    | some found =>
      have hlength := length_of_takePair hpair
      simp only [hpair] at h ⊢
      cases hmore : (takePairs n found.2).1 with
      | nil =>
        have hrest := length_takePairs_le n found.2
        rw [hmore, getLast?_singleton, mem_some_iff] at h
        subst h
        omega
      | cons next pairs =>
        rw [hmore, getLast?_cons_cons, ← hmore] at h
        have hlast := ih found.2 h
        omega

theorem takePairs_of_nil {n : ℕ} (h : (takePairs n bytes).1 = []) : (takePairs n bytes).2 = bytes := by
  cases n with
  | zero => rfl
  | succ n =>
    rw [takePairs] at h ⊢
    cases hpair : takePair bytes with
    | none => rfl
    | some found => simp [hpair] at h

theorem pairsFit_cons_iff {size n : ℕ} {rest : Bytes} (hpair : takePair bytes = some (pair, rest)) :
    PairsFit size (pair :: (takePairs n rest).1) (takePairs n rest).2 ↔
      9 < bytes.length ∧ PairsFit size (takePairs n rest).1 (takePairs n rest).2 := by
  have hlength := length_of_takePair hpair
  cases hmore : (takePairs n rest).1 with
  | nil =>
    rw [takePairs_of_nil hmore]
    constructor
    · rintro ⟨hrest, hlast, hwrap⟩
      refine ⟨?_, hrest, by simp, hwrap⟩
      rw [hlength]
      exact hlast pair rfl
    · rintro ⟨hlong, hrest, -, hwrap⟩
      refine ⟨hrest, ?_, hwrap⟩
      intro last hlast
      rw [getLast?_singleton, mem_some_iff] at hlast
      subst hlast
      rwa [← hlength]
  | cons next pairs =>
    have hsame : (pair :: next :: pairs).getLast? = (next :: pairs).getLast? :=
      getLast?_cons_cons ..
    constructor
    · rintro ⟨hrest, hlast, hwrap⟩
      rw [hsame] at hlast
      refine ⟨?_, hrest, hlast, hwrap⟩
      obtain ⟨last, hmem⟩ : ∃ last, (next :: pairs).getLast? = some last :=
        isSome_iff_exists.mp (by simp)
      have hfits := hlast last hmem
      have hle := last_takePairs_le n rest (hmore ▸ hmem)
      omega
    · rintro ⟨-, hrest, hlast, hwrap⟩
      exact ⟨hrest, hsame ▸ hlast, hwrap⟩

theorem processes_iff (hsize : body.length < 2 ^ 32) {n : ℕ} (hpos : s.pos ≤ body.length)
    (hn : body.length - s.pos ≤ n) :
    Processes body s (takePairs n (body.drop s.pos)).1 ↔
      PairsFit body.length (takePairs n (body.drop s.pos)).1 (takePairs n (body.drop s.pos)).2 := by
  induction n generalizing s with
  | zero => exact processes_nil_iff hsize hpos
  | succ n ih =>
    rw [takePairs]
    cases hpair : takePair (body.drop s.pos) with
    | none => exact processes_nil_iff hsize hpos
    | some found =>
      simp only
      rw [pairsFit_cons_iff hpair, length_drop]
      have hlength := length_of_takePair hpair
      have hle := length_takePairs_le n found.2
      rw [length_drop] at hlength
      by_cases hwrap : s.pos + 9 < 2 ^ 32
      · by_cases hlong : 9 < body.length - s.pos
        · have hgoes : u32 (s.pos + 9) < body.length := by
            rw [u32_of_lt hwrap]
            omega
          obtain ⟨s', hpos', hrest, hprocesses⟩ := processes_cons hsize hpos hgoes hpair
          have hlength' := congrArg length hrest
          rw [length_drop] at hlength'
          have hih := ih hpos' (by omega)
          rw [hrest] at hih
          rw [hprocesses, hih]
          exact (and_iff_right hlong).symm
        · have hstops : ¬ u32 (s.pos + 9) < body.length := by
            rw [u32_of_lt hwrap]
            omega
          exact iff_of_false (not_processes_of_stop hstops) fun h => hlong h.1
      · refine iff_of_false ?_ ?_
        · rintro ⟨fuel, calls, hrun, -⟩
          rw [run_of_wrap hsize hpos (by omega)] at hrun
          cases hrun
        rintro ⟨-, -, -, hnowrap⟩
        omega

end Pairs

theorem processSftpVersion_eq_some_iff {body : Bytes} (hheader : 4 ≤ body.length) {fuel version : ℕ}
    {calls : List (SshString × SshString)} :
    processSftpVersion fuel body = some (.ok (version, calls)) ↔
      version = u8 (getUint32 body) ∧
        run (processVersionPass body) fuel ⟨4, []⟩ = some (.ok calls) := by
  have hload : Buffer.load body 0 4 = some (body.take 4) :=
    Buffer.load_of_le (by omega)
  rw [processSftpVersion, hload]
  simp only [getUint32_take (Nat.le_refl 4)]
  cases run (processVersionPass body) fuel ⟨4, []⟩ with
  | none => simp
  | some result =>
    cases result with
    | error fault => simp [Except.map]
    | ok found => simp [Except.map, eq_comm]

theorem versionProcessed_iff_processes {body : Bytes} (hheader : 4 ≤ body.length) :
    VersionProcessed body ↔
      getUint32 body < 2 ^ 8 ∧ Processes body ⟨4, []⟩ (versionPairs body).1 := by
  constructor
  · rintro ⟨fuel, calls, hresult, hcalls⟩
    obtain ⟨hversion, hrun⟩ := (processSftpVersion_eq_some_iff hheader).mp hresult
    refine ⟨?_, fuel, calls, hrun, hcalls⟩
    rw [hversion]
    exact Nat.mod_lt _ (by decide)
  · rintro ⟨hversion, fuel, calls, hrun, hcalls⟩
    refine ⟨fuel, calls, ?_, hcalls⟩
    rw [processSftpVersion_eq_some_iff hheader, u8_of_lt hversion]
    exact ⟨rfl, hrun⟩

/-- A version message is processed as it should be exactly when it fits. -/
theorem versionProcessed_iff (body : Bytes) (hsize : body.length < 2 ^ 32) :
    VersionProcessed body ↔ VersionFits body := by
  by_cases hheader : 4 ≤ body.length
  · have hprocesses := processes_iff (s := ⟨4, []⟩) hsize hheader (Nat.sub_le _ _)
    rw [versionProcessed_iff_processes hheader, versionPairs, hprocesses]
    constructor
    · rintro ⟨hversion, hfits⟩
      exact ⟨hheader, hversion, hfits⟩
    · rintro ⟨-, hversion, hfits⟩
      exact ⟨hversion, hfits⟩
  · refine iff_of_false ?_ fun h => hheader h.header
    rintro ⟨fuel, calls, hresult, -⟩
    have hload : Buffer.load body 0 4 = none := if_neg (by omega)
    rw [processSftpVersion, hload] at hresult
    cases hresult

/-- Version 6 with the pair of the name `a` and the data `b`. -/
theorem versionProcessed_pair :
    VersionProcessed (storeUint32 6 ++ sshString [97] ++ sshString [98]) := by
  refine (versionProcessed_iff _ (by decide +kernel)).mpr ⟨by decide, by decide, ?_, ?_, ?_⟩
  · decide
  · decide
  · decide +kernel

/-- A length that does not fit keeps the loop going for ever, a last pair of empty strings is left
out, and of the version 262 only the last byte is set. -/
theorem version_not_processed :
    ¬ VersionProcessed (storeUint32 6 ++ storeUint32 100 ++ [0, 0, 0, 0, 0, 0]) ∧
      ¬ VersionProcessed (storeUint32 6 ++ sshString [] ++ sshString []) ∧
      ¬ VersionProcessed (storeUint32 262) := by
  refine ⟨?_, ?_, ?_⟩
  · rw [versionProcessed_iff_processes (by decide)]
    rintro ⟨-, hprocesses⟩
    have hshort := ((processes_nil_iff (by decide +kernel) (by decide)).mp hprocesses).1
    exact absurd hshort (by decide)
  · rw [versionProcessed_iff_processes (by decide)]
    rintro ⟨-, hprocesses⟩
    exact not_processes_of_stop (by decide +kernel) hprocesses
  · rw [versionProcessed_iff_processes (by decide)]
    rintro ⟨hversion, -⟩
    exact absurd hversion (by decide)

end Osns
