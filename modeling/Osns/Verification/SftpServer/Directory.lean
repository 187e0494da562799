import Mathlib.Data.List.TakeWhile
import Osns.Model.SftpServer.Directory
import Osns.Verification.SftpServer.Attributes
import Osns.Verification.SftpServer.Replies

/-! Requests to read a directory are answered, but with the end of the directory only. -/

namespace Osns

open List

/-! ## The names of a directory -/

def Dirent.text (d : Dirent) : Bytes := d.name.takeWhile (· ≠ 0)

def Dirent.path (d : Dirent) : FsPath := { size := d.text.length, bytes := d.text }

/-- A reply with these names. What stands behind each of them, its attributes and in version 3 a long
name, is left open; the byte for the end may be there in the last one. -/
def IsNames (id : UInt32) (names : List Bytes) (last : Bool) (reply : Bytes) : Prop :=
  ∃ (tails : List Bytes) (eof : Bool), tails.length = names.length ∧ (eof = true → last = true) ∧
    reply = requestMessage 104 id.toNat (storeUint32 names.length
      ++ (zipWith (fun name tail => storeUint32 name.length ++ name ++ tail) names tails).flatten
      ++ if eof then [1] else [])

def IsEof (id : UInt32) (reply : Bytes) : Prop :=
  ∃ text, reply = requestMessage 101 id.toNat (storeUint32 sshFxEof ++ text)

/-- The replies to requests with these ids: one for each part of the names, and then the end. -/
def Lists : List (List Bytes) → List UInt32 → List Bytes → Prop
  | _, [], [] => True
  | [], id :: ids, reply :: replies => IsEof id reply ∧ Lists [] ids replies
  | part :: parts, id :: ids, reply :: replies =>
    IsNames id part parts.isEmpty reply ∧ Lists parts ids replies
  | _, _, _ => False

section

variable (version : SftpVersion) (mapping : IdMapping) (statat : Bytes → Except ℕ SystemStat)
  (ignored : SystemStat → FsPath → Bool)

/-- The replies to READDIR requests with these ids, one after the other. -/
def readdirReplies : OpenDirectory → List UInt32 → Except ServerFault (List Bytes)
  | _, [] => .ok []
  | directory, id :: ids => do
    let answer ← readdirDirectory version mapping statat ignored id directory
    let replies ← readdirReplies answer.2 ids
    return answer.1 :: replies

def listed (d : Dirent) : Bool :=
  match statat d.text with
  | .ok stat => !ignored stat d.path
  | .error _ => false

/-- The names that the client is to get, when `getdents64` gives the entries in these batches. -/
def listedNames (batches : List (List Dirent)) : List Bytes :=
  (batches.flatten.filter (listed statat ignored)).map Dirent.text

/-- Every sequence of READDIR requests is answered, with all names in order and then with the end. -/
def ReaddirComplete (batches : List (List Dirent)) : Prop :=
  ∃ parts : List (List Bytes), [] ∉ parts ∧ parts.flatten = listedNames statat ignored batches ∧
    ∀ ids, ∃ replies,
      readdirReplies version mapping statat ignored (openDirectory (batches.map some)) ids = .ok replies
        ∧ Lists parts ids replies

end

/-! ## One request -/

variable {version : SftpVersion} {mapping : IdMapping} {statat : Bytes → Except ℕ SystemStat}
  {ignored : SystemStat → FsPath → Bool} {s : ReaddirState} {socket : DirSocket}
  {directory : OpenDirectory}

theorem fsSocketFgetstatat_assignBuffer (size : ℕ) :
    fsSocketFgetstatat statat (fsPathAssignBuffer size) = .error 1 := rfl

theorem readDentry_true (h : (readDentry socket).1 = true) :
    (readDentry socket).2.dirent ≠ none ∧ (readDentry socket).2.left < socket.left := by
  obtain ⟨dirent, buffered, batches⟩ := socket
  cases buffered with
  | cons d rest => simp [readDentry, DirSocket.left]
  | nil =>
    cases batches with
    | nil => cases h
    | cons batch batches =>
      cases batch with
      | none => cases h
      | some records =>
        cases records with
        | nil => cases h
        | cons d rest => simp [readDentry, DirSocket.left]

/-- The state of a request that has found nothing to send. -/
structure ReaddirState.Silent (s : ReaddirState) : Prop where
  dirent : s.socket.dirent ≠ none
  eod : s.eod = false
  names : s.names = []

theorem readdirPass_silent (hs : s.Silent) :
    readdirPass version mapping statat ignored s = readdirNext s := by
  obtain ⟨d, hd⟩ := Option.ne_none_iff_exists'.mp hs.dirent
  rw [readdirPass, if_pos ⟨by rw [hs.names]; decide, hs.eod⟩, hd]
  simp [fsSocketFgetstatat_assignBuffer]

theorem readdirNext_cases (s : ReaddirState) :
    ((readDentry s.socket).1 = true ∧ readdirNext s = .next { s with socket := (readDentry s.socket).2 })
      ∨ readdirNext s = .done (.ok { s with socket := (readDentry s.socket).2, eod := true }) := by
  cases hread : (readDentry s.socket).1 with
  | true => exact .inl ⟨rfl, by simp [readdirNext, hread]⟩
  | false => exact .inr (by simp [readdirNext, hread])

theorem readdirLoop_silent (hs : s.Silent) :
    ∃ t, readdirLoop version mapping statat ignored s = .ok t ∧ t.eod = true ∧ t.names = [] := by
  have hpass : ∀ s : ReaddirState, s.Silent →
      (readdirPass version mapping statat ignored s).Leads
        (fun s' => s'.Silent ∧ s'.socket.left < s.socket.left)
        fun r => ∃ t, r = .ok t ∧ t.eod = true ∧ t.names = [] := by
    intro s hs
    rw [readdirPass_silent hs]
    rcases readdirNext_cases s with ⟨hread, hpass⟩ | hpass
    · rw [hpass]
      obtain ⟨hdirent, hleft⟩ := readDentry_true hread
      exact ⟨⟨hdirent, hs.eod, hs.names⟩, hleft⟩
    · rw [hpass]
      exact ⟨_, rfl, rfl, hs.names⟩
  have hfuel : s.socket.left < s.socket.left + 2 := by omega
  obtain ⟨r, hrun, t, rfl, ht⟩ := Loop.run_spec (fun s => s.socket.left) hpass hs hfuel
  refine ⟨t, ?_, ht⟩
  rw [readdirLoop, hrun]
  rfl

/-- There is a current record as long as the end has not been reached. -/
def OpenDirectory.Ready (directory : OpenDirectory) : Prop :=
  directory.eod = false → directory.socket.dirent ≠ none

theorem ready_openDirectory (batches : List (Option (List Dirent))) :
    (openDirectory batches).Ready := by
  intro heod
  apply (readDentry_true _).1
  simpa [openDirectory] using heod

theorem readdirDirectory_eq (hd : directory.Ready) (id : UInt32) :
    ∃ directory', readdirDirectory version mapping statat ignored id directory
      = .ok (statusMessage id sshFxEof, directory') ∧ directory'.Ready := by
  cases heod : directory.eod with
  | true =>
    refine ⟨directory, ?_, hd⟩
    rw [readdirDirectory, if_pos heod, replySftpStatusSimple_eq]
    rfl
  | false =>
    have hs : ReaddirState.Silent ⟨directory.socket, false, [], 0⟩ := ⟨hd heod, rfl, rfl⟩
    obtain ⟨t, hloop, hend, hnames⟩ : ∃ t, readdirLoop version mapping statat ignored _ = .ok t ∧
      t.eod = true ∧ t.names = [] := readdirLoop_silent hs
    refine ⟨⟨t.socket, t.eod⟩, ?_, fun h => ?_⟩
    · rw [readdirDirectory, if_neg (by simp [heod]), hloop, Result.ok_bind, replyReaddir,
        if_pos ⟨hend, by rw [hnames]; rfl⟩, replySftpStatusSimple_eq]
      rfl
    · cases hend.symm.trans h

/-! ## Successive requests -/

theorem readdirReplies_eq (hd : directory.Ready) (ids : List UInt32) :
    readdirReplies version mapping statat ignored directory ids =
      .ok (ids.map (statusMessage · sshFxEof)) := by
  induction ids generalizing directory with
  | nil => rfl
  | cons id ids ih =>
    obtain ⟨directory', hreply, hd'⟩ := readdirDirectory_eq hd id
    rw [readdirReplies, hreply, Result.ok_bind, ih hd']
    rfl

theorem lists_nil (ids : List UInt32) : Lists [] ids (ids.map (statusMessage · sshFxEof)) := by
  induction ids with
  | nil => trivial
  | cons id ids ih => exact ⟨⟨_, rfl⟩, ih⟩

theorem requestMessage_type (type : UInt8) (id : ℕ) (body : Bytes) :
    (requestMessage type id body)[4]? = some type := rfl

theorem listedNames_of_complete {batches : List (List Dirent)}
    (h : ReaddirComplete version mapping statat ignored batches) :
    listedNames statat ignored batches = [] := by
  obtain ⟨parts, -, hparts, hreplies⟩ := h
  obtain ⟨replies, hrun, hlists⟩ := hreplies [0]
  rw [readdirReplies_eq (ready_openDirectory _)] at hrun
  cases hrun
  cases parts with
  | nil => exact hparts.symm
  | cons part parts =>
    obtain ⟨⟨tails, eof, -, -, hreply⟩, -⟩ := hlists
    have htype := congrArg (fun reply : Bytes => reply[4]?) hreply
    simp only [statusMessage, requestMessage_type] at htype
    exact absurd htype (by decide)

/-- The requests are answered as they should be exactly when there is no name to send. -/
theorem readdirComplete_iff (version : SftpVersion) (mapping : IdMapping)
    (statat : Bytes → Except ℕ SystemStat) (ignored : SystemStat → FsPath → Bool)
    (batches : List (List Dirent)) :
    ReaddirComplete version mapping statat ignored batches ↔
      listedNames statat ignored batches = [] := by
  refine ⟨listedNames_of_complete, fun h => ⟨[], not_mem_nil, h.symm, fun ids => ?_⟩⟩
  exact ⟨_, readdirReplies_eq (ready_openDirectory _) ids, lists_nil ids⟩

/-- A directory with the one entry `a` is sent without it. -/
theorem entry_not_sent :
    ¬ ReaddirComplete .v06 ⟨0, 0⟩ (fun _ => .ok emptyFile) (fun _ _ => false) [[⟨[97, 0, 0, 0, 0]⟩]] := by
  intro h
  exact absurd (listedNames_of_complete h) (by decide)

/-! ## The records one by one -/

/-- What `get_dentry` gives behind each of so many calls of `read_dentry`. Only the last call fails. -/
def dentries : ℕ → DirSocket → Option (List (ℕ × Bytes))
  | 0, _ => none
  | calls + 1, s => do
    let next := readDentry s
    if next.1 then return (← getDentry next.2) :: (← dentries calls next.2)
    else if calls = 0 then some [] else none

/-- Every record comes once and in order, with the length of its name, and then the end. -/
def DentriesRight (batches : List (List Dirent)) : Prop :=
  dentries (batches.flatten.length + 1) ⟨none, [], batches.map some⟩
    = some (batches.flatten.map fun d => (d.text.length, d.name))

/-- The records that are still to come. -/
def DirSocket.Pending (socket : DirSocket) (records : List Dirent) : Prop :=
  ∃ batches : List (List Dirent), [] ∉ batches ∧ socket.batches = batches.map some ∧
    socket.buffered ++ batches.flatten = records

variable {records : List Dirent} {batches : List (List Dirent)}

theorem DirSocket.Pending.next {d : Dirent} (h : socket.Pending (d :: records)) :
    ∃ socket', readDentry socket = (true, socket') ∧ socket'.dirent = some d ∧
      socket'.Pending records := by
  obtain ⟨dirent, buffered, _⟩ := socket
  obtain ⟨batches, hne, rfl, h⟩ := h
  cases buffered with
  | cons first buffered =>
    cases h
    exact ⟨_, rfl, rfl, batches, hne, rfl, rfl⟩
  | nil =>
    cases batches with
    | nil => cases h
    | cons batch batches =>
      rw [mem_cons, not_or] at hne
      cases batch with
      | nil => exact absurd rfl hne.1
      | cons first batch =>
        cases h
        exact ⟨_, rfl, rfl, batches, hne.2, rfl, rfl⟩

theorem DirSocket.Pending.last (h : socket.Pending []) : (readDentry socket).1 = false := by
  obtain ⟨dirent, buffered, _⟩ := socket
  obtain ⟨batches, hne, rfl, h⟩ := h
  obtain ⟨rfl, hflat⟩ := append_eq_nil_iff.mp h
  cases batches with
  | nil => rfl
  | cons batch batches =>
    rw [flatten_cons, append_eq_nil_iff] at hflat
    exact absurd (hflat.1 ▸ mem_cons_self) hne

theorem dentries_eq (h : socket.Pending records) :
    dentries (records.length + 1) socket = some (records.map copyDirent2Dentry) := by
  induction records generalizing socket with
  | nil => simp [dentries, h.last]
  | cons d records ih =>
    obtain ⟨socket', hread, hdirent, h'⟩ := h.next
    simp [dentries, hread, getDentry, hdirent, ih h']

/-- The padding and the zero count as bytes of a name. -/
theorem dentriesRight_iff (hne : [] ∉ batches) (hzero : ∀ d ∈ batches.flatten, 0 ∈ d.name) :
    DentriesRight batches ↔ batches = [] := by
  refine ⟨fun h => ?_, by rintro rfl; rfl⟩
  have hmap : some (batches.flatten.map copyDirent2Dentry) = _ :=
    (dentries_eq ⟨batches, hne, rfl, rfl⟩).symm.trans h
  rw [Option.some.injEq, map_inj_left] at hmap
  have hnone : ∀ d, d ∉ batches.flatten := by
    intro d hd
    have hlen : d.reclen - 18 - 1 = d.text.length := congrArg Prod.fst (hmap d hd)
    have hlen : d.text.length = d.name.length := by
      rw [Dirent.reclen] at hlen
      omega
    have hfront : d.text <+: d.name := takeWhile_prefix _
    have hall := hfront.eq_of_length hlen
    have htext : 0 ∈ d.text := hall ▸ hzero d hd
    simpa using mem_takeWhile_imp htext
  cases batches with
  | nil => rfl
  | cons batch batches =>
    cases batch with
    | nil => exact absurd mem_cons_self hne
    | cons d batch => exact absurd mem_cons_self (hnone d)

theorem dentriesRight_none : DentriesRight [] :=
  (dentriesRight_iff not_mem_nil (fun _ h => absurd h not_mem_nil)).mpr rfl

/-- The name of one character has the length five. -/
theorem dentry_padded :
    dentries 2 ⟨none, [], [some [⟨[97, 0, 0, 0, 0]⟩]]⟩ = some [(5, [97, 0, 0, 0, 0])] ∧
      ¬ DentriesRight [[⟨[97, 0, 0, 0, 0]⟩]] :=
  ⟨rfl, by rw [DentriesRight]; decide⟩

end Osns
