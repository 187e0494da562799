import Mathlib.Data.List.Destutter
import Osns.Verification.SftpServer.Paths

/-! The prefix of a client, and the paths that are used behind the request that sets it. -/

namespace Osns

open List Option Result

/-! ## Requests with a path -/

def firstString (bytes : Bytes) : Option Bytes :=
  if 4 + getUint32 bytes ≤ bytes.length then some ((bytes.drop 4).take (getUint32 bytes)) else none

section

variable (server : SftpServer) (type : UInt8) (data : Bytes)

def addressed : Option (SftpExtension × Bytes) :=
  match server.cb type with
  | .mapped ext => some (ext, data)
  | .extension => (firstString data).bind fun name =>
    (findEnabled server.extensionMask name).map fun ext => (ext, data.drop (4 + name.length))
  | _ => none

def pathField : Option Bytes :=
  match server.cb type with
  | .operation op => if op.hasPath then some data else none
  | _ => (addressed server type data).bind fun ext => if ext.1.hasPath then some ext.2 else none

def sentPath : Option Bytes := (pathField server type data).bind firstString

end

/-! ## Paths with a prefix -/

variable (path : Bytes)

def startsWithSlash : Bool := path.head? == some slash

def joinPath (directory path : Bytes) : Bytes := directory ++ slash :: path

def prefixDirectory (home p : Bytes) : Bytes := if startsWithSlash p then p else joinPath home p

/-- What the system is to see of a path `q` behind a request with the prefix `p`. -/
def prefixedPath (home p q : Bytes) : Bytes :=
  systemPath (joinPath (if startsWithSlash q then prefixDirectory home p else home) q) []

def squeeze : Bytes := path.destutter fun a b => ¬ (a = slash ∧ b = slash)

/-! ## Runs -/

/-- A request, and the system while it is served. -/
structure ServerRequest where
  type : UInt8
  id : UInt32
  data : Bytes
  host : Host

/-- The server, and the prefix of the last request for one that has been answered with OK. -/
structure PrefixState where
  server : SftpServer
  declared : Option Bytes

def PrefixState.init (unique : UInt32) (home : Bytes) (mapping : IdMapping) : PrefixState where
  server := initSftpSubsystem unique home mapping
  declared := none

def ServerRequest.declares (r : ServerRequest) (server : SftpServer) (reaction : Reaction) : Bool :=
  (addressed server r.type r.data).map Prod.fst == some .setPrefix &&
    reaction.replies == [statusMessage r.id sshFxOk]

section

variable (s : PrefixState) (r : ServerRequest)

def prefixStep : Option PrefixState :=
  (serve s.server r.host r.type r.id r.data).toOption.map fun reaction =>
    { server := reaction.server
      declared :=
        if r.declares s.server reaction then sentPath s.server r.type r.data else s.declared }

/-- Behind a request for the prefix `p` the file system is used at no other path than the one for the
path in the request. -/
def Prefixed : Prop :=
  ∀ p, s.declared = some p →
    UsesOnly (fun u => (sentPath s.server r.type r.data).any fun q =>
      squeeze u == squeeze (prefixedPath s.server.home p q)) r.host
      fun host => serve s.server host r.type r.id r.data

/-- Lengths of paths do not wrap around, and behind a request for a prefix there is a zero or nothing
behind a path in memory, and a path with a slash at its front is only sent when the prefix is the root. -/
def Harmless : Prop :=
  (∀ rest ∈ pathField s.server r.type r.data,
    2 * getUint32 rest + s.server.home.length + 128 < 2 ^ 32) ∧
  ∀ p ∈ s.declared, r.host.behind.headD 0 = 0 ∧
    ∀ q ∈ sentPath s.server r.type r.data, startsWithSlash q = true →
      (prefixDirectory s.server.home p).all (· == slash) = true

instance (s : PrefixState) (r : ServerRequest) : Decidable (Harmless s r) :=
  inferInstanceAs (Decidable (_ ∧ _))

/-! ## Slashes -/

end

variable {server : SftpServer} {host : Host} {id : UInt32} {type : UInt8} {data rest p q : Bytes}
  {pre : SftpPrefix} {home : Bytes}

theorem squeeze_slash_slash : squeeze (slash :: slash :: path) = squeeze (slash :: path) := by
  rw [squeeze, squeeze, destutter_cons', destutter_cons', destutter'_cons_neg]
  simp

theorem squeeze_slashes {slashes : Bytes} (h : ∀ b ∈ slashes, b = slash) (path : Bytes) :
    squeeze (slashes ++ slash :: path) = squeeze (slash :: path) := by
  induction slashes with
  | nil => rfl
  | cons b slashes ih =>
    rw [forall_mem_cons] at h
    obtain ⟨rfl, h⟩ := h
    have hfront : ∃ tail, slashes ++ slash :: path = slash :: tail := by
      cases slashes with
      | nil => exact ⟨path, rfl⟩
      | cons b slashes => exact ⟨slashes ++ slash :: path, by rw [h b mem_cons_self]; rfl⟩
    obtain ⟨tail, htail⟩ := hfront
    have hrest := ih h
    rw [htail] at hrest
    rw [cons_append, htail, squeeze_slash_slash, hrest]

def localPath (home q : Bytes) : Bytes := if startsWithSlash q then q else joinPath home q

theorem length_localPath_pos (home q : Bytes) : 0 < (localPath home q).length := by
  unfold localPath
  split
  case isTrue hq =>
    cases q with
    | nil => cases hq
    | cons b q => exact Nat.succ_pos _
  case isFalse =>
    rw [joinPath, length_append, length_cons]
    omega

theorem squeeze_localPath
    (h : startsWithSlash q = true → (prefixDirectory home p).all (· == slash) = true) :
    squeeze (systemPath (localPath home q) []) = squeeze (prefixedPath home p q) := by
  unfold localPath prefixedPath
  by_cases hq : startsWithSlash q = true
  · have hslashes : ∀ b ∈ prefixDirectory home p, b = slash := by
      intro b hb
      exact eq_of_beq (all_eq_true.mp (h hq) b hb)
    rw [if_pos hq, if_pos hq]
    cases q with
    | nil => cases hq
    | cons b q =>
      obtain rfl : b = slash := by simpa [startsWithSlash] using hq
      have hsystem : systemPath (joinPath (prefixDirectory home p) (slash :: q)) []
          = prefixDirectory home p ++ slash :: systemPath (slash :: q) [] := by
        have hne : ∀ b ∈ prefixDirectory home p ++ [slash], (decide (b ≠ 0)) = true := by
          refine forall_mem_append.mpr ⟨fun b hb => ?_, forall_mem_singleton.mpr (by decide)⟩
          rw [hslashes b hb]
          decide
        rw [systemPath, systemPath, joinPath, append_nil, append_nil,
          ← singleton_append, ← append_assoc, takeWhile_append_of_pos hne,
          append_assoc]
        rfl
      have hfirst : systemPath (slash :: q) [] = slash :: systemPath q [] := by
        rw [systemPath, cons_append, takeWhile_cons_of_pos (by decide)]
        rfl
      rw [hsystem, squeeze_slashes hslashes, hfirst, squeeze_slash_slash]
  · rw [if_neg hq, if_neg hq]

/-! ## The path that is completed -/

theorem isAbsolute_eq (q : Bytes) : isAbsolute q 0 q.length = .ok (startsWithSlash q) := by
  cases q with
  | nil => rfl
  | cons b q =>
    simp [isAbsolute, bodyByte, startsWithSlash]

variable {bytes : Bytes} {ext : SftpExtension}

theorem fsPathAppendRaw_eq {location : FsPath} {len : ℕ}
    (hsize : location.size < 2 ^ 32) (h : location.bytes.length + len < location.size) :
    fsPathAppendRaw location len (.ok bytes)
      = .ok { location with bytes := location.bytes ++ bytes } := by
  rw [fsPathAppendRaw, u32Sub_of_le hsize (by omega), if_neg (by omega)]
  rfl

theorem completePath_eq (hpre : pre.getLengthFullpath = .noPrefix)
    (hlt : q.length + home.length + 2 < 2 ^ 32) :
    ∃ path, completePath home pre q 0 q.length = .ok path ∧ path.bytes = localPath home q := by
  have hload : bodyLoad q 0 q.length = .ok q := by
    rw [bodyLoad_of_le (by omega), drop_zero, take_length]
  rw [completePath, isAbsolute_eq, ok_bind, hpre, localPath]
  by_cases hq : startsWithSlash q = true
  · simp only [if_pos hq, hload]
    rw [u32_of_lt (by omega), fsPathAssignBuffer, fsPathAppendRaw_eq]
    · exact ⟨_, rfl, nil_append _⟩
    · show q.length + 1 < 2 ^ 32
      omega
    · simp
  · simp only [if_neg hq, pathAppendShared, hload]
    rw [u32_of_lt (n := q.length + 1 + home.length) (by omega), u32_of_lt (by omega),
      fsPathAssignBuffer, fsPathAppendRaw_eq, ok_bind, fsPathAppendRaw_eq, ok_bind,
      fsPathAppendRaw_eq]
    · exact ⟨_, rfl, by simp [joinPath]⟩
    all_goals simp only [length_append, length_nil, length_cons]
    all_goals omega

theorem firstString_eq_some {s : Bytes} (h : firstString bytes = some s) :
    4 + getUint32 bytes ≤ bytes.length ∧ s = (bytes.drop 4).take (getUint32 bytes) ∧
      s.length = getUint32 bytes := by
  unfold firstString at h
  split at h
  case isFalse => cases h
  case isTrue hfit =>
    cases h
    refine ⟨hfit, rfl, ?_⟩
    rw [length_take, length_drop]
    omega

theorem firstString_of_le (h : 4 + getUint32 bytes ≤ bytes.length) :
    firstString bytes = some ((bytes.drop 4).take (getUint32 bytes)) := if_pos h

theorem completePath_field (hpre : pre.getLengthFullpath = .noPrefix)
    (hfit : 4 + getUint32 rest ≤ rest.length)
    (hlt : getUint32 rest + home.length + 2 < 2 ^ 32) :
    ∃ path, completePath home pre ((rest.drop 4).take (getUint32 rest)) 0 (getUint32 rest)
      = .ok path ∧ path.bytes = localPath home ((rest.drop 4).take (getUint32 rest)) := by
  obtain ⟨-, -, hlen⟩ := firstString_eq_some (firstString_of_le hfit)
  obtain ⟨path, hpath, hbytes⟩ : ∃ path, completePath home pre
    ((rest.drop 4).take (getUint32 rest)) 0 ((rest.drop 4).take (getUint32 rest)).length
      = .ok path ∧ path.bytes = localPath home ((rest.drop 4).take (getUint32 rest)) :=
        completePath_eq hpre (by omega)
  rw [hlen] at hpath
  exact ⟨path, hpath, hbytes⟩

theorem serve_cases (server : SftpServer) (type : UInt8) (data : Bytes) :
    (∃ op, server.cb type = .operation op ∧
      ∀ host id, serve server host type id data = sftpOp op server host id data) ∨
    (∃ status, addressed server type data = none ∧
      ∀ host id, serve server host type id data = answerStatus server [] id status) ∨
    ∃ ext front rest, addressed server type data = some (ext, rest) ∧ front.length < 64 ∧
      ∀ host id,
        serve server host type id data = cbExt ext server host id (front ++ rest) front.length := by
  unfold addressed serve
  cases server.cb type with
  | notsupported => exact .inr (.inl ⟨sshFxOpUnsupported, rfl, fun _ _ => rfl⟩)
  | operation op => exact .inl ⟨op, rfl, fun _ _ => rfl⟩
  | mapped ext => exact .inr (.inr ⟨ext, [], data, rfl, by decide, fun _ _ => rfl⟩)
  | extension =>
    simp only [reduceCtorEq, false_and, exists_false, false_or]
    by_cases hfit : 0 < getUint32 data ∧ 4 + getUint32 data ≤ data.length ∧
        4 + getUint32 data < 2 ^ 32
    · obtain ⟨hpos, hle, hwrap⟩ := hfit
      simp only [sftpOpExtension_eq hwrap, if_pos (And.intro hpos hle), firstString_of_le hle, bind_some]
      cases hfind : findEnabled server.extensionMask ((data.drop 4).take (getUint32 data)) with
      | none => exact .inl ⟨sshFxOpUnsupported, rfl, fun _ _ => rfl⟩
      | some ext =>
        obtain ⟨-, hext⟩ := findEnabled_eq_some hfind
        obtain ⟨-, -, hlen⟩ := firstString_eq_some (firstString_of_le hle)
        have hlt := (length_name ext).2
        rw [hext, hlen] at hlt
        refine .inr ⟨ext, data.take (4 + getUint32 data), data.drop (4 + getUint32 data),
          by simp [hlen], by rw [length_take]; omega, fun host id => ?_⟩
        rw [take_append_drop, length_take_of_le hle]
        rfl
    · -- the name of an extension is not empty, and short
      refine .inl ⟨sshFxBadMessage, ?_, fun host id => ?_⟩
      · simp only [bind_eq_none_iff, map_eq_none_iff]
        intro name hname
        rw [eq_none_iff_forall_ne_some]
        intro ext hfind
        obtain ⟨hle, -, hlen⟩ := firstString_eq_some hname
        obtain ⟨-, rfl⟩ := findEnabled_eq_some hfind
        have hlength := length_name ext
        omega
      · by_cases hwrap : 4 + getUint32 data < 2 ^ 32
        · rw [sftpOpExtension_eq hwrap, if_neg (by omega)]
        · exact sftpOpExtension_wrap (by omega)

/-! ## The prefix behind a request -/

theorem statStatus_ne_ok (errno : ℕ) : statStatus errno ≠ sshFxOk ∧ statStatus errno < 2 ^ 32 := by
  unfold statStatus
  split
  · decide
  · split
    · decide
    · split
      · decide
      · decide

/-- A request for a prefix changes nothing and is not answered with OK, or there is a prefix behind it.
The function `get_length_fullpath` stays the same. -/
theorem ensures_setPrefix {front : Bytes} (hpre : server.pre.getLengthFullpath = .noPrefix)
    (hfront : front.length < 64) (hwrap : 2 * getUint32 rest + server.home.length + 128 < 2 ^ 32) :
    Ensures (fun reaction => reaction.server.pre.getLengthFullpath = .noPrefix ∧
      (reaction.server = server ∧ reaction.replies ≠ [statusMessage id sshFxOk] ∨
        0 < reaction.server.pre.path.length))
      (cbExtSetPrefix server host id (front ++ rest) front.length) := by
  have hrefused : ∀ {calls : List FsCall} {status : ℕ}, status ≠ sshFxOk ∧ status < 2 ^ 32 →
      Ensures (fun reaction => reaction.server.pre.getLengthFullpath = .noPrefix ∧
        (reaction.server = server ∧ reaction.replies ≠ [statusMessage id sshFxOk] ∨
          0 < reaction.server.pre.path.length)) (answerStatus server calls id status) := by
    intro calls status hstatus
    rw [answerStatus_eq]
    refine ensures_ok ⟨hpre, .inl ⟨rfl, fun heq => ?_⟩⟩
    exact statusMessage_ne_ok hstatus.2 hstatus.1 (singleton_injective heq)
  by_cases hset : 0 < server.pre.path.length
  · rw [cbExtSetPrefix, if_pos hset]
    exact hrefused (by decide)
  · rw [cbExtSetPrefix_eq (by omega) hset fun _ => by omega]
    split
    case isFalse => exact hrefused (by decide)
    case isTrue hfit =>
      have hlt : getUint32 rest + server.home.length + 2 < 2 ^ 32 := by omega
      obtain ⟨path, hpath, hbytes⟩ := completePath_field hpre (by omega) hlt
      rw [hpath, ok_bind]
      simp only [setprefixPath]
      split
      · exact hrefused (statStatus_ne_ok _)
      · split
        · rw [answerStatus_eq]
          refine ensures_ok ⟨hpre, .inr ?_⟩
          rw [hbytes]
          exact length_localPath_pos _ _
        · exact hrefused (by decide)

theorem ensures_pre (hext : ext ≠ .setPrefix) {pos : ℕ} :
    Ensures (fun reaction => reaction.server.pre = server.pre)
      (cbExt ext server host id data pos) := by
  cases ext with
  | setPrefix => exact absurd rfl hext
  | statvfs => exact ensures_statvfs fun _ _ => rfl
  | fsync => exact ensures_fsync fun _ _ _ => rfl
  | fstatat => exact ensures_fstatat host fun _ => rfl
  | mapextension => exact ensures_mapextension (fun _ _ _ _ => rfl) host

/-! ## Runs -/

def PrefixState.Unused (s : PrefixState) : Prop :=
  s.server.pre.getLengthFullpath = .noPrefix ∧
    ∀ p, s.declared = some p → 0 < s.server.pre.path.length

variable {s s' : PrefixState} {r : ServerRequest}

theorem pathField_of_addressed
    (h : addressed server type data = some (ext, rest)) (hpath : ext.hasPath = true) :
    pathField server type data = some rest := by
  unfold pathField
  split
  case h_1 op hcb =>
    rw [addressed, hcb] at h
    cases h
  case h_2 => rw [h, bind_some, if_pos hpath]

theorem pathField_of_operation {op : SftpOperation} (hcb : server.cb type = .operation op)
    (hpath : op.hasPath = true) : pathField server type data = some data := by
  rw [pathField, hcb]
  exact if_pos hpath

theorem declares_eq_false {reaction : Reaction}
    (h : ∀ rest, addressed s.server r.type r.data ≠ some (.setPrefix, rest)) :
    r.declares s.server reaction = false := by
  unfold ServerRequest.declares
  cases haddressed : addressed s.server r.type r.data with
  | none => rfl
  | some found =>
    obtain ⟨ext, rest⟩ := found
    have hext : ext ≠ .setPrefix := fun heq => h rest (by rw [haddressed, heq])
    simp [hext]

theorem PrefixState.Unused.of_pre (hs : s.Unused) (hpre : s'.server.pre = s.server.pre)
    (hdeclared : s'.declared = s.declared) : s'.Unused := by
  rw [PrefixState.Unused, hdeclared, hpre]
  exact hs

/-- Only a request for a prefix changes it, and then it is declared. -/
theorem unused_step (hs : s.Unused) (hr : Harmless s r) (hstep : prefixStep s r = some s') :
    s'.Unused := by
  obtain ⟨reaction, hreaction, rfl⟩ := map_eq_some_iff.mp hstep
  rw [toOption_eq_some] at hreaction
  rcases serve_cases s.server r.type r.data with ⟨op, hcb, hserve⟩ | ⟨status, hnone, hserve⟩ |
    ⟨ext, front, rest, haddressed, hfront, hserve⟩
  · have hnone : addressed s.server r.type r.data = none := by rw [addressed, hcb]
    rw [hserve] at hreaction
    obtain ⟨handles, hserver, -⟩ := sftpOp_keeps _ _ _ _ _ _ hreaction
    have hpre : reaction.server.pre = s.server.pre := by rw [hserver]
    refine hs.of_pre hpre ?_
    rw [declares_eq_false fun rest => by rw [hnone]; simp]
    rfl
  · rw [hserve, answerStatus_eq] at hreaction
    cases hreaction
    refine hs.of_pre rfl ?_
    rw [declares_eq_false fun rest => by rw [hnone]; simp]
    rfl
  · rw [hserve] at hreaction
    by_cases hext : ext = .setPrefix
    · subst hext
      have hlt := hr.1 rest (pathField_of_addressed haddressed rfl)
      obtain ⟨hpre, hpath⟩ := ensures_setPrefix hs.1 hfront hlt reaction hreaction
      refine ⟨hpre, fun p hp => ?_⟩
      rcases hpath with ⟨hserver, hreplies⟩ | hpath
      · have hdeclares : r.declares s.server reaction = false := by
          simp [ServerRequest.declares, hreplies]
        rw [hdeclares] at hp
        rw [hserver]
        exact hs.2 p hp
      · exact hpath
    · refine hs.of_pre (ensures_pre hext reaction hreaction) ?_
      rw [declares_eq_false fun rest' => by rw [haddressed]; simp [hext]]
      rfl

theorem squeeze_completePath (hpre : server.pre.getLengthFullpath = .noPrefix)
    (hfield : pathField server type data = some rest)
    (hfit : 4 + getUint32 rest ≤ rest.length)
    (hlt : getUint32 rest + server.home.length + 2 < 2 ^ 32)
    (hslash : ∀ q ∈ sentPath server type data, startsWithSlash q = true →
      (prefixDirectory server.home p).all (· == slash) = true) {path : FsPath}
    (hpath : completePath server.home server.pre ((rest.drop 4).take (getUint32 rest)) 0
      (getUint32 rest) = .ok path) :
    ((sentPath server type data).any fun q =>
      squeeze (systemPath path.bytes []) == squeeze (prefixedPath server.home p q)) = true := by
  have hsent : sentPath server type data = some ((rest.drop 4).take (getUint32 rest)) := by
    rw [sentPath, hfield, bind_some, firstString_of_le hfit]
  obtain ⟨path', hpath', hbytes⟩ := completePath_field hpre hfit hlt
  cases hpath.symm.trans hpath'
  rw [hsent, any_some, hbytes, squeeze_localPath (hslash _ hsent), beq_self_eq_true]

theorem prefixed_of_unused (hs : s.Unused) (hr : Harmless s r) : Prefixed s r := by
  intro p hp
  obtain ⟨hpre, hset⟩ := hs
  obtain ⟨hshort, hdeclared⟩ := hr
  obtain ⟨hbehind, hslash⟩ := hdeclared p hp
  rcases serve_cases s.server r.type r.data with ⟨op, hcb, hserve⟩ | ⟨status, -, hserve⟩ |
    ⟨ext, front, rest, haddressed, hfront, hserve⟩
  · simp only [hserve]
    refine usesOnly_sftpOp op hbehind ?_ ?_
    · intro hpath
      have hlt := hshort _ (pathField_of_operation hcb hpath)
      omega
    · intro hpath hfit path hcomplete
      have hfield : pathField s.server r.type r.data = some r.data :=
        pathField_of_operation hcb hpath
      have hlt := hshort _ hfield
      rw [requestPath, completePath_take hfit] at hcomplete
      exact squeeze_completePath hpre hfield hfit (by omega) hslash hcomplete
  · simp only [hserve]
    exact usesOnly_refused
  · simp only [hserve]
    refine usesOnly_cbExt ext (hset p hp) (by omega) ?_ ?_
    · intro hpath
      have hlt := hshort _ (pathField_of_addressed haddressed hpath)
      omega
    · intro hpath hfit path hcomplete
      have hfield := pathField_of_addressed haddressed hpath
      have hlt := hshort _ hfield
      exact squeeze_completePath hpre hfield hfit (by omega) hslash hcomplete

/-- In a run without harm, the paths behind a request for a prefix are those with the prefix. -/
theorem prefixed_of_harmless (unique : UInt32) (home : Bytes) (mapping : IdMapping)
    (requests : List ServerRequest)
    (h : Transition.Along prefixStep Harmless (.init unique home mapping) requests) :
    Transition.Along prefixStep Prefixed (.init unique home mapping) requests :=
  Transition.along_of_invariant (fun _ _ _ => unused_step) (fun _ _ => prefixed_of_unused)
    ⟨rfl, fun p hp => by cases hp⟩ h

/-- A prefix is set once. -/
theorem pre_step (hset : 0 < s.server.pre.path.length) (hstep : prefixStep s r = some s') :
    s'.server.pre = s.server.pre := by
  obtain ⟨reaction, hreaction, rfl⟩ := map_eq_some_iff.mp hstep
  rw [toOption_eq_some] at hreaction
  rcases serve_cases s.server r.type r.data with ⟨op, -, hserve⟩ | ⟨status, -, hserve⟩ |
    ⟨ext, front, rest, -, -, hserve⟩ <;> rw [hserve] at hreaction
  · obtain ⟨handles, hserver, -⟩ := sftpOp_keeps _ _ _ _ _ _ hreaction
    rw [hserver]
  · rw [answerStatus_eq] at hreaction
    cases hreaction
    rfl
  · by_cases hext : ext = .setPrefix
    · rw [hext, cbExt, cbExtSetPrefix, if_pos hset, answerStatus_eq] at hreaction
      cases hreaction
      rfl
    · exact ensures_pre hext reaction hreaction

/-- A prefix that has been set stays as it is, whatever is requested from then on. -/
theorem prefix_set_once (s : PrefixState) (requests : List ServerRequest) :
    Transition.Along prefixStep
      (fun s' _ => 0 < s.server.pre.path.length → s'.server.pre = s.server.pre) s requests := by
  refine Transition.along_of_preserves (fun s₁ r s₂ h hstep hset => ?_) (fun _ _ h => h) fun _ => rfl
  have hpre := h hset
  rw [← hpre] at hset
  exact (pre_step hset hstep).trans hpre

/-! ## A path without the prefix -/

def directoryHost : Host :=
  { failingHost with
    getstat := fun u => if u = path then .ok { emptyFile with mode := 0o040755 } else .error eNOENT }

/-- A request for the prefix `p`, with more behind the flags for the length that is added twice. -/
def setprefixRequest (p : Bytes) : ServerRequest where
  type := 200
  id := 1
  data := sshString SftpExtension.setPrefix.name ++ (sshString p ++ replicate (8 + p.length) 0)
  host := directoryHost p

def lstatRequest (q : Bytes) : ServerRequest where
  type := 7
  id := 2
  data := sshString q ++ [0, 0, 0, 0]
  host := failingHost

/-- With the root as prefix, paths of both kinds are used with the prefix. -/
theorem prefixed_root :
    (prefixStep (.init 0 [slash] { uid := 0, gid := 0 }) (setprefixRequest [slash])).map
      PrefixState.declared = some (some [slash]) ∧
    Transition.Along prefixStep Prefixed (.init 0 [slash] { uid := 0, gid := 0 })
      [setprefixRequest [slash], lstatRequest [slash, 0x71], lstatRequest [0x71]] :=
  ⟨by decide, prefixed_of_harmless _ _ _ _ (by decide)⟩

/-- The status of `/q` is asked for behind a request for the prefix `/p`. -/
theorem absolute_path_unprefixed :
    ¬ Transition.Along prefixStep Prefixed (.init 0 [slash] { uid := 0, gid := 0 })
      [setprefixRequest [slash, 0x70], lstatRequest [slash, 0x71]] := by
  intro h
  have hprefixed := (h.2 _ rfl).1 [slash, 0x70] rfl
  have hcalls := hprefixed.calls _ rfl (.getlstat [slash, 0x71]) mem_cons_self _ rfl
  exact absurd hcalls (by decide)

end Osns
