import Osns.Verification.SftpServer.Answers
import Osns.Verification.SftpServer.Extensions

/-! The paths at which the file system is used for a request. -/

namespace Osns

open List Result

/-! ## Use of the file system -/

def Host.restrict (P : Bytes → Bool) (host : Host) : Host :=
  { host with
    getstat := fun u => if P u then host.getstat u else .error eNOENT
    getlstat := fun u => if P u then host.getlstat u else .error eNOENT
    openFile := fun u flags => P u && host.openFile u flags
    openDir := fun u => P u && host.openDir u
    getdents := fun u => if P u then host.getdents u else []
    mkdir := fun u mode => P u && host.mkdir u mode
    unlink := fun u => P u && host.unlink u
    rmdir := fun u => P u && host.rmdir u
    readlink := fun u size => if P u then host.readlink u size else .error eNOENT
    statvfs := fun u => if P u then host.statvfs u else none }

/-- Only paths in `P` are used: those of the calls that are reported, and, as a request may end in a
fault behind a call, what comes of it does not depend on any other path. -/
structure UsesOnly (P : Bytes → Bool) (host : Host) (f : Host → Except ServerFault Reaction) :
    Prop where
  calls : Ensures (fun reaction => CallsIn P reaction.calls) (f host)
  same : f (host.restrict P) = f host

variable {P : Bytes → Bool} {server : SftpServer} {host : Host} {id : UInt32} {data : Bytes}
  {calls : List FsCall} {least : ℕ} {path : FsPath}

theorem usesOnly_refused {status : ℕ} : UsesOnly P host fun _ => answerStatus server [] id status :=
  ⟨ensures_answer fun _ => callsIn_nil, rfl⟩

theorem usesOnly_bind {α : Type} {x : Except ServerFault α}
    {f : Host → α → Except ServerFault Reaction}
    (h : ∀ a, x = .ok a → UsesOnly P host fun host => f host a) :
    UsesOnly P host fun host => x >>= f host := by
  cases x with
  | error e => exact ⟨ensures_error, rfl⟩
  | ok a => exact h a rfl

/-! ## What the system finds at a path -/

theorem systemPath_behind {bytes behind : Bytes} (h : behind.headD 0 = 0) :
    systemPath bytes behind = systemPath bytes [] := by
  rw [systemPath, systemPath, append_nil, takeWhile_append]
  split
  case isFalse => rfl
  case isTrue hall =>
    have hbytes : bytes.takeWhile (· ≠ 0) = bytes := (takeWhile_sublist _).eq_of_length hall
    cases behind with
    | nil => rw [hbytes, takeWhile_nil, append_nil]
    | cons b behind =>
      obtain rfl : b = 0 := h
      rw [hbytes, takeWhile_cons_of_neg (by simp), append_nil]

section

variable {u : Bytes} (hu : P u = true)
include hu

theorem getstat_restrict : (host.restrict P).getstat u = host.getstat u := if_pos hu

theorem getlstat_restrict : (host.restrict P).getlstat u = host.getlstat u := if_pos hu

theorem getdents_restrict : (host.restrict P).getdents u = host.getdents u := if_pos hu

theorem statvfs_restrict : (host.restrict P).statvfs u = host.statvfs u := if_pos hu

theorem readlink_restrict : (host.restrict P).readlink u = host.readlink u :=
  funext fun _ => if_pos hu

end

theorem onPath_and (hu : P (systemPath path.bytes []) = true) (action : Bytes → Bool) :
    onPath path (fun u => P u && action u) = onPath path action := by
  simp [onPath, hu]

/-! ## Operations -/

theorem openExisting_restrict (hbehind : host.behind.headD 0 = 0)
    (hu : P (systemPath path.bytes []) = true) (flags : UInt32) :
    sftpOpOpenExisting server (host.restrict P) id path flags =
      sftpOpOpenExisting server host id path flags := by
  have hopen : onPath path (fun u => (host.restrict P).openFile u flags)
      = onPath path fun u => host.openFile u flags := onPath_and hu _
  have hbehind' : (host.restrict P).behind.headD 0 = 0 := hbehind
  simp [sftpOpOpenExisting, systemPath_behind hbehind, systemPath_behind hbehind',
    getstat_restrict hu, hopen]

theorem fsPathGetTargetUnixSymlink_congr {readlink readlink' : Bytes → ℕ → Except ℕ Bytes}
    (h : readlink (systemPath path.bytes []) = readlink' (systemPath path.bytes [])) :
    fsPathGetTargetUnixSymlink readlink path = fsPathGetTargetUnixSymlink readlink' path := by
  have hpass : readlinkPass readlink (systemPath path.bytes [])
      = readlinkPass readlink' (systemPath path.bytes []) := by
    funext size
    simp [readlinkPass, h]
  rw [fsPathGetTargetUnixSymlink, fsPathGetTargetUnixSymlink, hpass]

section

variable {next next' : FsPath → ℕ → ℕ → Except ServerFault Reaction}

theorem withPath_congr (hleast : 4 ≤ least ∧ least ≤ 12)
    (h : ∀ path, RequestedPath server data path → ∀ len pos, next path len pos = next' path len pos) :
    withPath server id data least (fun len pos =>
        completePath server.home server.pre data 4 len >>= fun path => next path len pos) =
      withPath server id data least fun len pos =>
        completePath server.home server.pre data 4 len >>= fun path => next' path len pos := by
  unfold withPath
  split
  case isFalse => rfl
  case isTrue hlen =>
    rw [bodyUint32_zero (by omega), ok_bind, ok_bind]
    split
    case isFalse => rfl
    case isTrue hfit =>
      exact bind_congr_ok fun path hpath => h path ⟨hpath, least, hleast.1, hleast.2, hfit⟩ _ _

end

/-- What an operation does not find at other paths makes no difference. -/
theorem sftpOp_restrict (op : SftpOperation) (hbehind : host.behind.headD 0 = 0)
    (hP : op.hasPath = true → ∀ path, RequestedPath server data path →
      P (systemPath path.bytes []) = true) :
    sftpOp op server (host.restrict P) id data = sftpOp op server host id data := by
  have hbehind' : (host.restrict P).behind.headD 0 = 0 := hbehind
  cases op with
  | close | read | write | fstat | readdir => rfl
  | openFile =>
    simp only [sftpOp, sftpOpOpen]
    refine withPath_congr (by decide) fun path hpath len pos => ?_
    simp [openExisting_restrict hbehind (hP rfl path hpath)]
  | opendir =>
    simp only [sftpOp, sftpOpOpendir]
    refine withPath_congr (by decide) fun path hpath len pos => ?_
    have hu := hP rfl path hpath
    have hopen : onPath path (host.restrict P).openDir = onPath path host.openDir := onPath_and hu _
    simp [sftpOpOpendirPath, getstat_restrict hu, getdents_restrict hu, hopen]
  | stat =>
    simp only [sftpOp, sftpOpStat, sftpOpStatGeneric]
    refine withPath_congr (by decide) fun path hpath len pos => ?_
    simp [systemPath_behind hbehind, systemPath_behind hbehind', getstat_restrict (hP rfl path hpath)]
  | lstat =>
    simp only [sftpOp, sftpOpLstat, sftpOpStatGeneric]
    refine withPath_congr (by decide) fun path hpath len pos => ?_
    simp [systemPath_behind hbehind, systemPath_behind hbehind', getlstat_restrict (hP rfl path hpath)]
  | mkdir =>
    simp only [sftpOp, sftpOpMkdir]
    refine withPath_congr (by decide) fun path hpath len pos => ?_
    have hmkdir (mode : ℕ) : onPath path (fun u => (host.restrict P).mkdir u mode)
        = onPath path fun u => host.mkdir u mode := onPath_and (hP rfl path hpath) _
    simp [hmkdir]
  | remove =>
    simp only [sftpOp, sftpOpRemove, sftpOpRemoveCommon]
    refine withPath_congr (by decide) fun path hpath len pos => ?_
    have hremove : onPath path (host.restrict P).unlink = onPath path host.unlink :=
      onPath_and (hP rfl path hpath) _
    simp [hremove]
  | rmdir =>
    simp only [sftpOp, sftpOpRmdir, sftpOpRemoveCommon]
    refine withPath_congr (by decide) fun path hpath len pos => ?_
    have hremove : onPath path (host.restrict P).rmdir = onPath path host.rmdir :=
      onPath_and (hP rfl path hpath) _
    simp [hremove]
  | readlink =>
    simp only [sftpOp, sftpOpReadlink]
    split
    case isFalse => rfl
    case isTrue hlen =>
      simp only [bodyUint32_zero hlen, ok_bind]
      refine bind_congr_ok fun _ _ => ?_
      split
      case isFalse => rfl
      case isTrue hfit =>
        refine bind_congr_ok fun path hpath => ?_
        have hu := hP rfl path ⟨hpath, 4, by decide, by decide, hfit⟩
        rw [fsPathGetTargetUnixSymlink_congr (readlink_restrict hu)]

theorem usesOnly_sftpOp (op : SftpOperation) (hbehind : host.behind.headD 0 = 0)
    (hwrap : op.hasPath = true → getUint32 data + 12 < 2 ^ 32)
    (hP : op.hasPath = true → 4 + getUint32 data ≤ data.length → ∀ path,
      requestPath server data = .ok path → P (systemPath path.bytes []) = true) :
    UsesOnly P host fun host => sftpOp op server host id data := by
  have hrequested (h : op.hasPath = true) (path : FsPath) (hpath : RequestedPath server data path) :
      P (systemPath path.bytes []) = true := by
    obtain ⟨hpath, least, hleast, hmost, hfit⟩ := hpath
    have hlt := hwrap h
    rw [u32_of_lt (by omega)] at hfit
    exact hP h (by omega) path hpath
  refine ⟨fun reaction hreaction => ?_, sftpOp_restrict op hbehind hrequested⟩
  refine (sftpOp_keepsIn op (fun h path hpath => ⟨?_, hrequested h path hpath⟩) reaction hreaction).2
  rw [systemPath_behind hbehind]
  exact hrequested h path hpath

/-! ## Extensions -/

def SftpExtension.hasPath : SftpExtension → Bool
  | .setPrefix | .statvfs => true
  | .fsync | .fstatat | .mapextension => false

section

variable {Q : Reaction → Prop} {pos : ℕ}

theorem ensures_fsync
    (h : ∀ calls bytes, (∀ call ∈ calls, call.path = none) → Q { calls, replies := [bytes], server }) :
    Ensures Q (cbExtFsync server host id data pos) := by
  have hrefused : ∀ bytes, Q { calls := [], replies := [bytes], server } :=
    fun bytes => h [] bytes fun _ hmem => absurd hmem not_mem_nil
  refine ensures_ite (fun _ => ensures_bind fun len _ => ?_) fun _ => ensures_answer hrefused
  refine ensures_ite (fun _ => ensures_bind fun found _ => ?_) fun _ => ensures_answer hrefused
  cases found with
  | none => exact ensures_answer hrefused
  | some handle =>
    refine ensures_answer fun bytes => h _ bytes ?_
    intro call hmem
    obtain rfl := mem_singleton.mp hmem
    rfl

theorem ensures_fstatat (host : Host) (h : ∀ bytes, Q { calls := [], replies := [bytes], server }) :
    Ensures Q (cbExtFstatat server host id data pos) := by
  refine ensures_ite (fun _ => ensures_bind fun len _ => ?_) fun _ => ensures_answer h
  refine ensures_ite (fun _ => ensures_bind fun found _ => ?_) fun _ => ensures_answer h
  cases found with
  | none => exact ensures_answer h
  | some handle =>
    refine ensures_bind fun pathLen _ => ensures_ite (fun _ => ?_) fun _ => ensures_answer h
    refine ensures_bind fun _ _ => ensures_bind fun _ _ => ensures_ite (fun _ => ensures_error) fun _ => ?_
    split
    · exact ensures_error
    · exact ensures_answer h

open Function in
/-- What `mapextension` does with the callbacks and the codes. -/
inductive SftpServer.Recodes (server : SftpServer) : (UInt8 → SftpCb) → (SftpExtension → UInt8) → Prop
  | none : server.Recodes server.cb server.code
  | map {ext c} (hext : server.code ext = 0) (hfree : findFreeSftpCode server = some c) :
    server.Recodes (update server.cb c (.mapped ext)) (update server.code ext c)
  | unmap {ext} (hext : server.code ext ≠ 0) :
    server.Recodes (update server.cb (server.code ext) .notsupported) (update server.code ext 0)

section

variable (h : ∀ cb code bytes, server.Recodes cb code →
  Q { calls := [], replies := [bytes], server := { server with cb, code } })
include h

theorem ensures_mapextensionAction {ext : SftpExtension} {action : UInt8} :
    Ensures Q (mapextensionAction server id ext action) := by
  have hanswer {cb code reply} (hcode : server.Recodes cb code) :
      Ensures Q (answer { server with cb, code } [] reply) :=
    ensures_answer fun bytes => h cb code bytes hcode
  refine ensures_ite (fun _ => ensures_ite (fun hext => ?_) fun _ => hanswer .none) fun _ => ensures_ite
    (fun _ => ensures_ite (fun _ => hanswer .none) fun hext => hanswer (.unmap hext)) fun _ => hanswer .none
  split
  case h_1 c hfree => exact hanswer (.map hext hfree)
  case h_2 => exact hanswer .none

theorem ensures_mapextension (host : Host) : Ensures Q (cbExtMapextension server host id data pos) := by
  have hrefused : ∀ bytes, Q { calls := [], replies := [bytes], server } :=
    fun bytes => h server.cb server.code bytes .none
  refine ensures_ite (fun _ => ensures_bind fun len _ => ?_) fun _ => ensures_answer hrefused
  refine ensures_ite (fun _ => ensures_bind fun found _ => ?_) fun _ => ensures_answer hrefused
  cases found with
  | none => exact ensures_answer hrefused
  | some ext => exact ensures_bind fun action _ => ensures_mapextensionAction h

end

theorem ensures_statvfs (h : ∀ calls bytes, Q { calls, replies := [bytes], server }) :
    Ensures Q (cbExtStatvfs server host id data pos) := by
  refine ensures_ite (fun _ => ensures_bind fun len _ => ?_) fun _ => ensures_answer (h _)
  refine ensures_ite (fun _ => ensures_bind fun path _ => ?_) fun _ => ensures_answer (h _)
  unfold statvfsPath
  simp only
  split
  · exact ensures_answer (h _)
  · exact ensures_answer (h _)

end

variable {front rest : Bytes}

theorem usesOnly_statvfs (hfront : front.length + 64 < 2 ^ 32)
    (hwrap : front.length + 4 + getUint32 rest < 2 ^ 32)
    (hP : 4 + getUint32 rest ≤ rest.length → ∀ path,
      completePath server.home server.pre ((rest.drop 4).take (getUint32 rest)) 0 (getUint32 rest)
        = .ok path → P (systemPath path.bytes []) = true) :
    UsesOnly P host fun host => cbExtStatvfs server host id (front ++ rest) front.length := by
  simp only [cbExtStatvfs_eq hfront fun _ => hwrap]
  by_cases hfit : 4 + getUint32 rest ≤ rest.length
  · simp only [if_pos hfit]
    apply usesOnly_bind
    intro path hpath
    have hu := hP hfit path hpath
    constructor
    · have hcalls : CallsIn P [.statvfs (systemPath path.bytes [])] :=
        callsIn_path hu rfl callsIn_nil
      simp only [statvfsPath]
      split
      · exact ensures_answer fun _ => hcalls
      · exact ensures_answer fun _ => hcalls
    · simp [statvfsPath, statvfs_restrict hu]
  · simp only [if_neg hfit]
    exact usesOnly_refused

theorem usesOnly_cbExt (ext : SftpExtension) (hset : 0 < server.pre.path.length)
    (hfront : front.length + 64 < 2 ^ 32)
    (hwrap : ext.hasPath = true → front.length + 4 + getUint32 rest < 2 ^ 32)
    (hP : ext.hasPath = true → 4 + getUint32 rest ≤ rest.length → ∀ path,
      completePath server.home server.pre ((rest.drop 4).take (getUint32 rest)) 0 (getUint32 rest)
        = .ok path → P (systemPath path.bytes []) = true) :
    UsesOnly P host fun host => cbExt ext server host id (front ++ rest) front.length := by
  cases ext with
  | setPrefix =>
    simp only [cbExt, cbExtSetPrefix, if_pos hset]
    exact usesOnly_refused
  | statvfs => exact usesOnly_statvfs hfront (hwrap rfl) (hP rfl)
  | fsync =>
    refine ⟨ensures_fsync fun calls _ hcalls call hmem u hu => ?_, rfl⟩
    rw [hcalls call hmem] at hu
    cases hu
  | fstatat => exact ⟨ensures_fstatat host fun _ => callsIn_nil, rfl⟩
  | mapextension => exact ⟨ensures_mapextension (fun _ _ _ _ => callsIn_nil) host, rfl⟩

end Osns
