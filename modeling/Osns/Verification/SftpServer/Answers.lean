import Osns.Verification.SftpServer.Requests

/-! What the operations do to the server and where they use the file system. -/

namespace Osns

open List Result

variable {server : SftpServer} {host : Host} {id : UInt32} {data : Bytes} {least : ℕ}
  {calls : List FsCall} {reply : Except ServerFault Bytes} {path : FsPath} {unique flags : UInt32}

/-! ## Handles that are ready -/

def HandleTable.ReadyBut (table : HandleTable) (handle : FsHandle) : Prop :=
  ∀ i, ∀ h ∈ table.rows i, h.Ready ∨ i = handle.row ∧ h.serial = handle.serial

variable {table : HandleTable} {handle : FsHandle}

theorem HandleTable.Ready.but (h : table.Ready) (handle : FsHandle) : table.ReadyBut handle :=
  fun i h' hmem => .inl (h i h' hmem)

theorem mem_rows_create {dev : ℕ} {ino : UInt64} {socket : FsSocket} {i : ℕ}
    (h : handle ∈ (sftpCreateFsHandle table unique dev ino socket).2.rows i) :
    handle ∈ table.rows i ∨ i = (sftpCreateFsHandle table unique dev ino socket).1.row ∧
      handle = (sftpCreateFsHandle table unique dev ino socket).1 := by
  simp only [sftpCreateFsHandle, Function.update_apply] at h
  split at h
  case isTrue hrow =>
    rcases mem_cons.mp h with rfl | hold
    · exact .inr ⟨hrow, rfl⟩
    · exact .inl (hrow ▸ hold)
  case isFalse => exact .inl h

theorem HandleTable.Ready.create (hready : table.Ready) (unique : UInt32) (dev : ℕ) (ino : UInt64)
    (socket : FsSocket) :
    (sftpCreateFsHandle table unique dev ino socket).2.ReadyBut
      (sftpCreateFsHandle table unique dev ino socket).1 := by
  intro i h hmem
  rcases mem_rows_create hmem with hold | ⟨hi, rfl⟩
  · exact .inl (hready i h hold)
  · exact .inr ⟨hi, rfl⟩

theorem HandleTable.Ready.createFile (hready : table.Ready) (unique : UInt32) (dev : ℕ)
    (ino : UInt64) : (sftpCreateFsHandle table unique dev ino .file).2.Ready := by
  intro i h hmem
  rcases mem_rows_create hmem with hold | ⟨-, rfl⟩
  · exact hready i h hold
  · intro socket hsocket
    cases hsocket

theorem HandleTable.ReadyBut.free (h : table.ReadyBut handle) :
    (freeFsHandle table handle).Ready := by
  intro i h' hmem
  simp only [freeFsHandle, Function.update_apply] at hmem
  split at hmem
  case isTrue =>
    obtain ⟨hmem, hserial⟩ := mem_filter.mp hmem
    rcases h _ h' hmem with hready | ⟨-, heq⟩
    · exact hready
    · simp [heq] at hserial
  case isFalse hrow =>
    rcases h i h' hmem with hready | ⟨hi, -⟩
    · exact hready
    · exact absurd hi hrow

theorem HandleTable.ReadyBut.set (h : table.ReadyBut handle) {handle' : FsHandle}
    (hrow : handle'.row = handle.row) (hserial : handle'.serial = handle.serial)
    (hready : handle'.Ready) : (setFsHandle table handle').Ready := by
  intro i h' hmem
  simp only [setFsHandle, Function.update_apply] at hmem
  split at hmem
  case isTrue =>
    obtain ⟨old, hold, rfl⟩ := mem_map.mp hmem
    split
    case isTrue => exact hready
    case isFalse hne =>
      rcases h _ old hold with hr | ⟨-, heq⟩
      · exact hr
      · rw [hserial, heq] at hne
        exact absurd (beq_self_eq_true _) hne
  case isFalse hi =>
    rcases h i h' hmem with hr | ⟨heq, -⟩
    · exact hr
    · exact absurd (heq.trans hrow.symm) hi

/-! ## Use of the file system -/

def CallsIn (P : Bytes → Bool) (calls : List FsCall) : Prop :=
  ∀ call ∈ calls, ∀ u, call.path = some u → P u = true

def Host.Allows (host : Host) (P : Bytes → Bool) (path : FsPath) : Prop :=
  P (systemPath path.bytes host.behind) = true ∧ P (systemPath path.bytes []) = true

/-- The path that an operation gets, whether the lengths wrap around or not. -/
def RequestedPath (server : SftpServer) (data : Bytes) (path : FsPath) : Prop :=
  requestPath server data = .ok path ∧
    ∃ least, 4 ≤ least ∧ least ≤ 12 ∧ u32 (getUint32 data + least) ≤ data.length

def SftpOperation.hasPath : SftpOperation → Bool
  | .openFile | .opendir | .lstat | .stat | .remove | .rmdir | .mkdir | .readlink => true
  | .close | .read | .write | .fstat | .readdir => false

variable {P : Bytes → Bool} {call : Bytes → FsCall}

theorem callsIn_nil : CallsIn P [] := fun _ hmem => absurd hmem not_mem_nil

theorem callsIn_path {call : FsCall} {u : Bytes} (hu : P u = true) (hcall : call.path = some u)
    (hcalls : CallsIn P calls) : CallsIn P (call :: calls) := by
  refine forall_mem_cons.mpr ⟨fun v hv => ?_, hcalls⟩
  rw [hcall] at hv
  cases hv
  exact hu

theorem callsIn_handle {call : FsCall} (hcall : call.path = none) (hcalls : CallsIn P calls) :
    CallsIn P (call :: calls) := by
  refine forall_mem_cons.mpr ⟨fun v hv => ?_, hcalls⟩
  rw [hcall] at hv
  cases hv

theorem callsIn_pathCall (hpath : host.Allows P path) (hcall : ∀ u, (call u).path = some u) :
    CallsIn P (pathCall path call) := by
  unfold pathCall
  split
  · exact callsIn_nil
  · exact callsIn_path hpath.2 (hcall _) callsIn_nil

/-! ## The server behind a request -/

/-- Only the handles have changed, and they are still ready. -/
def SftpServer.Keeps (server : SftpServer) (reaction : Reaction) : Prop :=
  ∃ handles, reaction.server = { server with handles } ∧ (server.handles.Ready → handles.Ready)

def SftpServer.KeepsIn (server : SftpServer) (P : Bytes → Bool) (reaction : Reaction) : Prop :=
  server.Keeps reaction ∧ CallsIn P reaction.calls

theorem ensures_answer {Q : Reaction → Prop} (h : ∀ bytes, Q { calls, replies := [bytes], server }) :
    Ensures Q (answer server calls reply) :=
  ensures_bind fun bytes _ => ensures_ok (h bytes)

theorem keeps_self (calls : List FsCall) (replies : List Bytes) :
    server.Keeps { calls, replies, server } :=
  ⟨server.handles, rfl, fun h => h⟩

theorem keepsIn_answer (hcalls : CallsIn P calls) :
    Ensures (server.KeepsIn P) (answer server calls reply) :=
  ensures_answer fun _ => ⟨keeps_self _ _, hcalls⟩

theorem keepsIn_refused {status : ℕ} :
    Ensures (server.KeepsIn P) (answerStatus server [] id status) :=
  keepsIn_answer callsIn_nil

/-! ### Operations on a path -/

theorem keepsIn_path {next : FsPath → ℕ → ℕ → Except ServerFault Reaction}
    (hleast : 4 ≤ least ∧ least ≤ 12)
    (hnext : ∀ path, RequestedPath server data path → ∀ len pos,
      Ensures (server.KeepsIn P) (next path len pos)) :
    Ensures (server.KeepsIn P) (withPath server id data least fun len pos =>
      completePath server.home server.pre data 4 len >>= fun path => next path len pos) := by
  unfold withPath
  split
  case isFalse => exact keepsIn_refused
  case isTrue hlen =>
    rw [bodyUint32_zero (by omega), ok_bind]
    split
    case isFalse => exact keepsIn_refused
    case isTrue hfit =>
      exact ensures_bind fun path hpath => hnext path ⟨hpath, least, hleast.1, hleast.2, hfit⟩ _ _

theorem keepsIn_openExisting (hpath : host.Allows P path) :
    Ensures (server.KeepsIn P) (sftpOpOpenExisting server host id path flags) := by
  have hstat : CallsIn P [.getstat (systemPath path.bytes host.behind)] :=
    callsIn_path hpath.1 rfl callsIn_nil
  have hcalls : CallsIn P (.getstat (systemPath path.bytes host.behind) ::
      pathCall path (FsCall.openFile · flags)) :=
    callsIn_path hpath.1 rfl (callsIn_pathCall hpath fun _ => rfl)
  simp only [sftpOpOpenExisting]
  cases host.getstat (systemPath path.bytes host.behind) with
  | error errno => exact keepsIn_answer hstat
  | ok stat =>
    simp only
    split
    · exact keepsIn_answer hstat
    · split
      · exact ensures_answer fun _ => ⟨⟨_, rfl, fun h => h.createFile _ _ _⟩, hcalls⟩
      · exact ensures_answer fun _ => ⟨⟨_, rfl, fun h => (h.create _ _ _ _).free⟩, hcalls⟩

theorem keepsIn_opendirPath (hpath : host.Allows P path) :
    Ensures (server.KeepsIn P) (sftpOpOpendirPath server host id path) := by
  have hstat : CallsIn P [.getstat (systemPath path.bytes [])] :=
    callsIn_path hpath.2 rfl callsIn_nil
  have hcalls : CallsIn P (.getstat (systemPath path.bytes []) :: pathCall path .openDir) :=
    callsIn_path hpath.2 rfl (callsIn_pathCall hpath fun _ => rfl)
  simp only [sftpOpOpendirPath]
  cases host.getstat (systemPath path.bytes []) with
  | error errno => exact keepsIn_answer hstat
  | ok stat =>
    simp only
    split
    · split
      · refine ensures_answer fun _ => ⟨⟨_, rfl, fun h => (h.create _ _ _ _).set rfl rfl ?_⟩, hcalls⟩
        intro socket hsocket
        cases hsocket
        exact ready_openDirectory _
      · exact ensures_answer fun _ => ⟨⟨_, rfl, fun h => (h.create _ _ _ _).free⟩, hcalls⟩
    · exact keepsIn_answer hstat

theorem keepsIn_answerStat {call : FsCall} {bits : ℕ} {result : Except ℕ SystemStat}
    (hcall : CallsIn P [call]) : Ensures (server.KeepsIn P) (answerStat server call id bits result) := by
  cases result with
  | error | ok => exact keepsIn_answer hcall

section

variable (hP : ∀ path, RequestedPath server data path → host.Allows P path)
include hP

theorem keepsIn_open : Ensures (server.KeepsIn P) (sftpOpOpen server host id data) := by
  apply keepsIn_path (by decide)
  intro path hpath len pos
  refine ensures_bind fun access _ => ensures_bind fun flags _ => ?_
  split
  · exact keepsIn_refused
  · exact ensures_ite (fun _ => keepsIn_refused) fun _ => keepsIn_openExisting (hP path hpath)

theorem keepsIn_opendir : Ensures (server.KeepsIn P) (sftpOpOpendir server host id data) :=
  keepsIn_path (by decide) fun path hpath _ _ => keepsIn_opendirPath (hP path hpath)

theorem keepsIn_statGeneric {cbStat : Bytes → Except ℕ SystemStat}
    (hcall : ∀ u, (call u).path = some u) :
    Ensures (server.KeepsIn P) (sftpOpStatGeneric server host id data cbStat call) :=
  keepsIn_path (by decide) fun path hpath _ _ => ensures_bind fun _ _ =>
    keepsIn_answerStat (callsIn_path (hP path hpath).1 (hcall _) callsIn_nil)

theorem keepsIn_removeCommon {remove : Bytes → Bool} (hcall : ∀ u, (call u).path = some u) :
    Ensures (server.KeepsIn P) (sftpOpRemoveCommon server id data remove call) := by
  apply keepsIn_path (by decide)
  intro path hpath _ _
  have hcalls : CallsIn P (pathCall path call) := callsIn_pathCall (hP path hpath) hcall
  split
  · exact ensures_bind fun _ _ => ensures_bind fun _ _ => ensures_ok ⟨keeps_self _ _, hcalls⟩
  · exact keepsIn_answer hcalls

theorem keepsIn_mkdir : Ensures (server.KeepsIn P) (sftpOpMkdir server host id data) := by
  apply keepsIn_path (by decide)
  intro path hpath len pos
  refine ensures_bind fun mode _ => ?_
  have hcalls : CallsIn P (pathCall path (FsCall.mkdir · mode)) :=
    callsIn_pathCall (hP path hpath) fun _ => rfl
  exact ensures_ite (fun _ => keepsIn_answer hcalls) fun _ => keepsIn_answer hcalls

theorem keepsIn_readlink : Ensures (server.KeepsIn P) (sftpOpReadlink server host id data) := by
  refine ensures_ite (fun hlen => ?_) fun _ => keepsIn_refused
  rw [bodyUint32_zero hlen, ok_bind]
  refine ensures_bind fun _ _ => ensures_ite (fun hfit => ?_) fun _ => keepsIn_refused
  refine ensures_bind fun path hpath => ?_
  have hcalls : CallsIn P (pathCall path .readlink) :=
    callsIn_pathCall (hP path ⟨hpath, 4, by decide, by decide, hfit⟩) fun _ => rfl
  split
  · exact ensures_error
  · exact keepsIn_answer hcalls
  · exact keepsIn_answer hcalls

end

/-! ### Operations on a handle -/

theorem keepsIn_withHandle {rest : FsHandle → Except ServerFault Reaction}
    (hrest : ∀ handle, Ensures (server.KeepsIn P) (rest handle)) :
    Ensures (server.KeepsIn P) (withHandle server id data least rest) := by
  refine ensures_ite (fun _ => ensures_bind fun len _ => ?_) fun _ => keepsIn_refused
  refine ensures_ite (fun _ => ensures_bind fun found _ => ?_) fun _ => keepsIn_refused
  cases found with
  | none => exact keepsIn_refused
  | some handle => exact hrest handle

theorem keepsIn_read : Ensures (server.KeepsIn P) (sftpOpRead server host id data) := by
  refine keepsIn_withHandle fun handle => ensures_bind fun _ _ => ensures_bind fun _ _ => ?_
  refine ensures_ite (fun _ => ?_) fun _ => keepsIn_refused
  split
  · exact ensures_error
  · split
    · exact keepsIn_answer (callsIn_handle rfl callsIn_nil)
    · refine keepsIn_answer (callsIn_handle rfl ?_)
      split
      · exact callsIn_handle rfl callsIn_nil
      · exact callsIn_nil

theorem keepsIn_write : Ensures (server.KeepsIn P) (sftpOpWrite server host id data) := by
  refine keepsIn_withHandle fun handle => ensures_bind fun _ _ => ensures_bind fun _ _ => ?_
  refine ensures_ite (fun _ => keepsIn_refused) fun _ => ?_
  split
  · exact ensures_error
  · exact ensures_bind fun _ _ => keepsIn_answer (callsIn_handle rfl callsIn_nil)

theorem keepsIn_close (host : Host) :
    Ensures (server.KeepsIn P) (sftpOpClose server host id data) :=
  keepsIn_withHandle fun handle => ensures_answer fun _ =>
    ⟨⟨_, rfl, fun h => (h.but handle).free⟩, callsIn_handle rfl callsIn_nil⟩

theorem keepsIn_fstat : Ensures (server.KeepsIn P) (sftpOpFstat server host id data) :=
  keepsIn_withHandle fun _ => ensures_bind fun _ _ =>
    keepsIn_answerStat (callsIn_handle rfl callsIn_nil)

theorem mem_rows_of_getFsHandle {pos : ℕ}
    (h : getFsHandle table unique data pos size = .ok (some handle)) :
    ∃ i, handle ∈ table.rows i := by
  unfold getFsHandle at h
  split at h
  · cases h
  · simp only [bind_eq_ok, pure_eq_ok, Except.ok.injEq] at h
    obtain ⟨connectionid, -, major, -, minor, -, ino, -, hfind⟩ := h
    exact ⟨_, mem_of_find?_eq_some hfind⟩

theorem keepsIn_readdir : Ensures (server.KeepsIn P) (sftpOpReaddir server host id data) := by
  refine ensures_ite (fun _ => ensures_bind fun len _ => ?_) fun _ => keepsIn_refused
  refine ensures_ite (fun _ => ensures_bind fun found hfound => ?_) fun _ => keepsIn_refused
  cases found with
  | none => exact ensures_error
  | some handle =>
    obtain ⟨i, hmem⟩ := mem_rows_of_getFsHandle hfound
    cases hsocket : handle.socket with
    | file =>
      simp only [hsocket]
      exact ensures_ite (fun _ => keepsIn_refused) fun _ => ensures_error
    | dir socket =>
      simp only [hsocket]
      refine ensures_bind fun read hread => ensures_answer fun _ => ⟨⟨_, rfl, fun h => ?_⟩, ?_⟩
      · obtain ⟨directory, heq, hdirectory⟩ :=
          readdirDirectory_eq (h i handle hmem socket hsocket) id
        cases heq.symm.trans hread
        refine (h.but handle).set rfl rfl ?_
        intro socket' hsocket'
        cases hsocket'
        exact hdirectory
      · split
        · exact callsIn_nil
        · exact callsIn_handle rfl callsIn_nil

theorem sftpOp_keepsIn (op : SftpOperation)
    (hP : op.hasPath = true → ∀ path, RequestedPath server data path → host.Allows P path) :
    Ensures (server.KeepsIn P) (sftpOp op server host id data) := by
  cases op with
  | openFile => exact keepsIn_open (hP rfl)
  | close => exact keepsIn_close host
  | read => exact keepsIn_read
  | write => exact keepsIn_write
  | lstat | stat => exact keepsIn_statGeneric (hP rfl) fun _ => rfl
  | fstat => exact keepsIn_fstat
  | opendir => exact keepsIn_opendir (hP rfl)
  | readdir => exact keepsIn_readdir
  | remove | rmdir => exact keepsIn_removeCommon (hP rfl) fun _ => rfl
  | mkdir => exact keepsIn_mkdir (hP rfl)
  | readlink => exact keepsIn_readlink (hP rfl)

theorem sftpOp_keeps (op : SftpOperation) (server : SftpServer) (host : Host) (id : UInt32)
    (data : Bytes) : Ensures server.Keeps (sftpOp op server host id data) := by
  intro reaction hreaction
  have hanywhere (path : FsPath) : host.Allows (fun _ => true) path := ⟨rfl, rfl⟩
  exact (sftpOp_keepsIn op (fun _ path _ => hanywhere path) reaction hreaction).1

end Osns
