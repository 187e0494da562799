import Osns.Model.SftpServer.Operations
import Osns.Verification.SftpServer.Blocks
import Osns.Verification.SftpServer.Directory
import Osns.Verification.SftpServer.Handles

/-! The front of a request: the path or the handle that an operation gets, and what it refuses. -/

namespace Osns

open List Result Wire

/-! ## Handles that are ready -/

/-- A handle of a directory has a current record as long as the end has not been reached. -/
def FsHandle.Ready (handle : FsHandle) : Prop :=
  ∀ socket, handle.socket = .dir socket → OpenDirectory.Ready { socket, eod := handle.eod }

def HandleTable.Ready (table : HandleTable) : Prop := ∀ i, ∀ handle ∈ table.rows i, handle.Ready

def requestPath (server : SftpServer) (data : Bytes) : Except ServerFault FsPath :=
  completePath server.home server.pre data 4 (getUint32 data)

/-! ## The front of a request -/

variable {server : SftpServer} {id : UInt32} {data : Bytes} {least : ℕ}

theorem answerStatus_eq (server : SftpServer) (calls : List FsCall) (id : UInt32) (status : ℕ) :
    answerStatus server calls id status
      = .ok { calls, replies := [statusMessage id status], server } := by
  rw [answerStatus, answer, replySftpStatusSimple_eq]
  rfl

theorem bodyUint32_zero (h : 4 ≤ data.length) : bodyUint32 data 0 = .ok (getUint32 data) :=
  bodyUint32_of_le (by omega)

theorem withHandle_eq {rest : FsHandle → Except ServerFault Reaction} (hleast : 24 ≤ least) :
    withHandle server id data least rest
      = if least ≤ data.length then
          if getUint32 data = 20 then
            (server.handles.find (bytesKey (data.drop 4))).elim
              (answerStatus server [] id sshFxInvalidHandle) rest
          else answerStatus server [] id sshFxInvalidHandle
        else answerStatus server [] id sshFxBadMessage := by
  unfold withHandle getFsHandleBufferSize
  by_cases hlen : least ≤ data.length
  · rw [if_pos hlen, if_pos hlen, bodyUint32_zero (by omega), ok_bind]
    by_cases hsize : getUint32 data = 20
    · rw [if_pos hsize, if_pos hsize, hsize, getFsHandle_eq (Nat.le_refl 20) (by omega), ok_bind]
      cases server.handles.find (bytesKey (data.drop 4)) with
      | none => rfl
      | some handle => rfl
    · rw [if_neg hsize, if_neg hsize]
  · rw [if_neg hlen, if_neg hlen]

/-! ## Servers and hosts -/

def failingHost : Host where
  behind := [0]
  getstat := fun _ => .error eNOENT
  getlstat := fun _ => .error eNOENT
  fgetstat := fun _ => .error eBADF
  fgetstatat := fun _ _ => .error eNOENT
  targetInside := fun _ _ => false
  openFile := fun _ _ => false
  openDir := fun _ => false
  getdents := fun _ => []
  pread := fun _ _ _ => .error eBADF
  pwrite := fun _ _ _ => (-1, eBADF)
  mkdir := fun _ _ => false
  unlink := fun _ => false
  rmdir := fun _ => false
  readlink := fun _ _ => .error eNOENT
  fsync := fun _ => false
  statvfs := fun _ => none

def newServer : SftpServer := initSftpSubsystem 0 [slash] { uid := 0, gid := 0 }

/-- The server with one open file, on device 8, 1 and with inode 5. -/
def fileServer : SftpServer :=
  { newServer with
    handles := (sftpCreateFsHandle .empty 0 (getUniqueSystemDev 8 1) 5 .file).2 }

end Osns
