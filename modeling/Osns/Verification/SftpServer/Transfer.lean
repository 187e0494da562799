import Osns.Model.SshString
import Osns.Verification.SftpServer.Answers

/-! What a client is told about the bytes that have been read and written. -/

namespace Osns

open List Result

variable {server : SftpServer} {host : Host} {id : UInt32} {handle : Bytes} {offset : UInt64}

/-! ## Requests -/

def transferRequest (handle : Bytes) (offset : UInt64) (rest : Bytes) : Bytes :=
  storeUint32 20 ++ (handle ++ (storeUint64 offset.toNat ++ rest))

def writeRequest (handle : Bytes) (offset : UInt64) (bytes : Bytes) : Bytes :=
  transferRequest handle offset (sshString bytes)

def readRequest (handle : Bytes) (offset : UInt64) (size : UInt32) : Bytes :=
  transferRequest handle offset (storeUint32 size.toNat)

section

variable {rest : Bytes}

variable (hlen : handle.length = 20)

include hlen

theorem length_transferRequest :
    (transferRequest handle offset rest).length = 32 + rest.length := by
  simp only [transferRequest, length_append, length_storeUint32, length_storeUint64, hlen]
  omega

theorem drop_transferRequest :
    (transferRequest handle offset rest).drop 32 = rest := by
  have hfront : (storeUint32 20 ++ (handle ++ storeUint64 offset.toNat)).length = 32 := by
    simp [hlen]
  rw [transferRequest, ← append_assoc handle, ← append_assoc]
  exact drop_left' hfront

theorem offset_transferRequest :
    bodyUint64 (transferRequest handle offset rest) 24 = .ok offset.toNat := by
  have hfront : (storeUint32 20 ++ handle).length = 24 := by
    simp [hlen]
  have hdrop : (transferRequest handle offset rest).drop 24 = storeUint64 offset.toNat ++ rest := by
    rw [transferRequest, ← append_assoc]
    exact drop_left' hfront
  have hvalue := getUint64_store offset.toNat rest
  rw [getUint64, Nat.mod_eq_of_lt offset.toNat_lt] at hvalue
  rw [bodyUint64_of_le (by rw [length_transferRequest hlen]; omega), ← drop_drop, hdrop, hvalue]

theorem withHandle_transferRequest {h : FsHandle} {operation : FsHandle → Except ServerFault Reaction}
    (hopen : server.handles.find (bytesKey handle) = some h) (hrest : 4 ≤ rest.length) :
    withHandle server id (transferRequest handle offset rest) 36 operation = operation h := by
  have hsize : getUint32 (transferRequest handle offset rest) = 20 :=
    getUint32_store_of_lt (by decide) _
  have hkey : bytesKey ((transferRequest handle offset rest).drop 4) = bytesKey handle := by
    rw [transferRequest, drop_storeUint32, bytesKey_append hlen]
  rw [withHandle_eq (by decide), if_pos (by rw [length_transferRequest hlen]; omega), if_pos hsize,
    hkey, hopen,
    Option.elim_some]

end

/-! ## Right answers -/

/-- The reply to a read for the bytes that have been delivered. -/
def ReadReply (id : UInt32) (bytes reply : Bytes) : Prop :=
  if bytes = [] then reply = statusMessage id sshFxEof
  else ∃ eof, reply = requestMessage 103 id.toNat
    (storeUint32 bytes.length ++ bytes ++ (eofStores eof).flatten)

section

variable (server : SftpServer) (host : Host) (id : UInt32) (handle : Bytes) (h : FsHandle) (offset : UInt64)

/-- A write is only answered with `SSH_FX_OK` when all bytes have been written. -/
def WriteRight (bytes : Bytes) : Prop :=
  ∃ calls reply, sftpOpWrite server host id (writeRequest handle offset bytes)
      = .ok { calls, replies := [reply], server } ∧
    (reply = statusMessage id sshFxOk → (host.pwrite h bytes offset.toNat).1 = bytes.length)

/-- When `pread` is called, a read is answered with the bytes that it delivers, or the end of the file. -/
def ReadRight (size : UInt32) : Prop :=
  ∃ calls reply, sftpOpRead server host id (readRequest handle offset size)
      = .ok { calls, replies := [reply], server } ∧
    (.pread h size.toNat offset.toNat ∈ calls → ∀ bytes, host.pread h size.toNat offset.toNat = .ok bytes →
      ReadReply id (bytes.take size.toNat) reply)

end

section

variable {h : FsHandle}

theorem writeStatus_lt (written : ℤ × ℕ) : writeStatus written < 2 ^ 32 := by
  unfold writeStatus translateWriteError
  split_ifs <;> decide

theorem writeStatus_eq_ok_iff (written : ℤ × ℕ) : writeStatus written = sshFxOk ↔ 0 < written.1 := by
  unfold writeStatus translateWriteError
  split_ifs <;> simp_all [sshFxOk, sshFxPermissionDenied, sshFxQuotaExceeded, sshFxNoSpaceOnFilesystem,
    sshFxWriteProtect, sshFxInvalidParameter, sshFxFailure]

theorem exists_answer_iff {result : Except ServerFault Reaction} {calls : List FsCall} {reply : Bytes}
    {P : List FsCall → Bytes → Prop} (hresult : result = .ok { calls, replies := [reply], server }) :
    (∃ calls reply, result = .ok { calls, replies := [reply], server } ∧ P calls reply) ↔ P calls reply := by
  constructor
  · rintro ⟨calls', reply', hresult', hP⟩
    rw [hresult] at hresult'
    cases hresult'
    exact hP
  · intro hP
    exact ⟨calls, reply, hresult, hP⟩

theorem statusMessage_eq_ok_iff {status : ℕ} (hlt : status < 2 ^ 32) :
    statusMessage id status = statusMessage id sshFxOk ↔ status = sshFxOk :=
  ⟨fun heq => Classical.byContradiction fun hne => statusMessage_ne_ok hlt hne heq, fun heq => heq ▸ rfl⟩

variable {bytes : Bytes} {size : UInt32}

theorem size_readRequest (hlen : handle.length = 20) :
    bodyUint32 (readRequest handle offset size) 32 = .ok size.toNat := by
  have hdrop : (readRequest handle offset size).drop 32 = storeUint32 size.toNat := drop_transferRequest hlen
  rw [bodyUint32_of_le (by rw [readRequest, length_transferRequest hlen, length_storeUint32]), hdrop,
    getUint32_storeUint32, u32_of_lt size.toNat_lt]

theorem statusMessage_ne_data (status : ℕ) (body : Bytes) :
    statusMessage id status ≠ requestMessage 103 id.toNat body := by
  intro heq
  have htype := congrArg (fun reply => (reply.drop 4).head?) heq
  simp only [statusMessage, requestMessage, drop_storeUint32, head?_cons] at htype
  exact absurd htype (by decide)

theorem readReply_data_iff (bytes : Bytes) (eof : Bool) :
    ReadReply id bytes (requestMessage 103 id.toNat
      (storeUint32 bytes.length ++ bytes ++ (eofStores eof).flatten)) ↔ bytes ≠ [] := by
  unfold ReadReply
  split
  · rename_i hempty
    exact ⟨fun heq => absurd heq.symm (statusMessage_ne_data _ _), fun hne => absurd hempty hne⟩
  · rename_i hne
    exact ⟨fun _ => hne, fun _ => ⟨eof, rfl⟩⟩

section

variable (hlen : handle.length = 20) (hopen : server.handles.find (bytesKey handle) = some h)
  (hfile : h.socket = .file)

include hlen hopen hfile

theorem sftpOpWrite_writeRequest (host : Host) (id : UInt32) (offset : UInt64)
    (hbytes : bytes.length < 2 ^ 32) :
    sftpOpWrite server host id (writeRequest handle offset bytes) =
      if bytes = [] then answerStatus server [] id sshFxInvalidParameter
      else answerStatus server [.pwrite h bytes offset.toNat] id
        (writeStatus (host.pwrite h bytes offset.toNat)) := by
  have hdrop : (writeRequest handle offset bytes).drop 32 = sshString bytes := drop_transferRequest hlen
  have hsize : bodyUint32 (writeRequest handle offset bytes) 32 = .ok bytes.length := by
    have hget : getUint32 (sshString bytes ++ []) = bytes.length := getUint32_sshString hbytes
    rw [append_nil] at hget
    rw [bodyUint32_of_le (by rw [writeRequest, length_transferRequest hlen, length_sshString]; omega), hdrop,
      hget]
  have hload : bodyLoad (writeRequest handle offset bytes) 36 bytes.length = .ok bytes := by
    rw [bodyLoad_of_le (by rw [writeRequest, length_transferRequest hlen, length_sshString]; omega),
      show 36 = 32 + 4 from rfl, ← drop_drop, hdrop, sshString, drop_storeUint32, take_length]
  rw [sftpOpWrite, writeRequest, withHandle_transferRequest hlen hopen (by simp),
    offset_transferRequest hlen, ok_bind, ← writeRequest, hsize, ok_bind, hfile]
  simp [hload]

theorem writeRight_iff (hbytes : bytes.length < 2 ^ 32) :
    WriteRight server host id handle h offset bytes ↔
      (bytes ≠ [] → 0 < (host.pwrite h bytes offset.toNat).1 →
        (host.pwrite h bytes offset.toNat).1 = bytes.length) := by
  have hresult := sftpOpWrite_writeRequest hlen hopen hfile host id offset hbytes
  by_cases hempty : bytes = []
  · rw [if_pos hempty, answerStatus_eq] at hresult
    rw [WriteRight, exists_answer_iff hresult, statusMessage_eq_ok_iff (by decide)]
    exact ⟨fun _ hne => absurd hempty hne, fun _ hok => absurd hok (by decide)⟩
  · rw [if_neg hempty, answerStatus_eq] at hresult
    rw [WriteRight, exists_answer_iff hresult, statusMessage_eq_ok_iff (writeStatus_lt _),
      writeStatus_eq_ok_iff]
    exact ⟨fun hall _ => hall, fun hall => hall hempty⟩

theorem sftpOpRead_readRequest (host : Host) (id : UInt32) (offset : UInt64) :
    ∃ calls reply, sftpOpRead server host id (readRequest handle offset size)
        = .ok { calls, replies := [reply], server } ∧
      (.pread h size.toNat offset.toNat ∈ calls ↔ size.toNat ≤ maxReadSize) ∧
      (size.toNat ≤ maxReadSize → ∀ bytes, host.pread h size.toNat offset.toNat = .ok bytes →
        ∃ eof, reply = requestMessage 103 id.toNat (storeUint32 (bytes.take size.toNat).length
          ++ bytes.take size.toNat ++ (eofStores eof).flatten)) := by
  rw [sftpOpRead, readRequest, withHandle_transferRequest hlen hopen (by simp),
    offset_transferRequest hlen, ok_bind, ← readRequest, size_readRequest hlen, ok_bind]
  by_cases hsize : size.toNat ≤ maxReadSize
  · rw [if_pos hsize, hfile]
    cases hread : host.pread h size.toNat offset.toNat with
    | error errno =>
      simp only [answerStatus_eq]
      refine ⟨_, _, rfl, iff_of_true mem_cons_self hsize, ?_⟩
      rintro - _ ⟨⟩
    | ok bytes =>
      have hfits : 14 + (bytes.take size.toNat).length < 2 ^ 32 := by
        rw [length_take]
        unfold maxReadSize at hsize
        omega
      simp only [answer, replySftpData_eq hfits, ok_bind]
      refine ⟨_, _, rfl, iff_of_true mem_cons_self hsize, ?_⟩
      rintro - _ ⟨⟩
      exact ⟨_, rfl⟩
  · rw [if_neg hsize, answerStatus_eq]
    exact ⟨_, _, rfl, iff_of_false not_mem_nil hsize, fun hle => absurd hle hsize⟩

theorem readRight_iff :
    ReadRight server host id handle h offset size ↔
      (size.toNat ≤ maxReadSize → ∀ bytes, host.pread h size.toNat offset.toNat = .ok bytes →
        bytes.take size.toNat ≠ []) := by
  obtain ⟨calls, reply, hresult, hcall, hreply⟩ := sftpOpRead_readRequest hlen hopen hfile host id offset
  rw [ReadRight, exists_answer_iff hresult, hcall]
  refine forall_congr' fun hsize => forall₂_congr fun bytes hread => ?_
  obtain ⟨eof, rfl⟩ := hreply hsize bytes hread
  exact readReply_data_iff _ eof

end

/-- The answers to a write and to a read on an open file are right as long as `pwrite` does not stop in the
middle of the bytes and `pread` delivers some. -/
theorem transfer_right_iff (host : Host) (id : UInt32) (offset : UInt64) (bytes : Bytes) (size : UInt32)
    (hlen : handle.length = 20)
    (hbytes : bytes.length < 2 ^ 32) (hopen : server.handles.find (bytesKey handle) = some h)
    (hfile : h.socket = .file) :
    (WriteRight server host id handle h offset bytes ↔
      (bytes ≠ [] → 0 < (host.pwrite h bytes offset.toNat).1 →
        (host.pwrite h bytes offset.toNat).1 = bytes.length)) ∧
    (ReadRight server host id handle h offset size ↔
      (size.toNat ≤ maxReadSize → ∀ bytes, host.pread h size.toNat offset.toNat = .ok bytes →
        bytes.take size.toNat ≠ [])) :=
  ⟨writeRight_iff hlen hopen hfile hbytes, readRight_iff hlen hopen hfile⟩

end

/-- A system with a file of one byte, to which one byte is written at a time. -/
def oneByteHost : Host :=
  { failingHost with
    pwrite := fun _ _ _ => (1, 0)
    pread := fun _ size offset => .ok (if offset = 0 then [97].take size else []) }

/-- A write and a read of one byte. -/
theorem transfer_right_one_byte :
    ∃ h, WriteRight fileServer oneByteHost 1 handleBytes h 0 [97] ∧
      ReadRight fileServer oneByteHost 1 handleBytes h 0 1 := by
  obtain ⟨h, hopen, hfile⟩ : ∃ h, fileServer.handles.find (bytesKey handleBytes) = some h ∧
    h.socket = .file :=
    ⟨_, rfl, rfl⟩
  obtain ⟨hwrite, hread⟩ := transfer_right_iff oneByteHost 1 0 [97] 1 rfl (by decide) hopen hfile
  refine ⟨h, hwrite.mpr fun _ _ => rfl, hread.mpr ?_⟩
  rintro - _ ⟨⟩
  decide

/-- Of two bytes one is written, and the client is told that both are. A read at the end of the file is
answered with data. -/
theorem transfer_wrong :
    ∃ h, fileServer.handles.find (bytesKey handleBytes) = some h ∧
      ¬ WriteRight fileServer oneByteHost 1 handleBytes h 0 [97, 98] ∧
        ¬ ReadRight fileServer oneByteHost 1 handleBytes h 1 1 := by
  obtain ⟨h, hopen, hfile⟩ : ∃ h, fileServer.handles.find (bytesKey handleBytes) = some h ∧
    h.socket = .file :=
    ⟨_, rfl, rfl⟩
  refine ⟨h, hopen, fun hwrite => ?_, fun hread => ?_⟩
  · have hall : (1 : ℤ) = 2 :=
      (writeRight_iff rfl hopen hfile (by decide)).mp hwrite (by decide) (show (0 : ℤ) < 1 by decide)
    exact absurd hall (by decide)
  · exact (readRight_iff rfl hopen hfile).mp hread (by decide) [] rfl rfl

end Osns
