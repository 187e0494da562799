import Osns.Model.Sftp.Send

/-! Requests and replies of the SFTP server: what its operations read from the body of a request, and
the messages of `ssh/subsystem/sftp/send.c`. -/

namespace Osns

/-- How an operation goes wrong: a read outside the body of the request, an access outside another
buffer, the use of a NULL pointer, a call through a pointer to a function of another type, a shift by
more than the width of its operand, or a loop that never ends. -/
inductive ServerFault
  | body
  | memory
  | null
  | callback
  | shift
  | endless
  deriving DecidableEq, Repr

/-! ## The body of a request -/

def bodyLoad (data : Bytes) (pos n : ℕ) : Except ServerFault Bytes :=
  match Buffer.load data pos n with
  | some bytes => .ok bytes
  | none => .error .body

/-- `get_uint32(&data[pos])` -/
def bodyUint32 (data : Bytes) (pos : ℕ) : Except ServerFault ℕ := do
  let bytes ← bodyLoad data pos 4
  return getUint32 bytes

def bodyUint64 (data : Bytes) (pos : ℕ) : Except ServerFault ℕ := do
  let bytes ← bodyLoad data pos 8
  return getUint32 bytes * 2 ^ 32 + getUint32 (bytes.drop 4)

def bodyByte (data : Bytes) (pos : ℕ) : Except ServerFault UInt8 :=
  match data[pos]? with
  | some b => .ok b
  | none => .error .body

variable {data : Bytes} {pos : ℕ}

theorem bodyLoad_eq_ok {bytes : Bytes} {n : ℕ} :
    bodyLoad data pos n = .ok bytes ↔ Buffer.load data pos n = some bytes := by
  unfold bodyLoad
  split <;> simp_all

theorem bodyLoad_of_le {n : ℕ} (h : pos + n ≤ data.length) :
    bodyLoad data pos n = .ok ((data.drop pos).take n) :=
  bodyLoad_eq_ok.mpr (Buffer.load_of_le h)

theorem bodyUint32_of_le (h : pos + 4 ≤ data.length) :
    bodyUint32 data pos = .ok (getUint32 (data.drop pos)) := by
  rw [bodyUint32, bodyLoad_of_le h, Result.ok_bind, getUint32_take (Nat.le_refl 4)]
  rfl

theorem bodyUint64_of_le (h : pos + 8 ≤ data.length) : bodyUint64 data pos
      = .ok (getUint32 (data.drop pos) * 2 ^ 32 + getUint32 (data.drop (pos + 4))) := by
  rw [bodyUint64, bodyLoad_of_le h, Result.ok_bind, getUint32_take (by decide), List.drop_take,
    List.drop_drop, getUint32_take (by decide)]
  rfl

/-! ## Status codes and errors -/

def sshFxOk : ℕ := 0
def sshFxEof : ℕ := 1
def sshFxNoSuchFile : ℕ := 2
def sshFxPermissionDenied : ℕ := 3
def sshFxFailure : ℕ := 4
def sshFxBadMessage : ℕ := 5
def sshFxOpUnsupported : ℕ := 8
def sshFxInvalidHandle : ℕ := 9
def sshFxNoSuchPath : ℕ := 10
def sshFxWriteProtect : ℕ := 12
def sshFxNoSpaceOnFilesystem : ℕ := 14
def sshFxQuotaExceeded : ℕ := 15
def sshFxNotADirectory : ℕ := 19
def sshFxInvalidParameter : ℕ := 23
def sshFxFileIsADirectory : ℕ := 24

def eNOENT : ℕ := 2
def eIO : ℕ := 5
def eBADF : ℕ := 9
def eNOMEM : ℕ := 12
def eACCES : ℕ := 13
def eNOTDIR : ℕ := 20
def eINVAL : ℕ := 22
def eFBIG : ℕ := 27
def eNOSPC : ℕ := 28
def eDQUOT : ℕ := 122

/-! ## Replies -/

/-- A message of a `char data[size]`: the stores start behind the length field, which is stored last. -/
def replyStores (size : ℕ) (stores : List Bytes) : Except ServerFault Bytes :=
  match Output.putAll (2 ^ 32) { stackBuffer size with pos := 4 } stores with
  | none => .error .memory
  | some out =>
    match Buffer.store out.buf 0 (storeUint32 (u32Sub out.pos 4)) with
    | none => .error .memory
    | some data => .ok (data.take out.pos)

def replyHead (type : UInt8) (id : UInt32) : List Bytes := [[type], storeUint32 id.toNat]

variable (id : UInt32)

def replySftpStatusSimple (status : ℕ) : Except ServerFault Bytes :=
  replyStores 21 (replyHead 101 id ++ [storeUint32 status, storeUint32 0, storeUint32 0])

def replySftpBytesCommon (code : UInt8) (bytes : Bytes) : Except ServerFault Bytes :=
  replyStores (u32 (13 + bytes.length)) (replyHead code id ++ [storeUint32 bytes.length, bytes])

def replySftpHandle (handle : Bytes) : Except ServerFault Bytes :=
  replySftpBytesCommon id 102 handle

def replySftpAttrs (attr : Bytes) : Except ServerFault Bytes :=
  replyStores (u32 (9 + attr.length)) (replyHead 105 id ++ [attr])

/-- The byte behind the data when the end of a file or list is reached. -/
def eofStores (eof : Bool) : List Bytes := if eof then [[1]] else []

def replySftpData (bytes : Bytes) (eof : Bool) : Except ServerFault Bytes :=
  replyStores (u32 (14 + bytes.length))
    (replyHead 103 id ++ [storeUint32 bytes.length, bytes] ++ eofStores eof)

def replySftpNames (count : ℕ) (names : Bytes) (eof : Bool) : Except ServerFault Bytes :=
  replyStores (u32 (14 + names.length))
    (replyHead 104 id ++ [storeUint32 count, names] ++ eofStores eof)

def replySftpExtension (bytes : Bytes) : Except ServerFault Bytes :=
  replyStores (u32 (9 + bytes.length)) (replyHead 201 id ++ [bytes])

end Osns
