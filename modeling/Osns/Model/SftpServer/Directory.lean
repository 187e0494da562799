import Osns.Model.SftpServer.Attributes
import Osns.Model.SftpServer.Path

/-! Reading a directory, after `lib/system/fssocket.c` and `_sftp_op_readdir` in
`ssh/subsystem/sftp/cb-opendir.c`. -/

namespace Osns

/-- A record of `getdents64`: the bytes from its name to its end, which is padded with zeros. -/
structure Dirent where
  name : Bytes
  deriving DecidableEq, Repr

/-- `struct fs_socket_directory_data_s`: the current record, the records in the buffer behind it, and
what the next calls of `getdents64` give. None is an error; behind the last call there is nothing left. -/
structure DirSocket where
  dirent : Option Dirent
  buffered : List Dirent
  batches : List (Option (List Dirent))
  deriving DecidableEq, Repr

/-- `d_reclen`; the name stands behind 19 bytes. -/
def Dirent.reclen (d : Dirent) : ℕ := 19 + d.name.length

/-- The length and the name in `copy_dirent_2_dentry`. The offset is that of the name in
`struct linux_dirent`. -/
def copyDirent2Dentry (d : Dirent) : ℕ × Bytes := (d.reclen - 18 - 1, d.name)

def getDentry (s : DirSocket) : Option (ℕ × Bytes) := s.dirent.map copyDirent2Dentry

/-- False when there is no next record or an error. -/
def readDentry (s : DirSocket) : Bool × DirSocket :=
  match s.buffered with
  | d :: rest => (true, { s with dirent := some d, buffered := rest })
  | [] =>
    match s.batches with
    | [] => (false, s)
    | none :: batches => (false, { s with batches })
    | some [] :: batches => (false, { s with batches })
    | some (d :: rest) :: batches => (true, { dirent := some d, buffered := rest, batches })

def DirSocket.left (s : DirSocket) : ℕ :=
  s.buffered.length + (s.batches.map fun batch => (batch.getD []).length).sum

/-- An empty path is an error. -/
def fsSocketFgetstatat (statat : Bytes → Except ℕ SystemStat) (path : FsPath) :
    Except ℕ SystemStat :=
  if path.bytes.length = 0 then .error 1 else statat (systemPath path.bytes [])

variable (version : SftpVersion)

/-- For a handle with these valid bits. -/
def getWriteMaxBuffersize (valid : SftpValid) : ℕ :=
  4 + 256 + (if version = .v03 then 4 else 0) + 4 + getSizeBufferWriteAttributes version valid

/-- `write_name_name_response`; in version 3 the long name comes first and is empty. -/
def writeNameNameResponse (name : Bytes) (out : Output.State UInt8) :
    Except ServerFault (Output.State UInt8) := do
  let out ← if version = .v03 then copyBufferData out (storeUint32 0) else .ok out
  let out ← copyBufferData out (storeUint32 name.length)
  copyBufferData out name

variable (mapping : IdMapping)

/-- The name and the attributes of one entry, written to a temporary buffer, for a handle with these
valid bits. -/
def writeNameEntry (valid : SftpValid) (name : Bytes) (stat : SystemStat) :
    Except ServerFault Bytes := do
  let out ← writeNameNameResponse version name (stackBuffer (getWriteMaxBuffersize version valid))
  let out ← copyBufferData out (storeUint32 (valid.mask ||| valid.flags).toNat)
  let out ← writeAttributes version mapping stat out (parseAttributes version (wValid version) valid)
  return out.buf.take out.pos

/-- The handle of a directory has no valid bits. -/
def writeEntry (name : Bytes) (stat : SystemStat) : Except ServerFault Bytes :=
  writeNameEntry version mapping { mask := 0, flags := 0 } name stat

/-- The variables of `_sftp_op_readdir`, with the flag `HANDLE_FLAG_EOD` of the handle. -/
structure ReaddirState where
  socket : DirSocket
  eod : Bool
  names : Bytes
  count : ℕ

/-- `SFTP_READDIR_NAMES_SIZE` -/
def readdirNamesSize : ℕ := 4096

/-- The end of a pass: the next record is read. -/
def readdirNext (s : ReaddirState) : Loop.Step ReaddirState (Except ServerFault ReaddirState) :=
  let next := readDentry s.socket
  if next.1 then .next { s with socket := next.2 }
  else .done (.ok { s with socket := next.2, eod := true })

variable (statat : Bytes → Except ℕ SystemStat) (ignored : SystemStat → FsPath → Bool)

/-- One pass of the loop. The path of an entry is made with `fs_path_assign_buffer`. A link that
`ignored` holds back is passed over with `continue`, in front of the call that reads the next record. -/
def readdirPass (s : ReaddirState) : Loop.Step ReaddirState (Except ServerFault ReaddirState) :=
  if s.names.length < readdirNamesSize ∧ s.eod = false then
    match s.socket.dirent with
    | none => .next s
    | some dirent =>
      let path := fsPathAssignBuffer dirent.name.length
      match fsSocketFgetstatat statat path with
      | .error _ => readdirNext s
      | .ok stat =>
        if ignored stat path then .next s
        else
          match writeEntry version mapping dirent.name stat with
          | .error fault => .done (.error fault)
          | .ok entry =>
            if s.names.length + entry.length > readdirNamesSize then .done (.ok s)
            else readdirNext { s with names := s.names ++ entry, count := s.count + 1 }
  else .done (.ok s)

/-- The loop of `_sftp_op_readdir`. A pass that does not end it takes a record, or all passes behind it
do the same. -/
def readdirLoop (s : ReaddirState) : Except ServerFault ReaddirState :=
  (Loop.run (readdirPass version mapping statat ignored) (s.socket.left + 2) s).getD (.error .endless)

/-- The reply of `_sftp_op_readdir` behind its loop. -/
def replyReaddir (id : UInt32) (s : ReaddirState) : Except ServerFault Bytes :=
  if s.eod ∧ s.names.length = 0 then replySftpStatusSimple id sshFxEof
  else replySftpNames id s.count s.names s.eod

/-- The directory of a handle, with the flag `HANDLE_FLAG_EOD`. -/
structure OpenDirectory where
  socket : DirSocket
  eod : Bool
  deriving DecidableEq, Repr

/-- A directory that `_sftp_op_opendir` has opened: the first record has been read. -/
def openDirectory (batches : List (Option (List Dirent))) : OpenDirectory :=
  let first := readDentry { dirent := none, buffered := [], batches }
  { socket := first.2, eod := !first.1 }

/-- `sftp_op_readdir` behind the search for the handle. -/
def readdirDirectory (id : UInt32) (directory : OpenDirectory) :
    Except ServerFault (Bytes × OpenDirectory) :=
  if directory.eod then do
    let reply ← replySftpStatusSimple id sshFxEof
    return (reply, directory)
  else do
    let s ← readdirLoop version mapping statat ignored
      { socket := directory.socket
        eod := false
        names := []
        count := 0 }
    let reply ← replyReaddir id s
    return (reply, { socket := s.socket, eod := s.eod })

end Osns
