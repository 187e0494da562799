import Osns.Model.SftpServer.Handles

/-! The state of the SFTP server (`struct sftp_subsystem_s`), what the system returns to it, and its
operations, after the files `cb-*.c` in `ssh/subsystem/sftp`. `inh->len` is the length of `data`. -/

namespace Osns

structure SystemStatvfs where
  blocksize : UInt64
  fragmentsize : UInt64
  nrblocks : UInt64
  freeblocks : UInt64
  availblocks : UInt64
  nrinodes : UInt64
  freeinodes : UInt64
  availinodes : UInt64
  fsid : UInt64
  mountflags : UInt64
  namemax : UInt64
  deriving DecidableEq, Repr

/-- The results of the system calls during a request. A path is what the system sees of it: the bytes up
to the first zero. An error is the value of `errno`. -/
structure Host where
  /-- What lies behind a path that is used without a zero at its end. -/
  behind : Bytes
  getstat : Bytes → Except ℕ SystemStat
  getlstat : Bytes → Except ℕ SystemStat
  fgetstat : FsHandle → Except ℕ SystemStat
  fgetstatat : FsHandle → Bytes → Except ℕ SystemStat
  /-- What `check_target_symlink` finds: the target of a link of a directory is inside the prefix. -/
  targetInside : FsHandle → FsPath → Bool
  openFile : Bytes → UInt32 → Bool
  openDir : Bytes → Bool
  getdents : Bytes → List (Option (List Dirent))
  pread : FsHandle → ℕ → ℕ → Except ℕ Bytes
  /-- What `pwrite` returns, and `errno` behind the call. -/
  pwrite : FsHandle → Bytes → ℕ → ℤ × ℕ
  mkdir : Bytes → ℕ → Bool
  unlink : Bytes → Bool
  rmdir : Bytes → Bool
  readlink : Bytes → ℕ → Except ℕ Bytes
  fsync : FsHandle → Bool
  statvfs : Bytes → Option SystemStatvfs

/-- The calls by which an operation does its work. -/
inductive FsCall
  | getstat (path : Bytes)
  | getlstat (path : Bytes)
  | fgetstat (handle : FsHandle)
  | openFile (path : Bytes) (flags : UInt32)
  | openDir (path : Bytes)
  | readDir (handle : FsHandle)
  | pread (handle : FsHandle) (size offset : ℕ)
  | pwrite (handle : FsHandle) (bytes : Bytes) (offset : ℕ)
  | close (handle : FsHandle)
  | mkdir (path : Bytes) (mode : ℕ)
  | unlink (path : Bytes)
  | rmdir (path : Bytes)
  | readlink (path : Bytes)
  | fsync (handle : FsHandle)
  | statvfs (path : Bytes)
  deriving DecidableEq, Repr

/-- The path of a call that has one. -/
def FsCall.path : FsCall → Option Bytes
  | .getstat path | .getlstat path | .openFile path _ | .openDir path | .mkdir path _ | .unlink path
  | .rmdir path | .readlink path | .statvfs path => some path
  | _ => none

/-- The operations with a message type of their own. -/
inductive SftpOperation
  | openFile
  | close
  | read
  | write
  | lstat
  | fstat
  | opendir
  | readdir
  | remove
  | mkdir
  | rmdir
  | stat
  | readlink
  deriving DecidableEq, Repr

/-- The rows of `extensions`. -/
inductive SftpExtension
  | setPrefix
  | statvfs
  | fsync
  | fstatat
  | mapextension
  deriving DecidableEq, Repr

/-- The values of `sftp->cb`. -/
inductive SftpCb
  | notsupported
  | operation (op : SftpOperation)
  | extension
  | mapped (ext : SftpExtension)
  deriving DecidableEq, Repr

/-- `struct sftp_subsystem_s`, with the handles of all connections and the codes of the extensions. -/
structure SftpServer where
  unique : UInt32
  version : SftpVersion
  home : Bytes
  pre : SftpPrefix
  mapping : IdMapping
  handles : HandleTable
  extensionMask : ℕ
  code : SftpExtension → UInt8
  cb : UInt8 → SftpCb

/-- The callbacks that `init_sftp_subsystem` sets. -/
def initCb : UInt8 → SftpCb
  | 3 => .operation .openFile
  | 4 => .operation .close
  | 5 => .operation .read
  | 6 => .operation .write
  | 7 => .operation .lstat
  | 8 => .operation .fstat
  | 11 => .operation .opendir
  | 12 => .operation .readdir
  | 13 => .operation .remove
  | 14 => .operation .mkdir
  | 15 => .operation .rmdir
  | 17 => .operation .stat
  | 19 => .operation .readlink
  | 200 => .extension
  | _ => .notsupported

/-- `init_sftp_subsystem`, for a user with this home directory and these ids. -/
def initSftpSubsystem (unique : UInt32) (home : Bytes) (mapping : IdMapping) : SftpServer where
  unique := unique
  version := .v06
  home := home
  pre := initSftpPrefix
  mapping := mapping
  handles := .empty
  extensionMask := 0
  code := fun _ => 0
  cb := initCb

/-- What comes of a request: the calls, the messages that are sent and the server behind them. -/
structure Reaction where
  calls : List FsCall
  replies : List Bytes
  server : SftpServer

/-- The one reply that ends most operations. -/
def answer (server : SftpServer) (calls : List FsCall) (reply : Except ServerFault Bytes) :
    Except ServerFault Reaction := do
  let reply ← reply
  return { calls, replies := [reply], server }

def answerStatus (server : SftpServer) (calls : List FsCall) (id : UInt32) (status : ℕ) :
    Except ServerFault Reaction :=
  answer server calls (replySftpStatusSimple id status)

/-- An action of the system on a path that is copied and terminated; there is none on an empty one. -/
def onPath (path : FsPath) (action : Bytes → Bool) : Bool :=
  path.bytes.length ≠ 0 && action (systemPath path.bytes [])

def pathCall (path : FsPath) (call : Bytes → FsCall) : List FsCall :=
  if path.bytes.length = 0 then [] else [call (systemPath path.bytes [])]

/-- The status for an error of `stat` and `readlink`. -/
def statStatus (errno : ℕ) : ℕ :=
  if errno = eNOENT then sshFxNoSuchFile
  else if errno = eNOTDIR then sshFxNoSuchPath
  else if errno = eACCES then sshFxPermissionDenied
  else sshFxFailure

/-! ## The front of a request -/

section

variable (server : SftpServer) (id : UInt32) (data : Bytes) (least : ℕ)

/-- An operation on a path, with `least` bytes in a request with an empty one: `rest` gets the length of
the path and the position behind it. -/
def withPath (rest : ℕ → ℕ → Except ServerFault Reaction) : Except ServerFault Reaction :=
  if least ≤ data.length then do
    let len ← bodyUint32 data 0
    if u32 (len + least) ≤ data.length then rest len (u32 (4 + len))
    else answerStatus server [] id sshFxBadMessage
  else answerStatus server [] id sshFxBadMessage

/-- An operation on a handle, with at least `least` bytes in a request. -/
def withHandle (rest : FsHandle → Except ServerFault Reaction) : Except ServerFault Reaction :=
  if least ≤ data.length then do
    let len ← bodyUint32 data 0
    if len = getFsHandleBufferSize then do
      let found ← getFsHandle server.handles server.unique data 4 len
      match found with
      | none => answerStatus server [] id sshFxInvalidHandle
      | some handle => rest handle
    else answerStatus server [] id sshFxInvalidHandle
  else answerStatus server [] id sshFxBadMessage

end

/-! ## Open, read, write and close -/

/-- The access mode in `translate_sftp2local`: data and attributes, to be read and written. There is no
bit for `O_RDONLY`. -/
def translateAccess (access : UInt32) : Option UInt32 :=
  if access &&& 0x183 = 0x183 then some oRdwr
  else if access &&& 0x183 = 0x102 then some oWronly
  else if access &&& 0x183 = 0x081 then some 0
  else none

/-- The disposition in `translate_sftp2local`. `SSH_FXF_CREATE_NEW` is 0 and no bit of the flags. -/
def translateDisposition (flags : UInt32) : Option UInt32 :=
  if !hasBits flags 0x7 then none
  else if hasBits flags 0x1 then some (oCreat ||| oTrunc)
  else if hasBits flags 0x0 then some (oCreat ||| oExcl)
  else if hasBits flags 0x3 then some oCreat
  else if hasBits flags 0x4 then some oTrunc
  else some 0

/-- To append there must be a flag how to do it, and access to write. -/
def translateSftp2local (access flags : UInt32) : Option UInt32 :=
  if hasBits access 0x4 && (!hasBits flags 0x18 || !hasBits access 0x2) then none
  else do
    let mode ← translateAccess access
    let disposition ← translateDisposition flags
    return bitsIf (hasBits access 0x4) oAppend ||| mode ||| disposition

/-- The status for an error of `stat` in `sftp_op_open_existing` and `_sftp_op_opendir`. -/
def openStatus (errno : ℕ) : ℕ := if errno = eNOENT then sshFxNoSuchFile else sshFxFailure

variable (server : SftpServer) (host : Host) (id : UInt32)

/-- The path is not terminated for `stat`. -/
def sftpOpOpenExisting (path : FsPath) (flags : UInt32) : Except ServerFault Reaction :=
  let name := systemPath path.bytes host.behind
  match host.getstat name with
  | .error errno => answerStatus server [.getstat name] id (openStatus errno)
  | .ok stat =>
    if stat.isDir then answerStatus server [.getstat name] id sshFxFileIsADirectory
    else
      let created := sftpCreateFsHandle server.handles server.unique
        (getUniqueSystemDev stat.devMajor stat.devMinor) stat.ino .file
      let calls := .getstat name :: pathCall path (FsCall.openFile · flags)
      if onPath path (host.openFile · flags) then
        answer { server with handles := created.2 } calls
          (replySftpHandle id (writeHandleDefault created.1))
      else
        answerStatus { server with handles := freeFsHandle created.2 created.1 } calls id
          sshFxFailure

variable (data : Bytes)

/-- The attributes behind the flags are not read. -/
def sftpOpOpen : Except ServerFault Reaction :=
  withPath server id data 12 fun len pos => do
    let path ← completePath server.home server.pre data 4 len
    let access ← bodyUint32 data pos
    let flags ← bodyUint32 data (u32 (pos + 4))
    match translateSftp2local (UInt32.ofNat access) (UInt32.ofNat flags) with
    | none => answerStatus server [] id sshFxPermissionDenied
    | some posix =>
      if posix &&& (oCreat ||| oExcl) = oCreat ||| oExcl then
        answerStatus server [] id sshFxOpUnsupported
      else sftpOpOpenExisting server host id path posix

def translateReadError (errno : ℕ) : ℕ := if errno = eBADF then sshFxInvalidParameter else sshFxFailure

def maxReadSize : ℕ := 16384

/-- The end of the file is behind the `bytesread` bytes, when the file has the size of `stat`. -/
def endsFile (stat : Except ℕ SystemStat) (offset size bytesread : ℕ) : Bool :=
  match stat with
  | .error _ => false
  | .ok stat =>
    stat.size.toNat < (offset + size) % 2 ^ 64 && (offset + bytesread) % 2 ^ 64 == stat.size.toNat

/-- A directory has no `pread`; the pointer is one to a function of directories. -/
def sftpOpRead : Except ServerFault Reaction :=
  withHandle server id data 36 fun handle => do
    let offset ← bodyUint64 data 24
    let size ← bodyUint32 data 32
    if size ≤ maxReadSize then
      match handle.socket with
      | .dir _ => .error .callback
      | .file =>
        match host.pread handle size offset with
        | .error errno =>
          answerStatus server [.pread handle size offset] id (translateReadError errno)
        | .ok bytes =>
          let bytes := bytes.take size
          let short := bytes.length < size
          answer server (.pread handle size offset :: if short then [.fgetstat handle] else [])
            (replySftpData id bytes
              (short && endsFile (host.fgetstat handle) offset size bytes.length))
    else answerStatus server [] id sshFxBadMessage

def translateWriteError (errno : ℕ) : ℕ :=
  if errno = eBADF then sshFxPermissionDenied
  else if errno = eDQUOT then sshFxQuotaExceeded
  else if errno = eNOSPC then sshFxNoSpaceOnFilesystem
  else if errno = eINVAL then sshFxWriteProtect
  else if errno = eFBIG then sshFxInvalidParameter
  else sshFxFailure

/-- The status for what `pwrite` returns and for `errno` behind it. Any number of bytes is enough. -/
def writeStatus (written : ℤ × ℕ) : ℕ :=
  if 0 < written.1 then sshFxOk else translateWriteError (if written.2 = 0 then eIO else written.2)

/-- The size is not compared with the length of the request. -/
def sftpOpWrite : Except ServerFault Reaction :=
  withHandle server id data 36 fun handle => do
    let offset ← bodyUint64 data 24
    let size ← bodyUint32 data 32
    if size = 0 then answerStatus server [] id sshFxInvalidParameter
    else
      match handle.socket with
      | .dir _ => .error .callback
      | .file => do
        let bytes ← bodyLoad data 36 size
        answerStatus server [.pwrite handle bytes offset] id
          (writeStatus (host.pwrite handle bytes offset))

def sftpOpClose (_host : Host) (id : UInt32) (data : Bytes) : Except ServerFault Reaction :=
  withHandle server id data 24 fun handle =>
    answerStatus { server with handles := freeFsHandle server.handles handle } [.close handle] id sshFxOk

/-! ## Directories -/

def emptyDirSocket : DirSocket := { dirent := none, buffered := [], batches := [] }

/-- `_sftp_op_opendir`. The buffer of the path is filled with zeros before. -/
def sftpOpOpendirPath (path : FsPath) : Except ServerFault Reaction :=
  let name := systemPath path.bytes []
  match host.getstat name with
  | .error errno => answerStatus server [.getstat name] id (openStatus errno)
  | .ok stat =>
    if stat.isDir then
      let dev := getUniqueSystemDev stat.devMajor stat.devMinor
      let calls := .getstat name :: pathCall path .openDir
      if onPath path host.openDir then
        let directory := openDirectory (host.getdents name)
        let created := sftpCreateFsHandle server.handles server.unique dev stat.ino
          (.dir directory.socket)
        let handle := { created.1 with eod := directory.eod }
        answer { server with handles := setFsHandle created.2 handle } calls
          (replySftpHandle id (writeHandleDefault handle))
      else
        let created := sftpCreateFsHandle server.handles server.unique dev stat.ino
          (.dir emptyDirSocket)
        answerStatus { server with handles := freeFsHandle created.2 created.1 } calls id
          sshFxFailure
    else answerStatus server [.getstat name] id sshFxNotADirectory

def sftpOpOpendir : Except ServerFault Reaction :=
  withPath server id data 4 fun len _ => do
    let path ← completePath server.home server.pre data 4 len
    sftpOpOpendirPath server host id path

/-- `SFTP_PREFIX_FLAG_IGNORE_XDEV_SYMLINKS` -/
def ignoreXdevSymlinks : UInt32 := 1

/-- A link in a directory that is not to be listed. -/
def ignoredLink (handle : FsHandle) (stat : SystemStat) (path : FsPath) : Bool :=
  stat.isLink && hasBits server.pre.flags ignoreXdevSymlinks && host.targetInside handle path

/-- A handle that is not found is used all the same, and so is that of a file. -/
def sftpOpReaddir : Except ServerFault Reaction :=
  if 24 ≤ data.length then do
    let len ← bodyUint32 data 0
    if getFsHandleBufferSize ≤ len then do
      let found ← getFsHandle server.handles server.unique data 4 len
      match found with
      | none => .error .null
      | some handle =>
        match handle.socket with
        | .file =>
          if handle.eod then answerStatus server [] id sshFxEof else .error .callback
        | .dir socket => do
          let read ← readdirDirectory server.version server.mapping (host.fgetstatat handle)
            (ignoredLink server host handle) id { socket, eod := handle.eod }
          let handle' := { handle with socket := .dir read.2.socket, eod := read.2.eod }
          answer { server with handles := setFsHandle server.handles handle' }
            (if handle.eod then [] else [.readDir handle]) (.ok read.1)
    else answerStatus server [] id sshFxBadMessage
  else answerStatus server [] id sshFxBadMessage

/-! ## Attributes -/

def convertSftpValidW (version : SftpVersion) (bits : ℕ) : SftpValid :=
  (splitValid bits).restrict (wValid version)

/-- The end of the operations that ask for attributes. -/
def answerStat (call : FsCall) (id : UInt32) (bits : ℕ) (result : Except ℕ SystemStat) :
    Except ServerFault Reaction :=
  match result with
  | .ok stat =>
    answer server [call]
      (replySftpAttrFromStat server.version server.mapping id (convertSftpValidW server.version bits)
        stat)
  | .error errno => answerStatus server [call] id (statStatus errno)

/-- `sftp_op_stat_generic` for `system_getstat` or `system_getlstat`. The path is not terminated. -/
def sftpOpStatGeneric (cbStat : Bytes → Except ℕ SystemStat) (call : Bytes → FsCall) :
    Except ServerFault Reaction :=
  withPath server id data 8 fun len pos => do
    let path ← completePath server.home server.pre data 4 len
    let bits ← bodyUint32 data pos
    let name := systemPath path.bytes host.behind
    answerStat server (call name) id bits (cbStat name)

def sftpOpStat : Except ServerFault Reaction :=
  sftpOpStatGeneric server host id data host.getstat .getstat

def sftpOpLstat : Except ServerFault Reaction :=
  sftpOpStatGeneric server host id data host.getlstat .getlstat

def sftpOpFstat : Except ServerFault Reaction :=
  withHandle server id data 28 fun handle => do
    let bits ← bodyUint32 data 24
    answerStat server (.fgetstat handle) id bits (host.fgetstat handle)

/-! ## Create and remove -/

/-- The mode of a new directory when the request has none: `S_IRWXU | S_IRWXO | S_IROTH | S_IXOTH`. -/
def mkdirMode : ℕ := 0o707

def sftpOpMkdir : Except ServerFault Reaction :=
  withPath server id data 8 fun len pos => do
    let path ← completePath server.home server.pre data 4 len
    let mode ← readAttributes server.version mkdirMode (data.drop pos)
    let calls := pathCall path (FsCall.mkdir · mode)
    if onPath path (host.mkdir · mode) then answerStatus server calls id sshFxOk
    else answerStatus server calls id sshFxFailure

/-- Behind the reply for a success there is no return. -/
def sftpOpRemoveCommon (remove : Bytes → Bool) (call : Bytes → FsCall) :
    Except ServerFault Reaction :=
  withPath server id data 4 fun len _ => do
    let path ← completePath server.home server.pre data 4 len
    if onPath path remove then do
      let first ← replySftpStatusSimple id sshFxOk
      let second ← replySftpStatusSimple id sshFxFailure
      return { calls := pathCall path call, replies := [first, second], server }
    else answerStatus server (pathCall path call) id sshFxFailure

def sftpOpRemove : Except ServerFault Reaction :=
  sftpOpRemoveCommon server id data host.unlink .unlink

def sftpOpRmdir : Except ServerFault Reaction := sftpOpRemoveCommon server id data host.rmdir .rmdir

/-! ## Links -/

/-- What a conversion `%.*s` reads: the bytes up to the first zero, and at most `len`. As an `int` the
length may be negative, and then there is no limit. -/
def logString (pos len : ℕ) : Except ServerFault Unit :=
  let bytes := if len < 2 ^ 31 then (data.drop pos).take len else data.drop pos
  if 0 ∈ bytes ∨ len < 2 ^ 31 ∧ pos + len ≤ data.length then .ok () else .error .body

/-- The target with attributes that are all zero. -/
def replySftpReadlink (target : Bytes) : Except ServerFault Bytes :=
  replySftpNames id 1 (storeUint32 target.length ++ target ++ List.replicate 5 0) true

/-- The path is logged before its length is checked. -/
def sftpOpReadlink : Except ServerFault Reaction :=
  if 4 ≤ data.length then do
    let len ← bodyUint32 data 0
    logString data 4 len
    if u32 (len + 4) ≤ data.length then do
      let path ← completePath server.home server.pre data 4 len
      match fsPathGetTargetUnixSymlink host.readlink path with
      | none => .error .endless
      | some (.ok target) =>
        answer server (pathCall path .readlink) (replySftpReadlink id target)
      | some (.error errno) =>
        answerStatus server (pathCall path .readlink) id (statStatus errno)
    else answerStatus server [] id sshFxBadMessage
  else answerStatus server [] id sshFxBadMessage

def sftpOp : SftpOperation → SftpServer → Host → UInt32 → Bytes → Except ServerFault Reaction
  | .openFile => sftpOpOpen
  | .close => sftpOpClose
  | .read => sftpOpRead
  | .write => sftpOpWrite
  | .lstat => sftpOpLstat
  | .fstat => sftpOpFstat
  | .opendir => sftpOpOpendir
  | .readdir => sftpOpReaddir
  | .remove => sftpOpRemove
  | .mkdir => sftpOpMkdir
  | .rmdir => sftpOpRmdir
  | .stat => sftpOpStat
  | .readlink => sftpOpReadlink

end Osns
