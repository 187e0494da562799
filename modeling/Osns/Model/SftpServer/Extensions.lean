import Osns.Model.Pk
import Osns.Model.SftpServer.Operations

/-! Extended requests, after `extensions.c` and the files in `ssh/subsystem/sftp/extensions`, and the
call of the callback of a request. -/

namespace Osns

/-! ## The table of extensions -/

def SftpExtension.name : SftpExtension → Bytes
  | .setPrefix => ascii ['s', 'e', 't', 'p', 'r', 'e', 'f', 'i', 'x', '@', 's', 'f', 't', 'p', '.', 'o',
      's', 'n', 's', '.', 'n', 'e', 't']
  | .statvfs => ascii ['s', 't', 'a', 't', 'v', 'f', 's', '@', 'o', 'p', 'e', 'n', 's', 's', 'h', '.', 'c',
      'o', 'm']
  | .fsync => ascii ['f', 's', 'y', 'n', 'c', '@', 'o', 'p', 'e', 'n', 's', 's', 'h', '.', 'c', 'o', 'm']
  | .fstatat => ascii ['f', 's', 't', 'a', 't', 'a', 't', '@', 's', 'f', 't', 'p', '.', 'o', 's', 'n', 's',
      '.', 'n', 'e', 't']
  | .mapextension => ascii ['m', 'a', 'p', 'e', 'x', 't', 'e', 'n', 's', 'i', 'o', 'n', '@', 's', 'f', 't',
      'p', '.', 'o', 's', 'n', 's', '.', 'n', 'e', 't']

def SftpExtension.index : SftpExtension → ℕ
  | .setPrefix => 0
  | .statvfs => 1
  | .fsync => 2
  | .fstatat => 3
  | .mapextension => 4

def sftpExtensions : List SftpExtension := [.setPrefix, .statvfs, .fsync, .fstatat, .mapextension]

/-- The extensions that `get_next_sftp_protocol_extension` gives for a mask; all of them for zero. -/
def SftpExtension.enabled (mask : ℕ) (ext : SftpExtension) : Bool :=
  mask == 0 || mask.testBit ext.index

/-- `find_sftp_protocol_extension` for a name of `len` bytes at `pos`. The bytes are compared when there
is an extension with a name of this length. -/
def findSftpProtocolExtension (mask : ℕ) (data : Bytes) (pos len : ℕ) :
    Except ServerFault (Option SftpExtension) :=
  let candidates := sftpExtensions.filter fun ext => ext.enabled mask && ext.name.length == len
  if candidates.isEmpty then .ok none
  else do
    let name ← bodyLoad data pos len
    return candidates.find? fun ext => ext.name == name

/-! ## The prefix -/

/-- `SFTP_PREFIX_FLAG_IGNORE_SPECIAL_FILES` -/
def ignoreSpecialFiles : UInt32 := 4

variable (server : SftpServer) (host : Host) (id : UInt32)

/-- The rest of `cb_ext_setprefix` for the full path of the prefix, which is not terminated for
`stat`. The function `get_length_fullpath` is not changed. -/
def setprefixPath (path : FsPath) (flags : ℕ) : Except ServerFault Reaction :=
  let name := systemPath path.bytes host.behind
  match host.getstat name with
  | .error errno => answerStatus server [.getstat name] id (statStatus errno)
  | .ok stat =>
    if stat.isDir then
      let known := UInt32.ofNat flags &&& (ignoreXdevSymlinks ||| ignoreSpecialFiles)
      let pre := { server.pre with path := path.bytes, flags := server.pre.flags ||| known }
      answerStatus { server with pre } [.getstat name] id sshFxOk
    else answerStatus server [.getstat name] id sshFxNotADirectory

/-- The length of the path is added once more for the check. -/
def cbExtSetPrefix (data : Bytes) (pos : ℕ) : Except ServerFault Reaction :=
  if 0 < server.pre.path.length then answerStatus server [] id sshFxFailure
  else if u32 (pos + 8) ≤ data.length then do
    let len ← bodyUint32 data pos
    let start := u32 (pos + 4)
    let pos := u32 (start + len)
    if u32 (pos + len + 8) ≤ data.length then do
      let path ← completePath server.home server.pre data start len
      let flags ← bodyUint32 data pos
      setprefixPath server host id path flags
    else answerStatus server [] id sshFxBadMessage
  else answerStatus server [] id sshFxBadMessage

/-! ## Status of a file system -/

/-- The status for an error of `cb_ext_statvfs`. `system_getstatvfs` returns -1 and not the error. -/
def statvfsStatus (result : ℕ) : ℕ :=
  if result = eNOENT then sshFxNoSuchFile
  else if result = eACCES then sshFxPermissionDenied
  else if result = eNOTDIR then sshFxNotADirectory
  else sshFxFailure

def statvfsBytes (stat : SystemStatvfs) : Bytes :=
  [stat.blocksize, stat.fragmentsize, stat.nrblocks, stat.freeblocks, stat.availblocks, stat.nrinodes,
    stat.freeinodes, stat.availinodes, stat.fsid, stat.mountflags, stat.namemax].flatMap
      fun value => storeUint64 value.toNat

/-- The rest of `cb_ext_statvfs` for the full path. -/
def statvfsPath (path : FsPath) : Except ServerFault Reaction :=
  let name := systemPath path.bytes []
  match host.statvfs name with
  | some stat => answer server [.statvfs name] (replySftpExtension id (statvfsBytes stat))
  | none => answerStatus server [.statvfs name] id (statvfsStatus 1)

def cbExtStatvfs (data : Bytes) (pos : ℕ) : Except ServerFault Reaction :=
  if u32 (pos + 4) ≤ data.length then do
    let len ← bodyUint32 data pos
    let start := u32 (pos + 4)
    if u32 (start + len) ≤ data.length then do
      let path ← completePath server.home server.pre data start len
      statvfsPath server host id path
    else answerStatus server [] id sshFxBadMessage
  else answerStatus server [] id sshFxBadMessage

/-! ## Handles -/

/-- The status for an error of `cb_ext_fsync`. `fsync` returns -1 and not the error. -/
def fsyncStatus (result : ℕ) : ℕ :=
  if result = eNOSPC then sshFxNoSpaceOnFilesystem
  else if result = eDQUOT then sshFxQuotaExceeded
  else sshFxFailure

/-- The rest of `cb_ext_fsync` for the handle that has been found. -/
def fsyncHandle (found : Option FsHandle) : Except ServerFault Reaction :=
  match found with
  | none => answerStatus server [] id sshFxInvalidHandle
  | some handle =>
    answerStatus server [.fsync handle] id (if host.fsync handle then sshFxOk else fsyncStatus 1)

def cbExtFsync (data : Bytes) (pos : ℕ) : Except ServerFault Reaction :=
  if u32 (pos + 24) ≤ data.length then do
    let len ← bodyUint32 data pos
    if len = getFsHandleBufferSize then do
      let found ← getFsHandle server.handles server.unique data (u32 (pos + 4)) len
      fsyncHandle server host id found
    else answerStatus server [] id sshFxInvalidHandle
  else answerStatus server [] id sshFxBadMessage

/-- The rest of `cb_ext_fstatat` for the fields behind the handle. The socket of the handle is not set:
NULL is used for a directory and for an empty path. -/
def fstatatHandle (handle : FsHandle) (pathLen : ℕ) : Except ServerFault Reaction :=
  if pathLen = 0 then .error .null
  else
    match handle.socket with
    | .dir _ => .error .null
    | .file => answerStatus server [] id sshFxInvalidParameter

/-- The valid bits and the flags are read. -/
def cbExtFstatat (_host : Host) (id : UInt32) (data : Bytes) (pos : ℕ) :
    Except ServerFault Reaction :=
  if u32 (pos + 36) ≤ data.length then do
    let len ← bodyUint32 data pos
    if len = getFsHandleBufferSize then do
      let found ← getFsHandle server.handles server.unique data (u32 (pos + 4)) len
      match found with
      | none => answerStatus server [] id sshFxInvalidHandle
      | some handle => do
        let pathLen ← bodyUint32 data (u32 (pos + 24))
        let start := u32 (pos + 28)
        if u32 (start + pathLen + 8) ≤ data.length then do
          let _ ← bodyUint32 data (u32 (start + pathLen))
          let _ ← bodyUint32 data (u32 (start + pathLen + 4))
          fstatatHandle server id handle pathLen
        else answerStatus server [] id sshFxBadMessage
    else answerStatus server [] id sshFxInvalidHandle
  else answerStatus server [] id sshFxBadMessage

/-! ## Codes for extensions -/

/-- The first code from 210 to 255 whose callback is not set. -/
def findFreeSftpCode : Option UInt8 :=
  ((List.range' 210 46).map UInt8.ofNat).find? fun code => server.cb code == .notsupported

/-- The rest of `cb_ext_mapextension` for the extension that has been found. -/
def mapextensionAction (ext : SftpExtension) (action : UInt8) : Except ServerFault Reaction :=
  if action = 1 then
    if server.code ext = 0 then
      match findFreeSftpCode server with
      | some code =>
        answer
          { server with
            cb := Function.update server.cb code (.mapped ext)
            code := Function.update server.code ext code }
          [] (replySftpExtension id [code])
      | none => answerStatus server [] id sshFxFailure
    else answerStatus server [] id sshFxInvalidParameter
  else if action = 0 then
    if server.code ext = 0 then answerStatus server [] id sshFxInvalidParameter
    else
      answerStatus
        { server with
          cb := Function.update server.cb (server.code ext) .notsupported
          code := Function.update server.code ext 0 }
        [] id sshFxOk
  else answerStatus server [] id sshFxInvalidParameter

/-- The length of the name is added once more for the check. -/
def cbExtMapextension (_host : Host) (id : UInt32) (data : Bytes) (pos : ℕ) :
    Except ServerFault Reaction :=
  if u32 (pos + 5) < data.length then do
    let len ← bodyUint32 data pos
    let start := u32 (pos + 4)
    let pos := u32 (start + len)
    if u32 (pos + len + 5) ≤ data.length then do
      let found ← findSftpProtocolExtension server.extensionMask data start len
      match found with
      | none => answerStatus server [] id sshFxOpUnsupported
      | some ext => do
        let action ← bodyByte data pos
        mapextensionAction server id ext action
    else answerStatus server [] id sshFxBadMessage
  else answerStatus server [] id sshFxBadMessage

/-! ## Requests -/

/-- The callback `cb` of an extension, with the position of its data. -/
def cbExt : SftpExtension → SftpServer → Host → UInt32 → Bytes → ℕ → Except ServerFault Reaction
  | .setPrefix => cbExtSetPrefix
  | .statvfs => cbExtStatvfs
  | .fsync => cbExtFsync
  | .fstatat => cbExtFstatat
  | .mapextension => cbExtMapextension

/-- An empty name is not allowed. -/
def sftpOpExtension (data : Bytes) : Except ServerFault Reaction :=
  let read := readSshString data
  if 4 < read.1 ∧ read.1 ≤ data.length then do
    let found ← findSftpProtocolExtension server.extensionMask data 4 read.2.len
    match found with
    | none => answerStatus server [] id sshFxOpUnsupported
    | some ext => cbExt ext server host id data read.1
  else answerStatus server [] id sshFxBadMessage

/-- `process_sftp_data` for a request in the right form: the callback of its type is called. A code that
stands for an extension has no name in front of its data. -/
def serve (type : UInt8) (id : UInt32) (data : Bytes) : Except ServerFault Reaction :=
  match server.cb type with
  | .notsupported => answerStatus server [] id sshFxOpUnsupported
  | .operation op => sftpOp op server host id data
  | .extension => sftpOpExtension server host id data
  | .mapped ext => cbExt ext server host id data 0

end Osns
