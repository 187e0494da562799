import Osns.Library.Loop
import Osns.Model.SftpServer.Reply

/-! Paths on the server, after `ssh/subsystem/sftp/path.c` and `lib/fspath`. There is always enough stack
for a buffer of the computed size. -/

namespace Osns

/-- A `struct fs_path_s` that starts at the front of its buffer: the size of the buffer and the bytes
that have been put there. -/
structure FsPath where
  size : ℕ
  bytes : Bytes
  deriving DecidableEq, Repr

/-- Whatever is in the buffer, the path is empty. -/
def fsPathAssignBuffer (size : ℕ) : FsPath := { size, bytes := [] }

/-- `fs_path_append_raw` for a buffer that cannot grow: what does not fit is left out. -/
def fsPathAppendRaw (location : FsPath) (len : ℕ) (bytes : Except ServerFault Bytes) :
    Except ServerFault FsPath :=
  if u32Sub location.size location.bytes.length ≤ len then .ok location
  else do
    let bytes ← bytes
    return { location with bytes := location.bytes ++ bytes }

/-- The values of `get_length_fullpath`. -/
inductive LengthFullpath
  | noPrefix
  | prefixed
  deriving DecidableEq, Repr

/-- The prefix that has not been set is empty. -/
structure SftpPrefix where
  path : Bytes
  flags : UInt32
  getLengthFullpath : LengthFullpath
  deriving DecidableEq, Repr

def initSftpPrefix : SftpPrefix := { path := [], flags := 0, getLengthFullpath := .noPrefix }

/-- The character `/`. -/
def slash : UInt8 := 0x2f

/-- A path of the request starts with a slash. Its first byte is looked at when it has one. -/
def isAbsolute (data : Bytes) (pos len : ℕ) : Except ServerFault Bool :=
  if 0 < len then do
    let first ← bodyByte data pos
    return first == slash
  else return false

/-- `path_append_shared` behind a directory: the home directory or the prefix. -/
def pathAppendShared (directory data : Bytes) (pos len : ℕ) (location : FsPath) :
    Except ServerFault FsPath := do
  let location ← fsPathAppendRaw location directory.length (.ok directory)
  let location ← fsPathAppendRaw location 1 (.ok [slash])
  fsPathAppendRaw location len (bodyLoad data pos len)

/-- `get_length_fullpath` and `convert.complete` for the path of `len` bytes at `pos`, in a buffer of
the size that the first one returns and one more byte. -/
def completePath (home : Bytes) (pre : SftpPrefix) (data : Bytes) (pos len : ℕ) :
    Except ServerFault FsPath := do
  let absolute ← isAbsolute data pos len
  let shared := fun directory : Bytes =>
    pathAppendShared directory data pos len
      (fsPathAssignBuffer (u32 (u32 (len + 1 + directory.length) + 1)))
  if absolute then
    match pre.getLengthFullpath with
    | .noPrefix => fsPathAppendRaw (fsPathAssignBuffer (u32 (len + 1))) len (bodyLoad data pos len)
    | .prefixed => shared pre.path
  else shared home

/-- A path as the system sees it: up to the first zero byte, which may come in what lies behind it. -/
def systemPath (bytes behind : Bytes) : Bytes := (bytes ++ behind).takeWhile (· ≠ 0)

/-! ## Symbolic links -/

/-- One attempt of `fs_path_get_target_unix_symlink` to read the target into a buffer of `size` bytes.
`readlink` gives at most that many. There is no buffer when the size has wrapped around to zero. -/
def readlinkPass (readlink : Bytes → ℕ → Except ℕ Bytes) (path : Bytes) (size : ℕ) :
    Loop.Step ℕ (Except ℕ Bytes) :=
  if size = 0 then .done (.error eNOMEM)
  else
    match readlink path size with
    | .error errno => .done (.error errno)
    | .ok target =>
      if size ≤ (target.take size).length then .next (u32 (size + 64))
      else .done (.ok (target.take size))

/-- The sizes are the multiples of 64 below 2^32, and zero. -/
def readlinkFuel : ℕ := 2 ^ 26 + 1

def fsPathGetTargetUnixSymlink (readlink : Bytes → ℕ → Except ℕ Bytes) (location : FsPath) :
    Option (Except ℕ Bytes) :=
  if location.bytes.length = 0 then some (.error eINVAL)
  else Loop.run (readlinkPass readlink (systemPath location.bytes [])) readlinkFuel 64

end Osns
