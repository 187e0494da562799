import Osns.Model.Fuse.OpenHeader
import Osns.Model.Packet

/-! FUSE requests with names, after `lib/fuse/request.c`: the strings that a filesystem is called with. -/

namespace Osns

/-! ## Strings -/

/-- `strlen`, which reads behind a buffer without a NUL. -/
def strlen (s : Bytes) : Except Fault ℕ := inBounds (s.findIdx? (· = 0))

/-- A string as an argument: what stands in the buffer from the pointer on, and the length where one is
passed with it. -/
structure FuseString where
  ptr : Bytes
  len : Option ℕ
  deriving DecidableEq, Repr

/-- The text that the filesystem gets. -/
def FuseString.text (s : FuseString) : Except Fault Bytes :=
  match s.len with
  | some len => inBounds (Buffer.load s.ptr 0 len)
  | none => do
    let len ← strlen s.ptr
    return s.ptr.take len

def fuseStringAt (data : Bytes) (off : ℕ) : Except Fault FuseString := do
  let len ← strlen (data.drop off)
  return { ptr := data.drop off, len := some (u32 len) }

/-! ## Requests -/

/-- The fields of `struct fuse_request_s` that are used here. `size` is the size of the data. -/
structure FuseRequest where
  ino : UInt64
  size : ℕ

/-- The inodes, whether there is memory for an open file, and the numbers in the order of bytes of the
machine. -/
structure FuseFs (ι : Type) where
  rootinode : ι
  lookupWorkspaceInode : UInt64 → Option ι
  malloc : Bool
  native : Bytes → ℕ

/-- A call of the filesystem of a directory. -/
inductive FuseCall (ι : Type)
  | lookup (inode : ι) (name : FuseString)
  | mkdir (inode : ι) (name : FuseString) (mode umask : ℕ)
  | mknod (inode : ι) (name : FuseString) (mode rdev umask : ℕ)
  | symlink (inode : ι) (name target : FuseString)
  | unlink (inode : ι) (name : FuseString)
  | rmdir (inode : ι) (name : FuseString)
  | rename (inode : ι) (oldname : FuseString) (newinode : ι) (newname : FuseString) (flags : ℕ)
  | create (inode : ι) (name : FuseString) (flags mode umask : ℕ)
  deriving DecidableEq, Repr

inductive FuseOutcome (ι : Type)
  | call (call : FuseCall ι)
  | error (errcode : VfsError)
  deriving DecidableEq, Repr

def fuseRootId : UInt64 := 1

def oCREAT : ℕ := 64

namespace FuseFs

variable {ι : Type} (fs : FuseFs ι) (request : FuseRequest) (data : Bytes)

/-- A field of a structure in front of the names. -/
def field (off size : ℕ) : Except Fault ℕ := fs.native <$> inBounds (Buffer.load data off size)

def inode (ino : UInt64) : Option ι :=
  if ino = fuseRootId then some fs.rootinode else fs.lookupWorkspaceInode ino

/-- `_fuse_fs_cb_common` -/
def cbCommon (cb : ι → Except Fault (FuseCall ι)) : Except Fault (FuseOutcome ι) :=
  match fs.inode request.ino with
  | some inode => .call <$> cb inode
  | none => return .error .enoent

/-- The requests with a name and nothing else. -/
def nameCommon (call : ι → FuseString → FuseCall ι) : Except Fault (FuseOutcome ι) :=
  fs.cbCommon request fun inode => do
    let name ← fuseStringAt data 0
    return call inode name

def fuseFsLookup : Except Fault (FuseOutcome ι) := fs.nameCommon request data .lookup

def fuseFsUnlink : Except Fault (FuseOutcome ι) := fs.nameCommon request data .unlink

def fuseFsRmdir : Except Fault (FuseOutcome ι) := fs.nameCommon request data .rmdir

def fuseFsMkdir : Except Fault (FuseOutcome ι) :=
  fs.cbCommon request fun inode => do
    let name ← fuseStringAt data 8
    let mode ← fs.field data 0 4
    let umask ← fs.field data 4 4
    return .mkdir inode name mode umask

def fuseFsMknod : Except Fault (FuseOutcome ι) :=
  fs.cbCommon request fun inode => do
    let name ← fuseStringAt data 16
    let mode ← fs.field data 0 4
    let rdev ← fs.field data 4 4
    let umask ← fs.field data 8 4
    return .mknod inode name mode rdev umask

/-- The pointer to the target is not moved behind the NUL of the name. -/
def fuseFsSymlink : Except Fault (FuseOutcome ι) :=
  fs.cbCommon request fun inode => do
    let name ← fuseStringAt data 0
    let len0 ← strlen data
    let target ← fuseStringAt data (u32 len0)
    return .symlink inode name target

/-- The new name starts at the NUL of the old one. No lengths are passed. -/
def fuseFsRename : Except Fault (FuseOutcome ι) := do
  let newino ← fs.field data 0 8
  let len ← strlen (data.drop 8)
  match fs.inode request.ino with
  | none => return .error .enoent
  | some inode =>
    match fs.inode (UInt64.ofNat newino) with
    | none => return .error .enoent
    | some newinode =>
      return .call (.rename inode { ptr := data.drop 8, len := none } newinode
        { ptr := data.drop (8 + len), len := none } 0)

/-- The root is not handled apart, and the length of the name is what is left of the data. -/
def fuseFsCreate : Except Fault (FuseOutcome ι) :=
  match fs.lookupWorkspaceInode request.ino with
  | none => return .error .enoent
  | some inode =>
    if fs.malloc then do
      let flags ← fs.field data 0 4
      let mode ← fs.field data 4 4
      let umask ← fs.field data 8 4
      return .call (.create inode { ptr := data.drop 16, len := some (u32Sub request.size 16) }
        (flags ||| oCREAT) mode umask)
    else return .error .enomem

end FuseFs

inductive FuseNameOp
  | lookup
  | mknod
  | mkdir
  | symlink
  | unlink
  | rmdir
  | rename
  | create
  deriving DecidableEq, Repr

def FuseNameOp.cb {ι : Type} : FuseNameOp → FuseFs ι → FuseRequest → Bytes → Except Fault (FuseOutcome ι)
  | .lookup => FuseFs.fuseFsLookup
  | .mknod => FuseFs.fuseFsMknod
  | .mkdir => FuseFs.fuseFsMkdir
  | .symlink => FuseFs.fuseFsSymlink
  | .unlink => FuseFs.fuseFsUnlink
  | .rmdir => FuseFs.fuseFsRmdir
  | .rename => FuseFs.fuseFsRename
  | .create => FuseFs.fuseFsCreate

end Osns
