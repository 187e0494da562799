import Mathlib.Data.Nat.Notation
import Mathlib.Logic.Function.Basic

/-! Open files and directories of a FUSE filesystem, after `lib/fuse/request.c`. The handle that the
kernel gets for an object is the address of the object. -/

namespace Osns

/-- `FUSE_OPEN_TYPE_DIR` and `FUSE_OPEN_TYPE_FILE`. -/
inductive FuseOpenType
  | dir
  | file
  deriving DecidableEq, Repr

/-- `struct fuse_open_header_s` at its address, with the number of its inode. -/
structure FuseOpenHeader where
  address : UInt64
  type : FuseOpenType
  ino : UInt64
  deriving DecidableEq, Repr

def fuseOpenHashtableSize : ℕ := 64

def fuseOpenHashvalue (fh : UInt64) : ℕ := fh.toNat % fuseOpenHashtableSize

/-- The rows of `hashtable`. -/
abbrev FuseOpenHashtable := ℕ → List FuseOpenHeader

def initFuseOpenHashtable : FuseOpenHashtable := fun _ => []

variable (t : FuseOpenHashtable)

def addFuseOpenHashtable (oh : FuseOpenHeader) : FuseOpenHashtable :=
  Function.update t (fuseOpenHashvalue oh.address) (oh :: t (fuseOpenHashvalue oh.address))

/-- The walk of `get_fuse_open_header` along a row. At its end `oh` is still the last element that has
been compared. -/
def walkFuseOpenHeaders (fh : UInt64) : Option FuseOpenHeader → List FuseOpenHeader → Option FuseOpenHeader
  | oh, [] => oh
  | _, oh :: list => if oh.address = fh then some oh else walkFuseOpenHeaders fh (some oh) list

def getFuseOpenHeader (fh : UInt64) : Option FuseOpenHeader :=
  walkFuseOpenHeaders fh none (t (fuseOpenHashvalue fh))

def removeFuseOpenHashtable (oh : FuseOpenHeader) : FuseOpenHashtable :=
  Function.update t (fuseOpenHashvalue oh.address)
    ((t (fuseOpenHashvalue oh.address)).eraseP (·.address = oh.address))

/-! ## Requests -/

inductive VfsError
  | eio
  | enoent
  | enomem
  deriving DecidableEq, Repr

/-- The reply to a request: the one of the function that is called, or an error. -/
inductive VfsReply
  | subcall
  | error (errcode : VfsError)
  deriving DecidableEq, Repr

/-- `_fuse_fs_open`, and `fuse_fs_create` behind the call of `create`. An object without an error gets
into the table after the call. -/
def fuseFsOpen (inode malloc : Option UInt64) (error : ℕ) : FuseOpenHashtable × VfsReply :=
  match inode with
  | none => (t, .error .enoent)
  | some ino =>
    match malloc with
    | none => (t, .error .enomem)
    | some address =>
      if error = 0 then (addFuseOpenHashtable t { address, type := .file, ino }, .subcall)
      else (t, .subcall)

/-- The object is in the table during the call, and taken out after an error. -/
def fuseFsOpendir (inode malloc : Option UInt64) (error : ℕ) : FuseOpenHashtable × VfsReply :=
  match inode with
  | none => (t, .error .enoent)
  | some ino =>
    match malloc with
    | none => (t, .error .enomem)
    | some address =>
      let oh := { address, type := .dir, ino }
      let t := addFuseOpenHashtable t oh
      if 0 < error then (removeFuseOpenHashtable t oh, .subcall) else (t, .subcall)

/-- The object for a handle is removed when it has the right type and inode. -/
def fuseFsReleaseCommon (type : FuseOpenType) (t : FuseOpenHashtable) (ino fh : UInt64) :
    FuseOpenHashtable × VfsReply :=
  match getFuseOpenHeader t fh with
  | some oh =>
    if oh.type = type ∧ oh.ino = ino then (removeFuseOpenHashtable t oh, .subcall) else (t, .error .eio)
  | none => (t, .error .eio)

def fuseFsRelease : FuseOpenHashtable → UInt64 → UInt64 → FuseOpenHashtable × VfsReply :=
  fuseFsReleaseCommon .file

def fuseFsReleasedir : FuseOpenHashtable → UInt64 → UInt64 → FuseOpenHashtable × VfsReply :=
  fuseFsReleaseCommon .dir

/-- A request that opens or closes. With it goes what is not decided here: the inode that is found (for
`create`, the one that its object has behind the call), the address that `malloc` returns and the error
that the filesystem sets in the object. -/
inductive FuseOpenRequest
  | open (inode malloc : Option UInt64) (error : ℕ)
  | create (inode malloc : Option UInt64) (error : ℕ)
  | opendir (inode malloc : Option UInt64) (error : ℕ)
  | release (ino fh : UInt64)
  | releasedir (ino fh : UInt64)
  deriving DecidableEq, Repr

def FuseOpenRequest.handle : FuseOpenRequest → FuseOpenHashtable × VfsReply
  | .open inode malloc error => fuseFsOpen t inode malloc error
  | .create inode malloc error => fuseFsOpen t inode malloc error
  | .opendir inode malloc error => fuseFsOpendir t inode malloc error
  | .release ino fh => fuseFsRelease t ino fh
  | .releasedir ino fh => fuseFsReleasedir t ino fh

end Osns
