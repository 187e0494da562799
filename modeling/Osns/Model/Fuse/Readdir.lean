import Osns.Library.Loop
import Osns.Model.Word

/-! The listing of a directory, after `lib/fuse/fs-common.c`, `opendir.c` and `utils-public.c`. -/

namespace Osns

/-- What `struct system_stat_s` of an inode says: the number, and the type as bits of the mode. -/
structure FuseInode where
  ino : ℕ
  type : ℕ
  deriving DecidableEq, Repr

/-- `struct entry_s` with `_ENTRY_FLAG_SPECIAL`. -/
structure FuseEntry where
  name : Bytes
  inode : FuseInode
  special : Bool
  deriving DecidableEq, Repr

structure FuseDirent where
  ino : ℕ
  off : ℕ
  type : ℕ
  name : Bytes
  deriving DecidableEq, Repr

structure DirentryBuffer where
  size : ℕ
  pos : ℕ
  offset : ℕ
  data : List FuseDirent
  deriving DecidableEq, Repr

/-- `struct fuse_opendir_s` with its flags: READDIRPLUS, HIDE_SPECIALFILES, HIDE_DOTFILES, EOD, FINISH,
and as one flag INCOMPLETE and ERROR. -/
structure FuseOpendir where
  plus : Bool
  hideSpecialfiles : Bool
  hideDotfiles : Bool
  ino : ℕ
  eod : Bool
  finish : Bool
  failed : Bool
  deriving DecidableEq, Repr

/-- `dotxname` and `dotdotxname`. -/
def dotName : Bytes := [46]

def dotdotName : Bytes := [46, 46]

/-- The space of an entry: the structure up to the name and the name, in units of 8 bytes. -/
def direntSize (plus : Bool) (name : Bytes) : ℕ :=
  ((if plus then 152 else 24) + name.length + 7) / 8 * 8

/-- `copy_stat_direntry_buffer` -/
def direntOf (name : Bytes) (inode : FuseInode) (offset : ℕ) : FuseDirent :=
  { ino := inode.ino, off := offset + 1, type := inode.type >>> 12, name }

namespace FuseOpendir

/-- `add_direntry_buffer` and `add_direntry_plus_buffer` -/
def addDirentry (o : FuseOpendir) (b : DirentryBuffer) (name : Bytes) (inode : FuseInode) :
    Option DirentryBuffer :=
  if direntSize o.plus name ≤ b.size - b.pos then
    some
      { b with
        pos := b.pos + direntSize o.plus name
        offset := b.offset + 1
        data := b.data ++ [direntOf name inode b.offset] }
  else none

/-- `hidefile_default` -/
def hidefile (o : FuseOpendir) (e : FuseEntry) : Bool :=
  o.hideSpecialfiles && e.special ||
    o.hideDotfiles && e.name[0]? == some 46 && decide (1 < e.name.length) && e.name[1]? != some 46

end FuseOpendir

/-- A directory with the inode of its parent and its entries. The number of an inode leads to the first
entry that has it. -/
structure FuseDirectory where
  inode : FuseInode
  parent : Option FuseInode
  entries : List FuseEntry
  deriving DecidableEq, Repr

/-- The offset for the next call: that of the last entry. -/
def nextOffset (offset : ℕ) (reply : List FuseDirent) : ℕ := (reply.getLast?.map (·.off)).getD offset

/-! ## Virtual directories -/

/-- The variables of `_fs_common_virtual_readdir`. The pointer `entry` is the list from the entry on. -/
structure VirtualReaddir where
  opendir : FuseOpendir
  direntries : DirentryBuffer
  entry : List FuseEntry
  ino2keep : ℕ

namespace VirtualReaddir

/-- What the call ends with. -/
abbrev Step := Loop.Step VirtualReaddir (FuseOpendir × List FuseDirent)

/-- An entry that does not fit ends the call. -/
def add (s : VirtualReaddir) (name : Bytes) (inode : FuseInode) : Step :=
  match s.opendir.addDirentry s.direntries name inode with
  | some direntries => .next { s with direntries }
  | none => .done ({ s.opendir with ino := s.ino2keep }, s.direntries.data)

def resume (d : FuseDirectory) (s : VirtualReaddir) : VirtualReaddir :=
  if 0 < s.opendir.ino then
    let found := d.entries.dropWhile (·.inode.ino ≠ s.opendir.ino)
    { s with
      opendir := { s.opendir with ino := 0 }
      entry := if found.isEmpty then s.entry else found }
  else s

/-- The number that is kept is the one of the entry behind, if there is one. -/
def entryStep (s : VirtualReaddir) : Step :=
  match s.entry with
  | [] => .done ({ s.opendir with finish := true }, s.direntries.data)
  | e :: rest =>
    let s' := { s with entry := rest, ino2keep := (rest.head?.map (·.inode.ino)).getD s.ino2keep }
    if s.opendir.hidefile e then .next s' else s'.add e.name e.inode

def pass (d : FuseDirectory) (s : VirtualReaddir) : Step :=
  if s.direntries.pos < s.direntries.size ∧ ¬ s.opendir.finish ∧ ¬ s.opendir.failed then
    match s.direntries.offset with
    | 0 => { s with entry := d.entries, ino2keep := 0 }.add dotName d.inode
    | 1 => { s with ino2keep := 0 }.add dotdotName (d.parent.getD d.inode)
    | _ => (s.resume d).entryStep
  else .done (s.opendir, s.direntries.data)

end VirtualReaddir

/-- Every pass but the last adds a dot or moves on by an entry. -/
def fsCommonVirtualReaddir (d : FuseDirectory) (opendir : FuseOpendir) (size offset : ℕ) :
    Option (FuseOpendir × List FuseDirent) :=
  Loop.run (VirtualReaddir.pass d) (d.entries.length + 3)
    { opendir, direntries := { size, pos := 0, offset, data := [] }, entry := [], ino2keep := 0 }

def virtualReplies (d : FuseDirectory) : FuseOpendir → ℕ → List ℕ → Option (List (List FuseDirent))
  | _, _, [] => some []
  | opendir, offset, size :: sizes => do
    let (opendir, reply) ← fsCommonVirtualReaddir d opendir size offset
    let replies ← virtualReplies d opendir (nextOffset offset reply) sizes
    return reply :: replies

/-! ## Directories that are read in the background -/

/-- `_fs_common_readdir` beside the thread that queues the entries. `request` is the buffer of the call
that is going on, with `FUSE_REQUEST_FLAG_INTERRUPTED`. What has been queued and the replies are history. -/
structure FuseReaddir where
  opendir : FuseOpendir
  entries : List FuseEntry
  request : Option (DirentryBuffer × Bool)
  offset : ℕ
  queued : List FuseEntry
  replies : List (List FuseDirent)
  deriving DecidableEq, Repr

/-- What happens next. A pass takes an entry of the queue, or waits for one until the time has expired. -/
inductive FuseReaddirAction
  | queue (e : FuseEntry)
  | eod
  | fail
  | readdir (size : ℕ)
  | interrupt
  | pass (expired : Bool)
  deriving DecidableEq, Repr

namespace FuseReaddir

variable (d : FuseDirectory) (lookup : ℕ → Option FuseEntry) (s : FuseReaddir)

/-- `reply_VFS_data` -/
def reply (data : List FuseDirent) : FuseReaddir :=
  { s with request := none, offset := nextOffset s.offset data, replies := s.replies ++ [data] }

def keep (ino : ℕ) : FuseReaddir := { s with opendir := { s.opendir with ino } }

def add (b : DirentryBuffer) (name : Bytes) (inode : FuseInode) (ino2keep : ℕ) : FuseReaddir :=
  match s.opendir.addDirentry b name inode with
  | some b => { s with request := some (b, false) }
  | none => (s.keep ino2keep).reply b.data

def kept : Option FuseEntry := if 0 < s.opendir.ino then lookup s.opendir.ino else none

/-- The entry that has been kept, else `get_fuse_direntry`, which waits as long as the queue is empty. -/
def addEntry (b : DirentryBuffer) (expired : Bool) : Option FuseReaddir :=
  match s.kept lookup, s.entries with
  | some e, entries => some ({ s.keep 0 with entries }.add b e.name e.inode e.inode.ino)
  | none, e :: entries => some ({ s.keep 0 with entries }.add b e.name e.inode e.inode.ino)
  | none, [] => if s.opendir.eod ∨ s.opendir.finish ∨ expired then some ((s.keep 0).reply b.data) else none

def pass (expired : Bool) : Option FuseReaddir :=
  s.request.bind fun (b, interrupted) =>
    if b.pos < b.size ∧ ¬ interrupted ∧ ¬ s.opendir.failed then
      match b.offset with
      | 0 => some (s.add b dotName d.inode 0)
      | 1 => some (s.add b dotdotName (d.parent.getD d.inode) 0)
      | _ => s.addEntry lookup b expired
    else some (s.reply b.data)

end FuseReaddir

/-- The table `lookup` of the inodes gives the entry that an inode belongs to. -/
def readdirStep (d : FuseDirectory) (lookup : ℕ → Option FuseEntry) (s : FuseReaddir) :
    FuseReaddirAction → Option FuseReaddir
  | .queue e => some { s with entries := s.entries ++ [e], queued := s.queued ++ [e] }
  | .eod => some { s with opendir := { s.opendir with eod := true } }
  | .fail => some { s with opendir := { s.opendir with failed := true } }
  | .readdir size =>
    if s.request.isNone then
      some { s with request := some ({ size, pos := 0, offset := s.offset, data := [] }, false) }
    else none
  | .interrupt => s.request.map fun r => { s with request := some (r.1, true) }
  | .pass expired => s.pass d lookup expired

end Osns
