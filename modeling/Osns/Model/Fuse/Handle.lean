import Osns.Library.Chains
import Osns.Model.Word

/-! Handles of open files and directories in a hashtable by inode number, after `lib/fuse/handle.c`. -/

namespace Osns

/-- A `struct fuse_handle_s` at its address. -/
structure FuseHandle where
  address : ℕ
  ctx : ℕ
  ino : UInt64
  refcount : ℕ
  flags : UInt32
  deriving DecidableEq

/-- `FUSE_HANDLE_FLAG_ALLOC`, `FUSE_HANDLE_FLAG_RELEASE` and `FUSE_HANDLE_FLAG_FSTATAT` -/
def fuseHandleAlloc : UInt32 := 1
def fuseHandleRelease : UInt32 := 8
def fuseHandleFstatat : UInt32 := 0x100000

def fuseHandleHash (ino : UInt64) : ℕ := ino.toNat % 73

abbrev FuseHandles := ℕ → List FuseHandle

namespace FuseHandles

variable (t : FuseHandles)

def createFuseHandle (address ctx : ℕ) (ino : UInt64) : FuseHandles :=
  Chains.add fuseHandleHash FuseHandle.ino t ⟨address, ctx, ino, 1, fuseHandleAlloc⟩

def change (address : ℕ) (ino : UInt64) (f : FuseHandle → FuseHandle) : FuseHandles :=
  Function.update t (fuseHandleHash ino)
    (Chains.modifyFirst (·.address = address) f (t (fuseHandleHash ino)))

def matchHandle (root : ℕ → ℕ) (ctx : ℕ) (ino : UInt64) (h : FuseHandle) : Bool :=
  h.ino = ino ∧ root h.ctx = ctx

def usable (flag : UInt32) (h : FuseHandle) : Bool :=
  h.flags &&& fuseHandleRelease = 0 ∧ h.flags &&& flag ≠ 0

/-- The loop ends at the first handle of the inode in this root context. -/
def walk (root : ℕ → ℕ) (ctx : ℕ) (ino : UInt64) (flag : UInt32) : List FuseHandle → Option FuseHandle
  | [] => none
  | h :: list =>
    if matchHandle root ctx ino h then
      if usable flag h then some h else none
    else walk root ctx ino flag list

def getFuseHandle (root : ℕ → ℕ) (ctx : ℕ) (ino : UInt64) (flag : UInt32) :
    Option FuseHandle × FuseHandles :=
  match walk root ctx ino flag (t (fuseHandleHash ino)) with
  | none => (none, t)
  | some h => (some h, t.change h.address ino fun h => { h with refcount := u32 (h.refcount + 1) })

/-- A handle that is not used any more is taken out when it has been released. -/
def postFuseHandle (address : ℕ) (ino : UInt64) (flag : UInt32) : FuseHandles :=
  let t := t.change address ino fun h =>
    { h with refcount := h.refcount - 1, flags := h.flags ||| flag }
  Function.update t (fuseHandleHash ino) ((t (fuseHandleHash ino)).eraseP fun h =>
    h.address = address ∧ h.flags &&& fuseHandleRelease ≠ 0 ∧ h.refcount = 0)

end FuseHandles

/-- What changes the table. The creator of a handle adds flags to it. -/
inductive FuseHandleOp
  | create (address ctx : ℕ) (ino : UInt64)
  | addFlags (address : ℕ) (ino : UInt64) (flags : UInt32)
  | get (root : ℕ → ℕ) (ctx : ℕ) (ino : UInt64) (flag : UInt32)
  | post (address : ℕ) (ino : UInt64) (flag : UInt32)

def FuseHandles.step (t : FuseHandles) : FuseHandleOp → Option FuseHandles
  | .create address ctx ino => some (t.createFuseHandle address ctx ino)
  | .addFlags address ino flags =>
    some (t.change address ino fun h => { h with flags := h.flags ||| flags })
  | .get root ctx ino flag => some (t.getFuseHandle root ctx ino flag).2
  | .post address ino flag => some (t.postFuseHandle address ino flag)

/-! ## The threads that use the handles

A handle is what one call of `create_fuse_handle` gives. -/

variable {α τ : Type}

/-- A handle with the threads that have a reference, one entry for each, and those that have loaded
its count in a lookup. -/
structure HandleUse (τ : Type) where
  handle : FuseHandle
  linked : Bool
  freed : ℕ
  users : List τ
  loads : List (τ × ℕ)

inductive HandleAction (τ : Type)
  | load (t : τ) (flag : UInt32)
  | store (t : τ) (count : ℕ)
  | use (t : τ)
  | post (t : τ) (flag : UInt32)

def HandleUse.create (t : τ) (ctx : ℕ) (ino : UInt64) : HandleUse τ :=
  ⟨⟨0, ctx, ino, 1, fuseHandleAlloc⟩, true, 0, [t], []⟩

variable [DecidableEq τ]

/-- The read lock of a lookup keeps the calls with the write lock out, but no other lookup. -/
def HandleUse.step (u : HandleUse τ) : HandleAction τ → Option (HandleUse τ)
  | .load t flag =>
    if u.linked ∧ FuseHandles.usable flag u.handle then
      some { u with loads := (t, u.handle.refcount) :: u.loads }
    else none
  | .store t count =>
    if (t, count) ∈ u.loads then
      some { u with
        handle.refcount := u32 (count + 1), users := t :: u.users, loads := u.loads.erase (t, count) }
    else none
  | .use t =>
    if t ∈ u.users ∧ u.loads = [] then
      some { u with handle.refcount := u32 (u.handle.refcount + 1), users := t :: u.users }
    else none
  | .post t flag =>
    if t ∈ u.users ∧ u.loads = [] then
      let u := { u with
        handle.refcount := u.handle.refcount - 1
        handle.flags := u.handle.flags ||| flag, users := u.users.erase t }
      if u.handle.flags &&& fuseHandleRelease ≠ 0 ∧ u.handle.refcount = 0 then
        some { u with linked := false, freed := u.freed + 1 }
      else some u
    else none

inductive HandlesAction (α τ : Type)
  | create (a : α) (t : τ) (ctx : ℕ) (ino : UInt64)
  | act (a : α) (action : HandleAction τ)

variable [DecidableEq α]

def handlesStep (s : α → Option (HandleUse τ)) :
    HandlesAction α τ → Option (α → Option (HandleUse τ))
  | .create a t ctx ino =>
    if s a = none then some (Function.update s a (some (.create t ctx ino))) else none
  | .act a action => ((s a).bind (·.step action)).map fun u => Function.update s a (some u)

end Osns
