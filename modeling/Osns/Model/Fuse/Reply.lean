import Osns.Model.Word

/-! Replies and notifications to the VFS, after `lib/fuse/receive.c` and `interface/fuse.c`. -/

namespace Osns

structure FuseOutHeader where
  len : ℕ
  error : UInt32
  unique : UInt64
  deriving DecidableEq

/-- `sizeof(struct fuse_out_header)` -/
def fuseOutHeaderSize : ℕ := 16

structure FuseNotifyDeleteOut where
  parent : UInt64
  child : UInt64
  namelen : ℕ
  padding : UInt32
  deriving DecidableEq

/-- A part of a write behind the header. -/
inductive Iovec
  | deleteOut (out : FuseNotifyDeleteOut)
  | bytes (data : Bytes)
  deriving DecidableEq

def Iovec.len : Iovec → ℕ
  | deleteOut _ => 24
  | bytes data => data.length

/-- What the FUSE device gets with one `writev`. -/
structure DeviceWrite where
  out : FuseOutHeader
  parts : List Iovec
  deriving DecidableEq

def fuseSocketReplyError (unique : UInt64) (errcode : UInt32) : DeviceWrite where
  out := { len := fuseOutHeaderSize, error := -errcode, unique }
  parts := []

def fuseSocketReplyData (unique : UInt64) (data : Bytes) : DeviceWrite where
  out := { len := u32 (fuseOutHeaderSize + data.length), error := 0, unique }
  parts := [.bytes data]

/-- The caller has left the first place of its parts to the header. -/
def fuseSocketNotify (code : UInt32) (parts : List Iovec) : DeviceWrite where
  out := { len := fuseOutHeaderSize, error := code, unique := 0 }
  parts

def fuseNotifyDelete : UInt32 := 6

def fuseNotifyVFSDelete (pino ino : UInt64) (name : Bytes) : DeviceWrite :=
  fuseSocketNotify fuseNotifyDelete
    [.deleteOut { parent := pino, child := ino, namelen := name.length, padding := 0 }, .bytes name]

inductive VfsMessage
  | error (unique : UInt64) (errcode : UInt32)
  | data (unique : UInt64) (bytes : Bytes)
  | notify (code : UInt32) (parts : List Iovec)
  | delete (pino ino : UInt64) (name : Bytes)

def VfsMessage.write : VfsMessage → DeviceWrite
  | error unique errcode => fuseSocketReplyError unique errcode
  | data unique bytes => fuseSocketReplyData unique bytes
  | notify code parts => fuseSocketNotify code parts
  | delete pino ino name => fuseNotifyVFSDelete pino ino name

end Osns
