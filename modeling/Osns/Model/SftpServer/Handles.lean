import Osns.Model.SftpServer.Directory

/-! Handles of open files and directories, after `lib/system/fshandle.c` and
`ssh/subsystem/sftp/handle.c`. One hashtable is shared by all connections. -/

namespace Osns

/-! ## Device numbers -/

def makedev (major minor : ℕ) : ℕ :=
  major / 2 ^ 12 * 2 ^ 44 + minor / 2 ^ 8 * 2 ^ 20 + major % 2 ^ 12 * 2 ^ 8 + minor % 2 ^ 8

def devMajor (dev : ℕ) : ℕ := dev / 2 ^ 44 * 2 ^ 12 + dev / 2 ^ 8 % 2 ^ 12

def devMinor (dev : ℕ) : ℕ := dev / 2 ^ 20 % 2 ^ 24 * 2 ^ 8 + dev % 2 ^ 8

/-- `get_unique_system_dev`, which returns an `uint32_t`. -/
def getUniqueSystemDev (major minor : UInt32) : ℕ := u32 (makedev major.toNat minor.toNat)

/-! ## Handles -/

inductive FsSocket
  | file
  | dir (socket : DirSocket)
  deriving DecidableEq, Repr

/-- `struct fs_handle_s` with its flag `HANDLE_FLAG_EOD`. `serial` tells apart the objects that have
been created; it stands for the pointer to the handle. -/
structure FsHandle where
  serial : ℕ
  connectionid : UInt32
  dev : ℕ
  ino : UInt64
  socket : FsSocket
  eod : Bool
  deriving DecidableEq, Repr

/-- The rows of the hashtable, with the number of handles created so far. -/
structure HandleTable where
  rows : ℕ → List FsHandle
  created : ℕ

def HandleTable.empty : HandleTable := { rows := fun _ => [], created := 0 }

def fsHandleHashtableSize : ℕ := 128

def FsHandle.row (handle : FsHandle) : ℕ := handle.ino.toNat % fsHandleHashtableSize

/-- The comparison of `find_fs_handle`. -/
def FsHandle.is (handle : FsHandle) (connectionid major minor ino : ℕ) : Bool :=
  handle.connectionid.toNat == connectionid && handle.ino.toNat == ino
    && handle.dev == makedev major minor

variable (table : HandleTable)

def findFsHandle (connectionid major minor ino : ℕ) : Option FsHandle :=
  (table.rows (ino % fsHandleHashtableSize)).find? fun handle =>
    handle.is connectionid major minor ino

/-- `get_fs_handle` for `size` bytes at `pos`. The connection of the caller is not used: its id is
overwritten with the one in the bytes. -/
def getFsHandle (_connectionid : UInt32) (data : Bytes) (pos size : ℕ) :
    Except ServerFault (Option FsHandle) :=
  if size < 20 then .ok none
  else do
    let connectionid ← bodyUint32 data pos
    let major ← bodyUint32 data (pos + 4)
    let minor ← bodyUint32 data (pos + 8)
    let ino ← bodyUint64 data (pos + 12)
    return findFsHandle table connectionid major minor ino

def getFsHandleBufferSize : ℕ := 20

def writeHandleDefault (handle : FsHandle) : Bytes :=
  storeUint32 handle.connectionid.toNat ++ storeUint32 (devMajor handle.dev)
    ++ storeUint32 (devMinor handle.dev) ++ storeUint64 handle.ino.toNat

/-- The new handle is the first of its row. -/
def sftpCreateFsHandle (connectionid : UInt32) (dev : ℕ) (ino : UInt64) (socket : FsSocket) :
    FsHandle × HandleTable :=
  let handle : FsHandle :=
    { serial := table.created
      connectionid
      dev
      ino
      socket
      eod := false }
  (handle,
    { rows := Function.update table.rows handle.row (handle :: table.rows handle.row)
      created := table.created + 1 })

def freeFsHandle (handle : FsHandle) : HandleTable :=
  { table with
    rows := Function.update table.rows handle.row
      ((table.rows handle.row).filter fun h => h.serial != handle.serial) }

def setFsHandle (handle : FsHandle) : HandleTable :=
  { table with
    rows := Function.update table.rows handle.row
      ((table.rows handle.row).map fun h => if h.serial == handle.serial then handle else h) }

end Osns
