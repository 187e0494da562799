import Mathlib.Algebra.Group.Int.Defs
import Osns.Model.SftpServer.Path

/-! The directory of the server that a client shares, after `interface/sftp.c`. Strings are without
the zero at their end. -/

namespace Osns

/-- The callbacks of `struct sftp_client_data_s`, with the path of a custom directory. -/
inductive SharedDirectory
  | home
  | root
  | custom (path : Bytes)
  deriving DecidableEq, Repr

/-- The names of the home directory: `~`, its path, and its path with a slash. -/
def namesHome (pre home : Bytes) : Bool :=
  let tmp := u32 home.length
  pre = [0x7e] ∨ 0 < tmp ∧ pre = home ∨
    0 < tmp ∧ pre.length = u32 (tmp + 1) ∧ pre.take tmp = home.take tmp ∧ pre[tmp]? = some slash

def setPrefixSftpClient (pre home : Option Bytes) : SharedDirectory :=
  match pre with
  | none => .home
  | some pre =>
    if home.any (namesHome pre) ∨ u32 pre.length = 0 then .home
    else if pre = [slash] then .root
    else .custom (pre.take (u32 pre.length))

/-- A value assigned to an `int`. -/
def int32 (n : ℕ) : ℤ := if n < 2 ^ 31 then n else n - 2 ^ 32

/-- The directory with a slash behind it is the front of the path. -/
def comparePathDirectory (path directory : Bytes) (len : ℕ) : ℤ :=
  if len < path.length ∧ path.take len = directory.take len ∧ path[len]? = some slash then int32 len
  else -1

/-- `sftp_compare_path` for `SFTP_COMPARE_PATH_PREFIX_SUBDIR`. A path without a slash in front is in
the home directory. -/
def sftpComparePath (home : Option Bytes) (path : Bytes) : SharedDirectory → ℤ
  | .home =>
    if path.head? = some slash then
      home.elim (-1) fun home => comparePathDirectory path home (u32 home.length)
    else 0
  | .root => if path.head? = some slash then 1 else -1
  | .custom directory => comparePathDirectory path directory directory.length

end Osns
