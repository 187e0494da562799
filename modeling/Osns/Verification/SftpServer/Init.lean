import Osns.Model.SftpServer.Init
import Osns.Verification.Sftp.Requests

/-! The version message of the server leaves its buffer, whatever extensions there are. -/

namespace Osns

open List Output

def extensionPairs (extensions : List (Bytes × Bytes)) : Bytes :=
  extensions.flatMap fun e => sshString e.1 ++ sshString e.2

def versionMessage (version : ℕ) (extensions : List (Bytes × Bytes)) : Bytes :=
  requestMessage 2 version (extensionPairs extensions)

/-- The server sends the version and all its extensions from a buffer of the computed size. -/
def InitComplete (version : UInt8) (rValid : UInt32) (extensions : List (Bytes × Bytes)) : Prop :=
  sendSftpInit version rValid (extensions.map Prod.fst)
    = .ok (versionMessage (getSftpProtocolVersion version).toNat extensions)

/-! ## The size and the stores -/

variable {version : UInt8} {rValid : UInt32} {names : List Bytes}

theorem length_flatten_writeSshStringC (text : Bytes) :
    (writeSshStringC text).flatten.length = 4 + u32 text.length := by
  have hle : u32 text.length ≤ text.length := u32_le _
  simp [writeSshStringC, Nat.min_eq_left hle]

theorem getSftpProtocolExtensions_eq (names : List Bytes) :
    getSftpProtocolExtensions names
      = (u32 (names.flatMap writeSshStringC).flatten.length, names.length) := by
  induction names with
  | nil => rfl
  | cons name names ih =>
    rw [getSftpProtocolExtensions, ih, flatMap_cons, flatten_append, length_append,
      length_flatten_writeSshStringC]
    refine Prod.ext ?_ rfl
    simp only [u32]
    omega

theorem length_initFront :
    (initFront version rValid names).flatten.length
      = 76 + (names.flatMap writeSshStringC).flatten.length := by
  simp only [initFront, flatten_append, length_append, length_flatten_writeSshStringC]
  simp [supported2Name, aclSupportedName, ascii, storeUint16, u32]
  omega

theorem initSize_eq : initSize names = u32 (76 + (names.flatMap writeSshStringC).flatten.length) := by
  rw [initSize, supported2Size, getSftpProtocolExtensions_eq]
  simp only [u32]
  omega

theorem sendSftpInit_eq_error (version : UInt8) (rValid : UInt32) (names : List Bytes) :
    sendSftpInit version rValid names = .error .overrun := by
  have hnone : putAll (2 ^ 32) (stackBuffer (initSize names))
      (initStores version rValid names) = none := by
    rw [initStores, putAll_two, Option.bind_eq_none_iff]
    intro t ht
    -- the front fills the buffer to its last byte
    have hpos : t.pos = initSize names := by
      rw [pos_of_putAll (Nat.two_pow_pos 32) ht, initSize_eq, length_initFront]
      exact congrArg (· % 2 ^ 32) (Nat.zero_add _)
    have hlen : t.buf.length = initSize names := by
      rw [length_of_putAll ht]
      exact length_replicate
    have hput : put (2 ^ 32) t (storeUint32 4) = none := by
      rw [Option.eq_none_iff_forall_ne_some]
      intro t' h
      have hle := (put_eq_some_iff.mp h).1
      rw [length_storeUint32] at hle
      omega
    rw [putAll, hput, Option.bind_none]
  rw [sendSftpInit, sendSftpInitIn, hnone]
  rfl

/-! ## The message -/

/-- No set of extensions gives a complete version message. -/
theorem initComplete_never (version : UInt8) (rValid : UInt32) (extensions : List (Bytes × Bytes)) :
    ¬ InitComplete version rValid extensions := by
  rw [InitComplete, sendSftpInit_eq_error]
  rintro ⟨⟩

/-- A server without any extension writes four bytes behind its buffer of 76. -/
theorem init_without_extensions :
    initSize [] = 76 ∧ sendSftpInit 6 0 [] = .error .overrun ∧ ¬ InitComplete 6 0 [] := by
  refine ⟨rfl, sendSftpInit_eq_error 6 0 [], ?_⟩
  intro h
  cases (sendSftpInit_eq_error 6 0 []).symm.trans h

end Osns
