import Osns.Model.SftpServer.Reply
import Osns.Verification.Sftp.Requests

/-! The replies of the server are messages with the right length field and the id of the request. -/

namespace Osns

open List

variable {size count : ℕ} {type : UInt8} {id : UInt32} {stores : List Bytes} {bytes : Bytes}

theorem replyStores_eq (hsize : 4 + stores.flatten.length ≤ size) (hlt : size < 2 ^ 32) :
    replyStores size stores = .ok (storeUint32 stores.flatten.length ++ stores.flatten) := by
  let front : Bytes := replicate 4 0
  let free : Bytes := replicate (size - 4) 0
  have hfree : stores.flatten.length ≤ free.length := by
    rw [length_replicate]
    omega
  have hbuffer : { stackBuffer size with pos := 4 }
      = (⟨front ++ free, front.length⟩ : Output.State UInt8) := by
    rw [stackBuffer, ← replicate_add, Nat.add_sub_cancel' (by omega)]
    rfl
  have hput : Output.putAll (2 ^ 32) ⟨front ++ free, front.length⟩ stores
      = some ⟨front ++ stores.flatten ++ free.drop stores.flatten.length,
          4 + stores.flatten.length⟩ :=
    Output.putAll_append hfree (Nat.lt_of_le_of_lt hsize hlt)
  have hlength : u32Sub (4 + stores.flatten.length) 4 = stores.flatten.length := by
    rw [u32Sub_of_le (by omega) (by omega), Nat.add_sub_cancel_left]
  have hstore : Buffer.store (front ++ stores.flatten ++ free.drop stores.flatten.length) 0
      (storeUint32 stores.flatten.length)
      = some (storeUint32 stores.flatten.length
          ++ (stores.flatten ++ free.drop stores.flatten.length)) := by
    rw [append_assoc]
    exact Buffer.store_append [] front _ _ rfl rfl
  rw [replyStores, hbuffer, hput]
  simp only [hlength, hstore]
  rw [← append_assoc, take_left' (by simp)]

theorem replyStores_head (hsize : 9 + stores.flatten.length ≤ size) (hlt : size < 2 ^ 32) :
    replyStores size (replyHead type id ++ stores)
      = .ok (requestMessage type id.toNat stores.flatten) := by
  have hflat : (replyHead type id ++ stores).flatten
      = type :: (storeUint32 id.toNat ++ stores.flatten) := by
    simp [replyHead]
  have hlen : (replyHead type id ++ stores).flatten.length = 5 + stores.flatten.length := by
    rw [hflat, length_cons, length_append, length_storeUint32]
    omega
  rw [replyStores_eq (by omega) hlt, hlen, hflat]
  rfl

def statusMessage (id : UInt32) (status : ℕ) : Bytes :=
  requestMessage 101 id.toNat (storeUint32 status ++ (storeUint32 0 ++ storeUint32 0))

theorem replySftpStatusSimple_eq (id : UInt32) (status : ℕ) :
    replySftpStatusSimple id status = .ok (statusMessage id status) :=
  replyStores_head (Nat.le_refl 21) (by decide)

theorem statusMessage_ne_ok {status : ℕ} (hlt : status < 2 ^ 32) (h : status ≠ sshFxOk) :
    statusMessage id status ≠ statusMessage id sshFxOk := by
  intro heq
  simp only [statusMessage, requestMessage, length_append, length_storeUint32,
    append_cancel_left_eq, cons.injEq, true_and] at heq
  have hget := congrArg getUint32 heq
  rw [getUint32_store_of_lt hlt, getUint32_store_of_lt (by decide)] at hget
  exact h hget

theorem length_eofStores_le (eof : Bool) : (eofStores eof).flatten.length ≤ 1 := by
  cases eof <;> decide

theorem replyStores_eof (h : 14 + bytes.length < 2 ^ 32) (eof : Bool) :
    replyStores (u32 (14 + bytes.length))
        (replyHead type id ++ [storeUint32 count, bytes] ++ eofStores eof)
      = .ok (requestMessage type id.toNat
          (storeUint32 count ++ bytes ++ (eofStores eof).flatten)) := by
  have heof := length_eofStores_le eof
  rw [u32_of_lt h, append_assoc, replyStores_head _ h]
  · simp
  · simp only [flatten_append, flatten_cons, flatten_nil, length_append,
      length_storeUint32, length_nil]
    omega

theorem replySftpData_eq (h : 14 + bytes.length < 2 ^ 32) (eof : Bool) :
    replySftpData id bytes eof = .ok (requestMessage 103 id.toNat
      (storeUint32 bytes.length ++ bytes ++ (eofStores eof).flatten)) :=
  replyStores_eof h eof

end Osns
