import Osns.Model.MsgWriter
import Osns.Verification.Message.Buffer

/-! What the writers for strings, numbers and integers add to a message buffer with room for it. -/

namespace Osns

/-! ## The size of an integer -/

theorem getNbits_succ_le (n : ℕ) : getNbits (n + 1) ≤ getNbits n + 1 := by
  apply Nat.size_le.mpr
  have hlt : n < 2 ^ getNbits n := Nat.lt_size_self n
  rw [Nat.pow_succ]
  omega

theorem getNbytes_le_length_mpi (mp : ℤ) : 4 + getNbytes mp.natAbs ≤ (mpi mp).length := by
  cases mp with
  | ofNat n =>
    have hlen := MsgBuffer.length_mpint_eq n
    have hle : 4 + getNbytes n ≤ (mpint n).length := by
      rw [hlen]
      split <;> omega
    exact hle
  | negSucc n =>
    have hbits := getNbits_succ_le n
    have hbytes := MsgBuffer.getNbytes_eq (n + 1)
    rw [mpi, List.length_append, length_storeUint32, BigEndian.length_encode, Int.natAbs_negSucc,
      Nat.succ_eq_add_one, hbytes]
    split <;> omega

/-- The integers that take the bytes that are counted for them: zero, those whose bits do not fill their
bytes, and negative powers of two, for which the sign needs no bit of its own. -/
def ByteCounted (mp : ℤ) : Prop :=
  mp = 0 ∨ getNbits mp.natAbs % 8 ≠ 0 ∨ mp = -2 ^ (getNbits mp.natAbs - 1)

instance (mp : ℤ) : Decidable (ByteCounted mp) := inferInstanceAs (Decidable (_ ∨ _ ∨ _))

namespace MsgBuffer

/-- Everything written so far is in the buffer, and there is no error. -/
structure Sound (memory : ℕ → UInt8) (size : ℕ) (xs : Bytes) (mb : MsgBuffer) : Prop
    extends Holds memory size xs mb where
  error : mb.error = none

variable {memory : ℕ → UInt8} {size : ℕ} {xs : Bytes} {mb : MsgBuffer}

theorem Sound.copy_skip (h : Sound memory size xs mb) (ys : Bytes) (hsize : size < 2 ^ 32)
    (hfits : xs.length + ys.length ≤ size) :
    Sound memory size (xs ++ ys) ((mb.copy ys).skip ys.length) :=
  ⟨h.toHolds.copy_skip ys hsize hfits, h.error⟩

theorem Sound.write (h : Sound memory size xs mb) {room : Bool} (ys : Bytes) (hroom : room = true)
    (hsize : size < 2 ^ 32) (hfits : xs.length + ys.length ≤ size) :
    Sound memory size (xs ++ ys) (mb.write room ys) := by
  rw [MsgBuffer.write, h.writing, hroom, if_pos rfl, if_pos rfl]
  exact h.copy_skip ys hsize hfits

section

variable (h : Sound memory size xs mb)

include h

theorem Sound.msgWriteByte (b : UInt8) (hsize : size < 2 ^ 32) (hfits : xs.length < size) :
    Sound memory size (xs ++ [b]) (mb.msgWriteByte b) := by
  refine h.write [b] ?_ hsize hfits
  rw [decide_eq_true_eq, h.pos, h.len]
  exact hfits

theorem Sound.msgWriteBytes (ys : Bytes) (hsize : size < 2 ^ 32) (hfits : xs.length + ys.length ≤ size) :
    Sound memory size (xs ++ ys) (mb.msgWriteBytes ys) := by
  refine h.write ys ?_ hsize hfits
  rw [decide_eq_true_eq, h.pos, h.len, u32_of_lt (by omega)]
  exact hfits

theorem Sound.msgStoreUint32 (value : UInt32) (hsize : size < 2 ^ 32) (hfits : xs.length + 4 ≤ size) :
    Sound memory size (xs ++ storeUint32 value.toNat) (mb.msgStoreUint32 value) := by
  refine h.write _ ?_ hsize hfits
  rw [decide_eq_true_eq, h.pos, h.len, u32_of_lt (by omega)]
  exact hfits

theorem Sound.msgStoreUint64 (value : UInt64) (hsize : size < 2 ^ 32) (hfits : xs.length + 8 ≤ size) :
    Sound memory size (xs ++ storeUint64 value.toNat) (mb.msgStoreUint64 value) := by
  refine h.write _ ?_ hsize hfits
  rw [decide_eq_true_eq, h.pos, h.len, u32_of_lt (by omega)]
  exact hfits

theorem Sound.msgWriteSshString (text : Bytes) (hsize : size < 2 ^ 32)
    (hfits : xs.length + (4 + text.length) < size) :
    Sound memory size (xs ++ sshString text) (mb.msgWriteSshString text) := by
  refine h.write _ ?_ hsize (by rw [length_sshString]; omega)
  rw [decide_eq_true_eq, h.pos, h.len, u32_of_lt (by omega)]
  exact hfits

theorem Sound.msgWriteSshMpi (mp : ℤ) (hsize : size < 2 ^ 32) (hfits : xs.length + (mpi mp).length ≤ size) :
    Sound memory size (xs ++ mpi mp) (mb.msgWriteSshMpi mp) := by
  have hcount := getNbytes_le_length_mpi mp
  have hpos : u32 (mb.pos + (4 + getNbytes mp.natAbs)) ≤ mb.len := by
    rw [h.pos, h.len, u32_of_lt (by omega)]
    omega
  have hleft : (mpi mp).length ≤ u32Sub mb.len mb.pos := by
    rw [h.pos, h.len, u32Sub_of_le hsize (by omega)]
    omega
  simp only [MsgBuffer.msgWriteSshMpi, h.null, Bool.false_eq_true, if_false, if_pos hpos, if_pos hleft]
  exact h.copy_skip (mpi mp) hsize hfits

theorem Sound.startSshString (hsize : size < 2 ^ 32) (hfits : xs.length + 4 < size) :
    ∃ mb', mb.startSshString = (xs.length, mb') ∧ Sound memory size (xs ++ storeUint32 0) mb' := by
  refine ⟨_, by rw [MsgBuffer.startSshString, h.pos], h.write _ ?_ hsize ?_⟩
  · rw [decide_eq_true_eq, h.len, u32_of_lt (by omega)]
    exact hfits
  · rw [length_storeUint32]
    omega

end

theorem Sound.completeSshString {body : Bytes}
    (h : Sound memory size (xs ++ storeUint32 0 ++ body) mb) (hsize : size < 2 ^ 32)
    (hfits : xs.length + 4 + body.length ≤ size) :
    Sound memory size (xs ++ sshString body) (mb.completeSshString xs.length) := by
  have hpos : mb.pos = xs.length + 4 + body.length := by
    rw [h.pos, List.length_append, List.length_append, length_storeUint32]
  have hsince : u32Sub mb.pos xs.length = 4 + body.length := by
    rw [u32Sub_of_le (by omega) (by omega)]
    omega
  have hlen : u32Sub (u32Sub mb.pos xs.length) 4 = body.length := by
    rw [hsince, u32Sub_of_le (by omega) (by omega)]
    omega
  have hcontents : MsgBuffer.contents (mb.completeSshString xs.length) = xs ++ sshString body := by
    rw [MsgBuffer.completeSshString, if_pos h.writing, hlen, sshString, ← List.append_assoc]
    exact Memory.read_write_middle mb.data h.contents rfl
  rw [MsgBuffer.completeSshString, if_pos h.writing, hlen] at hcontents ⊢
  refine { null := h.null, len := h.len, pos := ?_, outside := ?_, writing := h.writing,
           contents := hcontents, error := h.error }
  · rw [List.length_append, length_sshString, ← Nat.add_assoc]
    exact hpos
  · intro i hi
    have hsame := Memory.write_outside mb.data xs.length (storeUint32 body.length) (i := i)
      (.inr (by rw [length_storeUint32]; omega))
    exact hsame.trans (h.outside i hi)

end MsgBuffer

end Osns
