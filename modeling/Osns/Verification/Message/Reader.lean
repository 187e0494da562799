import Osns.Model.MsgReader

/-! What the `msg_read` functions make of fields that the writers have put into a message. -/

namespace Osns

open Buffer List Option Result BigEndian

/-! ## Strings -/

/-- A string with these bytes, wherever in a buffer it points to. -/
def SshString.Holds (s : SshString) (text : Bytes) : Prop :=
  ∃ rest, s = { len := text.length, ptr := some (text ++ rest) }

section Strings

variable {s : SshString} {value : Bytes}

theorem SshString.Holds.len (h : s.Holds value) : s.len = value.length := by
  obtain ⟨rest, rfl⟩ := h
  rfl

theorem SshString.Holds.bytes (h : s.Holds value) : s.bytes = .ok value := by
  obtain ⟨rest, rfl⟩ := h
  exact SshString.bytes_append value rest

theorem SshString.Holds.text (h : s.Holds value) : s.text = .ok value := by
  rw [SshString.text, h.len]
  split
  · rename_i hempty
    rw [eq_nil_of_length_eq_zero hempty]
    rfl
  · exact h.bytes

theorem SshString.Holds.compareC (h : s.Holds value) (text : Bytes) :
    s.compareC text = .ok (decide (value = text)) := by
  rw [SshString.compareC, h.len, h.text]
  split
  · rfl
  · rename_i hlen
    rw [decide_eq_false fun heq => hlen (congrArg length heq)]
    rfl

theorem readSshStringSized_of_le {avail : Bytes} {n : ℕ} (hn : n ≤ avail.length) (hfour : 4 ≤ n) :
    readSshStringSized avail n =
      .ok (if u32 (4 + getUint32 avail) ≤ n then
          (u32 (4 + getUint32 avail), { len := getUint32 avail, ptr := some (avail.drop 4) })
        else (0, { len := getUint32 avail, ptr := none })) := by
  have hload : load avail 0 4 = some (avail.take 4) :=
    load_of_le (by omega)
  rw [readSshStringSized, if_pos hfour, hload, inBounds_some, ok_bind]
  simp only [getUint32_take (Nat.le_refl 4)]
  split <;> rfl

theorem readSshStringSized_written (bytes rest : Bytes) {n : ℕ} (hlen : 4 + bytes.length < 2 ^ 32)
    (hlow : 4 + bytes.length ≤ n) (hn : n ≤ (sshString bytes ++ rest).length) :
    readSshStringSized (sshString bytes ++ rest) n =
      .ok (4 + bytes.length, { len := bytes.length, ptr := some (bytes ++ rest) }) := by
  have hget : getUint32 (sshString bytes ++ rest) = bytes.length := getUint32_sshString (by omega)
  rw [readSshStringSized_of_le hn (by omega), hget, u32_of_lt hlen, if_pos hlow,
    drop_four_sshString]

theorem readSshStringSized_sshString (bytes rest : Bytes)
    (h : (sshString bytes ++ rest).length < 2 ^ 32) :
    readSshStringSized (sshString bytes ++ rest) (sshString bytes ++ rest).length =
      .ok (4 + bytes.length, { len := bytes.length, ptr := some (bytes ++ rest) }) := by
  rw [length_append, length_sshString] at h
  refine readSshStringSized_written bytes rest (by omega) ?_ (Nat.le_refl _)
  rw [length_append, length_sshString]
  omega

end Strings

/-! ## Positions -/

/-- A reader without an error in front of these last bytes of its message. -/
structure MsgReader.At (mb : MsgReader) (rest : Bytes) : Prop where
  drop : mb.data.drop mb.pos = rest
  len : mb.len = mb.pos + rest.length
  fits : mb.len < 2 ^ 32
  error : mb.error = none

section Positions

variable {mb : MsgReader} {tail : Bytes}

theorem MsgReader.at_setMsgBufferString (data : Bytes) (h : data.length < 2 ^ 32) :
    (MsgReader.setMsgBufferString { len := data.length, ptr := some data }).At data where
  drop := drop_zero
  len := (Nat.zero_add _).symm
  fits := h
  error := rfl

theorem MsgReader.At.u32Sub (h : mb.At tail) : u32Sub mb.len mb.pos = tail.length := by
  have hlen := h.len
  rw [u32Sub_of_le h.fits (by omega)]
  omega

theorem MsgReader.At.rest (h : mb.At tail) : mb.rest = { len := tail.length, ptr := some tail } := by
  rw [MsgReader.rest, h.drop, h.u32Sub]

theorem MsgReader.At.advance {skip : Bytes} (h : mb.At (skip ++ tail)) {pos : ℕ}
    (hpos : pos = mb.pos + skip.length) : MsgReader.At { mb with pos } tail where
  drop := by
    rw [hpos, ← drop_drop, h.drop]
    exact drop_left
  len := by
    rw [hpos, h.len, length_append, Nat.add_assoc]
  fits := h.fits
  error := h.error

theorem MsgReader.At.msgReadByte {b : UInt8} (h : mb.At ([b] ++ tail)) :
    ∃ mb', mb.msgReadByte = .ok (some b, mb') ∧ mb'.At tail := by
  have hlt : mb.pos < mb.len := by
    rw [h.len, length_append, length_singleton]
    omega
  have hget : mb.data[mb.pos]? = some b := by
    rw [← head?_drop, h.drop]
    rfl
  refine ⟨{ mb with pos := mb.pos + 1 }, ?_, h.advance rfl⟩
  rw [MsgReader.msgReadByte, h.error, if_neg (by simp), if_pos hlt, hget]
  rfl

theorem MsgReader.At.msgReadSshString {bytes : Bytes} (h : mb.At (sshString bytes ++ tail))
    (s : SshString) :
    ∃ s' mb', mb.msgReadSshString s = .ok (s', mb') ∧ s'.Holds bytes ∧ mb'.At tail := by
  have hlen := h.len
  have hfits := h.fits
  rw [length_append, length_sshString] at hlen
  have hread := readSshStringSized_sshString bytes tail
    (by rw [length_append, length_sshString]; omega)
  refine ⟨_, { mb with pos := u32 (mb.pos + (4 + bytes.length)) }, ?_, ⟨tail, rfl⟩, h.advance ?_⟩
  · rw [MsgReader.msgReadSshString, if_pos ⟨by rw [h.error]; rfl, by omega⟩, h.drop, h.u32Sub, hread]
    rfl
  · rw [u32_of_lt (by omega), length_sshString]

variable {bs : Bytes} {value : ℕ}

theorem MsgReader.At.load (h : mb.At (bs ++ tail)) (hpos : 0 < bs.length + tail.length) :
    load mb.data mb.pos bs.length = some bs := by
  have hlen := congrArg length h.drop
  rw [length_drop, length_append] at hlen
  rw [Buffer.load, h.drop, take_left, if_pos (by omega)]

theorem MsgReader.At.skip (h : mb.At (bs ++ tail)) {n : ℕ} (hn : n = bs.length) :
    MsgReader.At { mb with pos := u32 (mb.pos + n) } tail := by
  have hlen := h.len
  have hfits := h.fits
  rw [length_append] at hlen
  exact h.advance (by rw [hn, u32_of_lt (by omega)])

theorem MsgReader.At.pos_lt (h : mb.At tail) (hpos : 0 < tail.length) : mb.pos < mb.len := by
  rw [h.len]
  omega

theorem MsgReader.At.msgReadBytes (h : mb.At (bs ++ tail)) (hpos : 0 < bs.length + tail.length) :
    ∃ mb', mb.msgReadBytes bs.length = .ok (bs, mb') ∧ mb'.At tail := by
  have hlt : mb.pos < mb.len := h.pos_lt (by rwa [length_append])
  have hleft : ¬ mb.len - mb.pos < bs.length := by
    rw [h.len, length_append]
    omega
  refine ⟨_, ?_, h.skip rfl⟩
  rw [MsgReader.msgReadBytes, h.error, if_neg (by simp), if_pos hlt]
  simp only [if_neg hleft, h.load hpos, inBounds_some, ok_bind]
  rfl

theorem MsgReader.At.msgReadUint32 (h : mb.At (storeUint32 value ++ tail)) :
    ∃ mb', mb.msgReadUint32 = .ok (some (u32 value), mb') ∧ mb'.At tail := by
  have hget := getUint32_storeUint32 value
  refine ⟨_, ?_, h.skip rfl⟩
  rw [MsgReader.msgReadUint32, h.error, if_neg (by simp), ← length_storeUint32 value,
    h.load (by rw [length_storeUint32]; omega), inBounds_some, ok_bind, hget]
  rfl

theorem MsgReader.At.msgReadUint64 (h : mb.At (storeUint64 value ++ tail)) :
    ∃ mb', mb.msgReadUint64 = .ok (some (value % 2 ^ 64), mb') ∧ mb'.At tail := by
  have hget := getUint64_storeUint64 value
  refine ⟨_, ?_, h.skip rfl⟩
  rw [MsgReader.msgReadUint64, h.error, if_neg (by simp), ← length_storeUint64 value,
    h.load (by rw [length_storeUint64]; omega), inBounds_some, ok_bind, hget]
  rfl

theorem MsgReader.At.msgReadSshStringHeader (h : mb.At (storeUint32 value ++ tail)) :
    ∃ mb', mb.msgReadSshStringHeader = .ok (some (u32 value), mb') ∧ mb'.At tail := by
  have hget := getUint32_storeUint32 value
  have hleft : 4 ≤ Osns.u32Sub mb.len mb.pos := by
    rw [h.u32Sub, length_append, length_storeUint32]
    omega
  have hlt : mb.pos < mb.len := h.pos_lt (by rw [length_append, length_storeUint32]; omega)
  refine ⟨_, ?_, h.skip rfl⟩
  rw [MsgReader.msgReadSshStringHeader, h.error, if_pos ⟨rfl, hlt, hleft⟩,
    ← length_storeUint32 value, h.load (by rw [length_storeUint32]; omega), inBounds_some,
    ok_bind, hget]
  rfl

theorem MsgReader.msgReadSshString_of_error (h : mb.error.isSome) (s : SshString) :
    mb.msgReadSshString s = .ok (s, mb) := by
  obtain ⟨e, he⟩ := isSome_iff_exists.mp h
  rw [MsgReader.msgReadSshString, he, if_neg (by simp)]
  rfl

end Positions

/-! ## Big integers -/

/-- What is assumed of `gcry_mpi_scan`. It reads back what has been written, an integer that is complete
takes its own bytes if it is taken at all, and the length that the caller claims does not keep it from
reading one that is not complete. -/
structure MsgLib.Scans (lib : MsgLib) : Prop where
  written : ∀ (mp : ℤ) (tail : Bytes) (len : ℕ), (mpi mp).length < 2 ^ 32 →
    lib.mpiScan (mpi mp ++ tail) len = .ok (some (mp, (mpi mp).length))
  complete : ∀ (avail : Bytes) (len : ℕ), 4 ≤ avail.length → 4 + getUint32 avail ≤ avail.length →
    ∃ r, lib.mpiScan avail len = .ok r ∧ ∀ value n, r = some (value, n) → n = 4 + getUint32 avail
  outside : ∀ (avail : Bytes) (len : ℕ),
    ¬ (4 ≤ avail.length ∧ 4 + getUint32 avail ≤ avail.length) →
      lib.mpiScan avail len = .error .overrun

def plainScan (avail : Bytes) : Except Fault (Option (ℤ × ℕ)) := do
  let header ← inBounds (load avail 0 4)
  let text ← inBounds (load avail 4 (getUint32 header))
  let value : ℤ := BigEndian.decode text
  return some (if text.head?.any (128 ≤ ·) then value - 2 ^ (8 * text.length) else value,
    4 + text.length)

/-- A library that meets them. -/
def plainLib : MsgLib where
  malloc _ := true
  mpiScan avail _ := plainScan avail

section

variable {lib : MsgLib} {mb : MsgReader} {tail : Bytes} {mp : ℤ}

theorem MsgReader.At.scanMpint (hlib : lib.Scans) (h : mb.At (mpi mp ++ tail)) (len : ℕ) :
    ∃ mb', mb.scanMpint lib len = .ok (some mp, (mpi mp).length, mb') ∧ mb'.At tail := by
  have hlen := h.len
  have hfits := h.fits
  rw [length_append] at hlen
  refine ⟨_, ?_, h.skip rfl⟩
  rw [MsgReader.scanMpint, h.drop, hlib.written mp tail len (by omega)]
  rfl

theorem MsgReader.At.msgReadSshMpint (hlib : lib.Scans) (h : mb.At (mpi mp ++ tail)) :
    ∃ mb', mb.msgReadSshMpint lib = .ok (some mp, mb') ∧ mb'.At tail := by
  obtain ⟨mb', hscan, hat⟩ := h.scanMpint hlib (Osns.u32Sub mb.len mb.pos)
  exact ⟨mb', by rw [MsgReader.msgReadSshMpint, hscan]; rfl, hat⟩

end

end Osns
