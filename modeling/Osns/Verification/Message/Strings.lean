import Osns.Model.StringWrite
import Osns.Verification.Message.Reader

/-! What `read_ssh_string` returns, what it makes of a written string, and where `write_ssh_string`
writes. -/

namespace Osns

open Buffer List Option Result

/-! ## Reading -/

/-- The number of bytes that is returned is the whole extent of a string that lies inside the buffer, and
zero when there is none. -/
def ReadsWhole (size : ℕ) (s : SshString) (avail : Bytes) (n : ℕ) : Prop :=
  ∃ count string, readSshStringInto size s avail n = .ok (count, string) ∧
    (0 < count → count = 4 + string.len ∧ count ≤ n ∧
      string.bytes = .ok ((avail.take count).drop 4)) ∧
    (count = 0 ↔ ¬ (size = 0 ∧ 4 ≤ n ∧ 4 + getUint32 avail ≤ n))

section Reading

variable {size n : ℕ} {s : SshString} {avail : Bytes}

theorem bytes_drop_four {len : ℕ} (h : 4 + len ≤ avail.length) :
    SshString.bytes { len, ptr := some (avail.drop 4) } = .ok ((avail.take (4 + len)).drop 4) := by
  have hload : load (avail.drop 4) 0 len = some ((avail.take (4 + len)).drop 4) := by
    refine load_eq_some_iff.mpr ⟨by rw [length_drop]; omega, ?_⟩
    rw [drop_zero, drop_take, Nat.add_sub_cancel_left]
  simp [SshString.bytes, hload]

theorem readsWhole_iff (hn : n ≤ avail.length) (hlimit : n < 2 ^ 32) :
    ReadsWhole size s avail n ↔ ¬ (size = 0 ∧ 4 ≤ n ∧ 2 ^ 32 - 4 < getUint32 avail) := by
  by_cases hread : size = 0 ∧ 4 ≤ n
  · obtain ⟨rfl, hfour⟩ := hread
    have hlt := getUint32_lt avail
    simp only [ReadsWhole, readSshStringInto, if_true, readSshStringSized_of_le hn hfour,
      Except.ok.injEq, true_and, hfour]
    by_cases hwrap : 4 + getUint32 avail < 2 ^ 32
    · -- The sum is the one over the naturals.
      rw [u32_of_lt hwrap]
      refine iff_of_true ?_ (by omega)
      by_cases hfits : 4 + getUint32 avail ≤ n
      · refine ⟨_, _, if_pos hfits, fun _ => ⟨rfl, hfits, ?_⟩, by omega⟩
        exact bytes_drop_four (by omega)
      · exact ⟨_, _, if_neg hfits, fun h => absurd h (Nat.lt_irrefl 0), by omega⟩
    · have hsum : u32 (4 + getUint32 avail) = 4 + getUint32 avail - 2 ^ 32 := by
        unfold u32
        omega
      rw [hsum, if_pos (by omega)]
      constructor
      · rintro ⟨count, string, heq, hpos, -⟩
        obtain ⟨rfl, rfl⟩ := Prod.mk.inj heq
        intro hbig
        have hexact := (hpos (by omega)).1
        simp only at hexact
        omega
      · intro hzero
        exact ⟨_, _, rfl, fun h => by omega, by omega⟩
  · refine iff_of_true ?_ (by tauto)
    have hzero : ∃ string, readSshStringInto size s avail n = .ok (0, string) := by
      rw [readSshStringInto]
      split
      · rw [readSshStringSized, if_neg (by tauto)]
        exact ⟨_, rfl⟩
      · exact ⟨_, rfl⟩
    obtain ⟨string, hzero⟩ := hzero
    exact ⟨0, string, hzero, fun h => absurd h (Nat.lt_irrefl 0), by tauto⟩

end Reading

/-! ## Reading what has been written -/

/-- A string and a C string, written anywhere into memory with room for them and read with at least
their size, give the bytes back. -/
def ReadsBack (bytes : Bytes) : Prop :=
  ∀ arg, (arg = .c bytes ∨ ∃ tail, arg = .s { len := bytes.length, ptr := some (bytes ++ tail) }) →
    ∀ (buffer : Bytes) (size n : ℕ), 4 + bytes.length ≤ n → n ≤ buffer.length →
      ∃ out string, writeSshString (some buffer) 0 size arg = .ok (4 + bytes.length, some out) ∧
        readSshStringSized out n = .ok (4 + bytes.length, string) ∧ string.bytes = .ok bytes

variable {buffer : Bytes} {size : ℕ}

theorem copySshStringHlpr_zero (bytes tail : Bytes) (h : 4 + bytes.length ≤ buffer.length) :
    copySshStringHlpr buffer 0 (some (bytes ++ tail)) bytes.length =
      .ok (sshString bytes ++ buffer.drop (4 + bytes.length)) := by
  have happend := copySshStringHlpr_append [] (buffer.take (4 + bytes.length))
    (buffer.drop (4 + bytes.length)) bytes tail (length_take_of_le h)
  rwa [nil_append, take_append_drop, nil_append, length_nil] at happend

theorem readsBack_of_length {bytes : Bytes} (h : bytes.length < 2 ^ 32 - 4) : ReadsBack bytes := by
  intro arg harg buffer size n hlow hn
  have hlen : 4 + bytes.length < 2 ^ 32 := by omega
  have hcopy : arg.copy buffer 0 = .ok (sshString bytes ++ buffer.drop (4 + bytes.length)) := by
    rcases harg with rfl | ⟨tail, rfl⟩
    · rw [StringArg.copy, u32_of_lt (by omega)]
      have hroom : 4 + bytes.length ≤ buffer.length := by omega
      simpa using copySshStringHlpr_zero bytes [] hroom
    · exact copySshStringHlpr_zero bytes tail (by omega)
  have hcount : arg.count = 4 + bytes.length := by
    rcases harg with rfl | ⟨tail, rfl⟩
    · rw [StringArg.count, u32_of_lt (show bytes.length < 2 ^ 32 by omega), u32_of_lt hlen]
    · exact u32_of_lt hlen
  have hroom : n ≤ (sshString bytes ++ buffer.drop (4 + bytes.length)).length := by
    rw [length_append, length_sshString, length_drop]
    omega
  refine ⟨_, _, ?_, readSshStringSized_written bytes _ hlen hlow hroom,
    SshString.bytes_append bytes _⟩
  simp [writeSshString, hcopy, hcount]

/-! ## Writing -/

/-- What is stored for a string with these data; there has to be all of it. -/
def storedString (data : Option Bytes) (len : ℕ) : Option Bytes :=
  data.elim (some (storeUint32 len)) fun data =>
    (load data 0 len).map (storeUint32 len ++ ·)

def StringArg.stored : StringArg → Option Bytes
  | .s string => storedString string.ptr string.len
  | .c text => storedString (some text) (u32 text.length)
  | .l len => some (storeUint32 (len.getD 0))
  | .other => some []

/-- Behind the size that the writer is given the memory keeps its contents, whatever they are. -/
def StaysWithin (room size : ℕ) (arg : StringArg) : Prop :=
  ∀ buffer : Bytes, buffer.length = room → ∃ count out,
    writeSshString (some buffer) 0 size arg = .ok (count, some out) ∧
      out.drop size = buffer.drop size

theorem store_at_zero {xs out : Bytes} :
    store buffer 0 xs = some out ↔
      xs.length ≤ buffer.length ∧ xs ++ buffer.drop xs.length = out := by
  simp [store_eq_some_iff]

theorem copySshStringHlpr_eq_ok {data : Option Bytes} {len : ℕ} {out : Bytes} :
    copySshStringHlpr buffer 0 data len = .ok out ↔
      ∃ xs ∈ storedString data len, xs.length ≤ buffer.length ∧ xs ++ buffer.drop xs.length = out := by
  have hheader : (storeUint32 len).length = 4 := length_storeUint32 len
  have hback (bytes : Bytes) : (storeUint32 len ++ buffer.drop 4).drop (4 + bytes.length)
      = buffer.drop (4 + bytes.length) := by
    rw [← drop_drop, drop_left' hheader, drop_drop]
  rw [copySshStringHlpr]
  cases data with
  | none => simp [storedString, bind_eq_ok, inBounds_eq_ok, store_at_zero]
  | some data =>
    simp only [bind_eq_ok, inBounds_eq_ok, store_at_zero, storedString, elim_some, mem_def,
      map_eq_some_iff, exists_exists_and_eq_and, Nat.zero_add]
    constructor
    · rintro ⟨mid, ⟨hfour, rfl⟩, bytes, hload, hstore⟩
      obtain ⟨hle, rfl⟩ := store_eq_some_iff.mp hstore
      simp only [length_append, length_drop, hheader] at hle
      refine ⟨bytes, hload, by rw [length_append]; omega, ?_⟩
      rw [hheader, take_left' hheader, hback, length_append, hheader]
    · rintro ⟨bytes, hload, hle, rfl⟩
      rw [length_append, hheader] at hle
      refine ⟨_, ⟨by omega, rfl⟩, bytes, hload, store_eq_some_iff.mpr ⟨?_, ?_⟩⟩
      · simp only [length_append, length_drop, hheader]
        omega
      · rw [hheader, take_left' hheader, hback, length_append, hheader]

theorem StringArg.copy_eq_ok {arg : StringArg} {out : Bytes} :
    arg.copy buffer 0 = .ok out ↔
      ∃ xs ∈ arg.stored, xs.length ≤ buffer.length ∧ xs ++ buffer.drop xs.length = out := by
  cases arg with
  | s string | c text => rw [copy, stored, copySshStringHlpr_eq_ok]
  | l len => simp [copy, stored, inBounds_eq_ok, store_at_zero]
  | other => simp [copy, stored]

theorem staysWithin_iff {room size : ℕ} {arg : StringArg} (hsize : size ≤ room) :
    StaysWithin room size arg ↔ ∃ xs ∈ arg.stored, xs.length ≤ size := by
  have hwrite {buffer out : Bytes} {count : ℕ} :
      writeSshString (some buffer) 0 size arg = .ok (count, some out) ↔
        arg.copy buffer 0 = .ok out ∧ arg.count = count := by
    simp [writeSshString, bind_eq_ok, and_comm]
  simp only [StaysWithin, hwrite, StringArg.copy_eq_ok]
  constructor
  · intro h
    obtain ⟨-, -, ⟨⟨xs, hxs, -, -⟩, -⟩, -⟩ := h (replicate room 0) length_replicate
    refine ⟨xs, hxs, Nat.le_of_not_lt fun hlt => ?_⟩
    -- a buffer with another byte where the first one behind the size is stored
    obtain ⟨-, -, ⟨⟨ys, hys, -, rfl⟩, -⟩, hdrop⟩ :=
      h (replicate room (xs[size] + 1)) length_replicate
    obtain rfl : xs = ys := some.inj (hxs.symm.trans hys)
    have hbyte := congrArg (·[0]?) hdrop
    simp only [getElem?_drop, Nat.add_zero, getElem?_append_left hlt, getElem?_eq_getElem hlt,
      getElem?_replicate] at hbyte
    split at hbyte
    · exact absurd (some.inj hbyte) (by simp)
    · cases hbyte
  · rintro ⟨xs, hxs, hle⟩ buffer rfl
    refine ⟨_, _, ⟨⟨xs, hxs, by omega, rfl⟩, rfl⟩, ?_⟩
    rw [drop_append, drop_of_length_le hle, drop_drop, nil_append, Nat.add_sub_cancel' hle]

/-! ## Both directions -/

/-- Where strings are read and written right: a length wraps around exactly when it is more than
2 ^ 32 - 4, and a writer stays inside its size exactly when what it stores is not longer. -/
theorem sshStrings_exact (avail bytes : Bytes) :
    (∀ size s n, n ≤ avail.length → n < 2 ^ 32 →
      (ReadsWhole size s avail n ↔ ¬ (size = 0 ∧ 4 ≤ n ∧ 2 ^ 32 - 4 < getUint32 avail))) ∧
    (bytes.length < 2 ^ 32 - 4 → ReadsBack bytes) ∧
    (∀ room size arg, size ≤ room →
      (StaysWithin room size arg ↔ ∃ xs ∈ arg.stored, xs.length ≤ size)) :=
  ⟨fun _ _ _ => readsWhole_iff, readsBack_of_length, fun _ _ _ => staysWithin_iff⟩

theorem sshStrings_exact_hi :
    ReadsWhole 0 SshString.init (sshString [104, 105]) 6 ∧ ReadsBack [104, 105] ∧
      StaysWithin 7 6 (.c [104, 105]) := by
  obtain ⟨hread, htrip, hwrite⟩ := sshStrings_exact (sshString [104, 105]) [104, 105]
  refine ⟨(hread _ _ _ (by decide) (by decide)).mpr (by decide), htrip (by decide), ?_⟩
  exact (hwrite _ _ _ (by decide)).mpr ⟨_, rfl, by decide⟩

/-- A length of 2 ^ 32 - 1 is read as a string of three bytes altogether, and a string of two bytes is
written into a buffer of size zero. -/
theorem sshString_wraps_and_overflows :
    ¬ ReadsWhole 0 SshString.init [255, 255, 255, 255] 4 ∧ ¬ StaysWithin 7 0 (.c [104, 105]) := by
  constructor
  · rw [readsWhole_iff (by decide) (by decide)]
    decide
  · rw [staysWithin_iff (by decide)]
    rintro ⟨xs, hxs, hle⟩
    cases hxs
    exact absurd hle (by decide)

end Osns
