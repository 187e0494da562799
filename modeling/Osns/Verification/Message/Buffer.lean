import Osns.Model.MsgBuffer

/-! What writing to a message buffer does to its contents and to the memory behind it. -/

namespace Osns.MsgBuffer

/-! ## The position and the memory behind the buffer -/

/-- The position has reached `n`, and the memory behind the buffer is untouched. -/
structure Within (memory : ℕ → UInt8) (size n : ℕ) (mb : MsgBuffer) : Prop where
  null : mb.null = false
  len : mb.len = size
  pos : mb.pos = n
  outside : ∀ i, size ≤ i → mb.data i = memory i

theorem within_setMsgBuffer (memory : ℕ → UInt8) (len : ℕ) :
    Within memory len 0 (setMsgBuffer memory len) :=
  ⟨rfl, rfl, rfl, fun _ _ => rfl⟩

section Within

variable {memory : ℕ → UInt8} {len n : ℕ} {mb : MsgBuffer}

section

variable (h : Within memory len n mb)

include h

theorem Within.rewind : Within memory len 0 { mb with pos := 0 } :=
  ⟨h.null, h.len, rfl, h.outside⟩

theorem Within.skip {k : ℕ} (hlt : n + k < 2 ^ 32) :
    Within memory len (n + k) (mb.skip k) :=
  { h with pos := by rw [MsgBuffer.skip, h.pos, u32_of_lt hlt] }

theorem Within.setFatalError (error : BufferError) :
    Within memory len n (mb.setFatalError error) :=
  { h with }

theorem Within.copy {xs : Bytes} (hfits : n + xs.length ≤ len) :
    Within memory len n (mb.copy xs) := by
  refine ⟨h.null, h.len, h.pos, ?_⟩
  intro i hi
  have hsame := Memory.write_outside mb.data mb.pos xs (i := i) (.inr (by rw [h.pos]; omega))
  exact hsame.trans (h.outside i hi)

theorem Within.write {room : Bool} (xs : Bytes) (hroom : room = true → n + xs.length ≤ len)
    (hlt : n + xs.length < 2 ^ 32) :
    Within memory len (n + xs.length) (mb.write room xs) := by
  unfold MsgBuffer.write
  split
  · split
    next hr => exact (h.copy (hroom hr)).skip hlt
    next => exact (h.setFatalError _).skip hlt
  · exact h.skip hlt

theorem Within.msgWriteByte (b : UInt8) (hlt : n + 1 < 2 ^ 32) :
    Within memory len (n + 1) (mb.msgWriteByte b) := by
  refine h.write [b] ?_ hlt
  intro hroom
  rw [decide_eq_true_eq, h.pos, h.len] at hroom
  exact hroom

theorem Within.msgWriteBytes (xs : Bytes) (hlt : n + xs.length < 2 ^ 32) :
    Within memory len (n + xs.length) (mb.msgWriteBytes xs) := by
  refine h.write xs ?_ hlt
  intro hroom
  rwa [decide_eq_true_eq, h.pos, h.len, u32_of_lt hlt] at hroom

end

end Within

/-! ## The contents -/

/-- Everything written so far is in the buffer. -/
structure Holds (memory : ℕ → UInt8) (size : ℕ) (xs : Bytes) (mb : MsgBuffer) : Prop
    extends Within memory size xs.length mb where
  writing : mb.writing = true
  contents : mb.contents = xs

theorem holds_setMsgBuffer (memory : ℕ → UInt8) (size : ℕ) :
    Holds memory size [] (setMsgBuffer memory size) :=
  ⟨within_setMsgBuffer memory size, rfl, rfl⟩

section Holds

variable {memory : ℕ → UInt8} {size : ℕ} {xs : Bytes} {mb : MsgBuffer}

theorem Holds.rewind (h : Holds memory size xs mb) : Holds memory size [] { mb with pos := 0 } :=
  ⟨h.toWithin.rewind, h.writing, rfl⟩

section

variable (h : Holds memory size xs mb) (ys : Bytes) (hsize : size < 2 ^ 32)
  (hfits : xs.length + ys.length ≤ size)

include h hsize hfits

theorem Holds.copy_skip :
    Holds memory size (xs ++ ys) ((mb.copy ys).skip ys.length) := by
  have hwithin := (h.toWithin.copy hfits).skip (k := ys.length) (by omega)
  refine ⟨by rwa [List.length_append], h.writing, ?_⟩
  rw [MsgBuffer.contents, hwithin.pos, ← h.pos]
  exact (Memory.read_write_append mb.data mb.pos ys).trans (congrArg (· ++ ys) h.contents)

theorem Holds.msgWriteBytes :
    Holds memory size (xs ++ ys) (mb.msgWriteBytes ys) := by
  have hroom : u32 (mb.pos + ys.length) ≤ mb.len := by
    rw [h.pos, h.len, u32_of_lt (by omega)]
    exact hfits
  simp only [MsgBuffer.msgWriteBytes, MsgBuffer.write, h.writing, hroom, decide_true, if_true]
  exact h.copy_skip ys hsize hfits

end

theorem Holds.msgWriteByte (h : Holds memory size xs mb) (b : UInt8) (hsize : size < 2 ^ 32)
    (hfits : xs.length < size) : Holds memory size (xs ++ [b]) (mb.msgWriteByte b) := by
  have hroom : mb.pos < mb.len := by
    rw [h.pos, h.len]
    exact hfits
  simp only [MsgBuffer.msgWriteByte, MsgBuffer.write, h.writing, hroom, decide_true, if_true]
  exact h.copy_skip [b] hsize hfits

end Holds

/-! ## Big integers -/

theorem getNbytes_eq (mp : ℕ) :
    getNbytes mp = if getNbits mp % 8 = 0 then getNbits mp / 8 else getNbits mp / 8 + 1 := by
  have hbit : mp.testBit (getNbits mp) = false := Nat.testBit_lt_two_pow (Nat.lt_size_self mp)
  simp [getNbytes, hbit]

theorem length_mpint (mp : ℕ) :
    (mpint mp).length = if mp = 0 then 4 else 4 + (getNbits mp / 8 + 1) := by
  by_cases h : mp = 0
  · simp [mpint, h]
  · simp [mpint, h]

theorem length_mpint_eq (mp : ℕ) : (mpint mp).length =
    if mp ≠ 0 ∧ getNbits mp % 8 = 0 then 4 + getNbytes mp + 1 else 4 + getNbytes mp := by
  rw [length_mpint, getNbytes_eq]
  by_cases h : mp = 0
  · simp [h, getNbits]
  · by_cases hbits : getNbits mp % 8 = 0
    · simp only [h, hbits, ne_eq, not_false_eq_true, and_self, if_true, if_false]
      omega
    · simp [h, hbits]

variable {mb : MsgBuffer}

theorem msgWriteSshMpint_eq {mp len n : ℕ} (hnull : mb.null = false)
    (hlen : mb.len = len) (hpos : mb.pos = n) (hlt : len < 2 ^ 32)
    (hfits : n + (mpint mp).length ≤ len) :
    mb.msgWriteSshMpint mp = (mb.copy (mpint mp)).skip (mpint mp).length := by
  have hle : 4 + getNbytes mp ≤ (mpint mp).length := by
    rw [length_mpint_eq]
    split <;> omega
  have hroom : u32 (mb.pos + (4 + getNbytes mp)) ≤ mb.len := by
    rw [hpos, hlen, u32_of_lt (by omega)]
    omega
  have hsize : (mpint mp).length ≤ u32Sub mb.len mb.pos := by
    rw [hpos, hlen, u32Sub_of_le hlt (by omega)]
    omega
  simp [MsgBuffer.msgWriteSshMpint, hnull, hroom, hsize]

variable {memory : ℕ → UInt8}

theorem Within.msgWriteSshMpint {len n : ℕ} (h : Within memory len n mb) (mp : ℕ)
    (hlt : len < 2 ^ 32) (hfits : n + (mpint mp).length ≤ len) :
    Within memory len (n + (mpint mp).length) (mb.msgWriteSshMpint mp) := by
  rw [msgWriteSshMpint_eq h.null h.len h.pos hlt hfits]
  exact (h.copy hfits).skip (by omega)

theorem Holds.msgWriteSshMpint {size : ℕ} {xs : Bytes} (h : Holds memory size xs mb) (mp : ℕ)
    (hsize : size < 2 ^ 32) (hfits : xs.length + (mpint mp).length ≤ size) :
    Holds memory size (xs ++ mpint mp) (mb.msgWriteSshMpint mp) := by
  rw [msgWriteSshMpint_eq h.null h.len h.pos hsize hfits]
  exact h.copy_skip (mpint mp) hsize hfits

end Osns.MsgBuffer
