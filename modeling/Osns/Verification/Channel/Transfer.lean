import Osns.Library.Wire
import Osns.Verification.Channel.Handlers
import Osns.Verification.Message.Programs
import Osns.Model.Channel.Send

/-! Which channel messages fill exactly the payload that is computed for them, and what a receiver makes
of them. -/

namespace Osns

open List Result ChannelPayload

/-! ## Writing -/

def ChannelField.encode : ChannelField → Bytes
  | .byte b => [b]
  | .uint32 value => storeUint32 value
  | .string text => sshString text
  | .bytes data => data

section Writing

variable {done free : Bytes}

theorem Cursor.store_append {xs : Bytes} (hfree : xs.length ≤ free.length) :
    Cursor.store ⟨done ++ free, done.length⟩ xs =
      .ok ⟨(done ++ xs) ++ free.drop xs.length, (done ++ xs).length⟩ := by
  have hstore := Buffer.store_append done (free.take xs.length) (free.drop xs.length) xs rfl
    (length_take_of_le hfree).symm
  rw [append_assoc, take_append_drop] at hstore
  rw [Cursor.store, hstore, length_append]
  rfl

variable {fields : List ChannelField}

end Writing

namespace ChannelMsg

def encode (msg : ChannelMsg) : Bytes := msg.fields.flatMap ChannelField.encode

/-! ## Receiving -/

/-- The number of the signal that a request begins with the name of, behind its length. -/
def requestedSignal (bytes : Bytes) : ℕ :=
  ((exitSignals.find? fun signal => (sshString signal.1).isPrefixOf bytes).map (·.2)).getD 0

variable (server : Bool)

/-- Neither answer to an open message fits. Requests reach a server when there is something in them. A
client takes the end of a command, without the name of a signal. -/
def Exact : ChannelMsg → Prop
  | .openConfirmation _ _ _ _ | .openFailure _ _ _ _ => False
  | .close _ _ | .windowadjust _ _ => True
  | .request _ type _ bytes =>
    10 + type.length + bytes.length < 2 ^ 32 ∧
      if server then 0 < type.length + bytes.length
      else type = exitStatusText ∨ type = exitSignalText ∧ requestedSignal bytes = 0
  | .data _ bytes => 9 + bytes.length < 2 ^ 32
  | .xdata _ _ bytes => 13 + bytes.length < 2 ^ 32 ∧ 0 < bytes.length

/-! ## Payloads behind the number of the channel -/

section Payloads

variable {p : ChannelPayload} {b : UInt8} {rcnr : UInt32} {rest : Bytes}

section

variable (h : p.buffer = b :: (storeUint32 rcnr.toNat ++ rest))

include h

theorem recipient_of_encode :
    p.recipient = rcnr.toNat := by
  rw [recipient, h, drop_succ_cons, drop_zero, getUint32_store_of_lt rcnr.toNat_lt]

theorem drop_of_encode :
    p.buffer.drop 5 = rest := by
  rw [h]
  exact drop_storeUint32 rcnr.toNat rest

theorem drop_add_of_encode (n : ℕ) :
    p.buffer.drop (5 + n) = rest.drop n := by
  rw [← drop_drop, drop_of_encode h]

theorem length_of_encode :
    p.buffer.length = 5 + rest.length := by
  rw [h, length_cons, length_append, length_storeUint32]
  omega

end

/-! ## One message after the other -/

variable {bytes : Bytes}

theorem readSshStringSized_of_encode {type after : Bytes}
    (h : p.buffer = b :: (storeUint32 rcnr.toNat ++ (sshString type ++ after)))
    (hsize : p.buffer.length < 2 ^ 32) :
    readSshStringSized (p.buffer.drop 5) (u32Sub p.buffer.length 5) =
      .ok (4 + type.length, { len := type.length, ptr := some (type ++ after) }) := by
  have hlen := length_of_encode h
  rw [length_append, length_sshString] at hlen
  rw [u32Sub_of_le hsize (by omega), drop_of_encode h]
  refine readSshStringSized_written type after (by omega) (by omega) ?_
  rw [length_append, length_sshString]
  omega

/-- What a client takes from a request about the end of a command. No signal is found. -/
def exitCb (type tail : Bytes) (rest : ChannelPayload) : ChannelCb :=
  if type = exitStatusText then
    .setChannelFlag flagQueueExitStatus 0 (if 5 ≤ tail.length then getUint32 (tail.drop 1) else 0) 0 rest
  else .setChannelFlag flagQueueExitSignal 0 0 0 rest

theorem receiveMsgChannelRequestC_exit {type tail : Bytes}
    (htype : type = exitStatusText ∨ type = exitSignalText)
    (h : p.buffer = b :: (storeUint32 rcnr.toNat ++ (sshString type ++ tail)))
    (hsize : p.buffer.length < 2 ^ 32) :
    receiveMsgChannelRequestC p =
      .ok (some (rcnr.toNat, exitCb type tail { p with buffer := sshString type ++ tail })) := by
  have htext : type.length = 11 := by rcases htype with rfl | rfl <;> rfl
  have hlen := length_of_encode h
  rw [length_append, length_sshString, htext] at hlen
  have hholds : SshString.Holds { len := type.length, ptr := some (type ++ tail) } type := ⟨_, rfl⟩
  have hdata : p.dataLength = 11 := by
    rw [dataLength, drop_of_encode h, getUint32_sshString (by omega), htext]
  have hdrop : p.buffer.drop 21 = tail.drop 1 := by
    rw [show 21 = 5 + (4 + (11 + 1)) from rfl, drop_add_of_encode h, ← drop_drop,
      drop_four_sshString, ← drop_drop, drop_left' htext]
  have hstatus : readExitStatus p 21 = .ok (if 5 ≤ tail.length then getUint32 (tail.drop 1) else 0) := by
    rw [readExitStatus, u32_of_lt (by decide)]
    split
    · rw [if_pos (by omega), p.getUint32At_eq (by omega), hdrop]
    · rw [if_neg (by omega)]
      rfl
  rw [receiveMsgChannelRequestC, if_pos (by omega), p.getUint32At_eq (by omega), ok_bind,
    readSshStringSized_of_encode h hsize]
  simp only [ok_bind]
  rw [if_pos (by omega), hholds.compareC, ok_bind, hholds.compareC, ok_bind, htext,
    show u32 (5 + u32 (4 + 11) + 1) = 21 by decide, hstatus, readExitSignal_eq hsize hdata, ok_bind, ok_bind,
    p.moveToFront_rest hsize (by omega), drop_of_encode h, ok_bind, ok_bind, ← recipient,
    recipient_of_encode h]
  rcases htype with rfl | rfl
  · rfl
  · rfl

end Payloads

/-! ## All messages -/

variable {msg : ChannelMsg}

end ChannelMsg

/-! ## The end of a command

What a client makes of the status or the signal with which a command has ended. -/

namespace ChannelMsg

/-- The signal of a request with all its fields, zero when it has no number. -/
def namedSignal (tail : Bytes) : ℕ :=
  if (Wire.skip [.string, .word 1, .string, .string] (tail.drop 1)).isSome then requestedSignal (tail.drop 1)
  else 0

/-- A complete status or signal is set in the channel, and any other request leaves both alone. -/
@[mk_iff] structure ExitRight (type tail : Bytes) (c : Channel) (cb : ChannelCb) : Prop where
  status : (cb.apply c).exitStatus =
    if type = exitStatusText ∧ 5 ≤ tail.length then getUint32 (tail.drop 1) else c.exitStatus
  signal : (cb.apply c).exitSignal =
    if type = exitSignalText ∧ namedSignal tail ≠ 0 then namedSignal tail else c.exitSignal

theorem apply_setChannelFlag (flags : UInt32) (status : ℕ) (rest : ChannelPayload) (c : Channel) :
    ((ChannelCb.setChannelFlag flags 0 status 0 rest).apply c).exitStatus =
        (if status = 0 then c.exitStatus else status) ∧
      ((ChannelCb.setChannelFlag flags 0 status 0 rest).apply c).exitSignal = c.exitSignal := by
  rw [ChannelCb.apply]
  split
  · exact ⟨rfl, rfl⟩
  · exact ⟨rfl, rfl⟩

/-- A status of zero does not replace another one, and a signal is never set. -/
theorem exitRequest_right_iff {p : ChannelPayload} {b : UInt8} {rcnr : UInt32} {type tail : Bytes}
    (htype : type = exitStatusText ∨ type = exitSignalText)
    (h : p.buffer = b :: (storeUint32 rcnr.toNat ++ (sshString type ++ tail)))
    (hsize : p.buffer.length < 2 ^ 32) (c : Channel) :
    ∃ cb, receiveMsgChannelRequestC p = .ok (some (rcnr.toNat, cb)) ∧ (ExitRight type tail c cb ↔
      if type = exitStatusText then 5 ≤ tail.length → getUint32 (tail.drop 1) = 0 → c.exitStatus = 0
      else namedSignal tail ≠ 0 → c.exitSignal = namedSignal tail) := by
  refine ⟨_, receiveMsgChannelRequestC_exit htype h hsize, ?_⟩
  have hne : exitStatusText ≠ exitSignalText := by decide
  rw [exitRight_iff, exitCb]
  rcases htype with rfl | rfl
  · simp only [if_true, apply_setChannelFlag]
    grind
  · simp only [if_neg hne.symm, apply_setChannelFlag]
    grind

def exitRequest (type tail : Bytes) : ChannelPayload where
  type := 98
  sequence := 0
  buffer := 98 :: (storeUint32 (7 : UInt32).toNat ++ (sshString type ++ tail))
  code := 0

theorem exitRequest_right_one :
    ∃ cb, receiveMsgChannelRequestC (exitRequest exitStatusText [0, 0, 0, 0, 1]) = .ok (some (7, cb)) ∧
      ExitRight exitStatusText [0, 0, 0, 0, 1] (ChannelsTable.openedOn 0 0) cb := by
  obtain ⟨cb, hcb, hright⟩ := exitRequest_right_iff (p := exitRequest _ [0, 0, 0, 0, 1]) (.inl rfl) rfl
    (by decide) (ChannelsTable.openedOn 0 0)
  exact ⟨cb, hcb, hright.mpr (by decide)⟩

/-- The fields behind the byte about a reply for the signal TERM. -/
def termSignal : Bytes := [0, 0, 0, 0, 4, 84, 69, 82, 77, 0, 0, 0, 0, 0, 0, 0, 0, 0]

theorem exitRequest_signal_lost :
    ∃ cb, receiveMsgChannelRequestC (exitRequest exitSignalText termSignal) = .ok (some (7, cb)) ∧
      ¬ ExitRight exitSignalText termSignal (ChannelsTable.openedOn 0 0) cb :=
  ⟨_, receiveMsgChannelRequestC_exit (p := exitRequest _ _) (.inr rfl) rfl (by decide),
    fun hright => absurd hright.signal (by decide)⟩

end ChannelMsg

end Osns
