import Osns.Library.Transition
import Osns.Model.Channel.Receive
import Osns.Verification.Message.Strings

/-! The handlers of channel messages stay inside their payload, as long as the length of data does not
wrap around, and all of them address the channel of the number behind the type. -/

namespace Osns

open List Result Buffer

variable {p : ChannelPayload}

namespace ChannelPayload

def recipient (p : ChannelPayload) : ℕ := getUint32 (p.buffer.drop 1)

def dataLength (p : ChannelPayload) : ℕ := getUint32 (p.buffer.drop 5)

def xdataLength (p : ChannelPayload) : ℕ := getUint32 (p.buffer.drop 9)

theorem getUint32At_eq {pos : ℕ} (h : pos + 4 ≤ p.buffer.length) :
    p.getUint32At pos = .ok (getUint32 (p.buffer.drop pos)) := by
  have hload : load p.buffer pos 4 = some ((p.buffer.drop pos).take 4) :=
    load_of_le h
  rw [getUint32At, hload, inBounds_some, map_ok, getUint32_take (Nat.le_refl 4)]

theorem moveToFront_eq {pos len : ℕ} (h : pos + len ≤ p.buffer.length) :
    p.moveToFront pos len = .ok { p with buffer := (p.buffer.drop pos).take len } := by
  have hload : load p.buffer pos len = some ((p.buffer.drop pos).take len) :=
    load_of_le h
  rw [moveToFront, hload]
  rfl

theorem moveToFront_rest {pos : ℕ} (hsize : p.buffer.length < 2 ^ 32) (h : pos ≤ p.buffer.length) :
    p.moveToFront pos (u32Sub p.buffer.length pos) =
      .ok { p with buffer := p.buffer.drop pos } := by
  rw [u32Sub_of_le hsize h, moveToFront_eq (by omega), take_of_length_le (Nat.le_of_eq length_drop)]

end ChannelPayload

/-! ## Equations -/
theorem receiveMsgChannelWindowAdjust_eq (hsize : 9 ≤ p.buffer.length) :
    receiveMsgChannelWindowAdjust p =
      .ok (some (p.recipient, .setWindowSize (getUint32 (p.buffer.drop 5)))) := by
  rw [receiveMsgChannelWindowAdjust, if_neg (by omega), p.getUint32At_eq (by omega), ok_bind,
    p.getUint32At_eq (by omega)]
  rfl

theorem receiveMsgChannelOpenStatus_eq (hsize : 5 ≤ p.buffer.length) (flag status : UInt32) :
    receiveMsgChannelOpenStatus p flag status =
      .ok (some (p.recipient, .setChannelFlag flag status 0 0 p)) := by
  rw [receiveMsgChannelOpenStatus, if_neg (by omega), p.getUint32At_eq (by omega)]
  rfl

theorem receiveMsgChannelData_eq (hsize : 8 < p.buffer.length) :
    receiveMsgChannelData p =
      if u32 (p.dataLength + 9) ≤ p.buffer.length then
        (p.moveToFront 9 p.dataLength).map fun p' => some (p.recipient, .doiocb .recvData p')
      else .ok none := by
  rw [receiveMsgChannelData, if_pos hsize, p.getUint32At_eq (by omega), ok_bind,
    p.getUint32At_eq (by omega), ok_bind]
  change (if u32 (p.dataLength + 9) ≤ _ then _ else _) = _
  split
  · change (p.moveToFront 9 p.dataLength >>= _) = _
    cases p.moveToFront 9 p.dataLength <;> rfl
  · rfl

theorem receiveMsgChannelExtendedData_eq (hsize : 13 < p.buffer.length) :
    receiveMsgChannelExtendedData p =
      if u32 (p.xdataLength + 13) ≤ p.buffer.length then
        (p.moveToFront 13 p.xdataLength).map fun p' =>
          some (p.recipient, .doiocb .recvXdata { p' with code := p.dataLength })
      else .ok none := by
  rw [receiveMsgChannelExtendedData, if_pos hsize, p.getUint32At_eq (by omega), ok_bind,
    p.getUint32At_eq (by omega), ok_bind, p.getUint32At_eq (by omega), ok_bind]
  change (if u32 (p.xdataLength + 13) ≤ _ then _ else _) = _
  split
  · change (p.moveToFront 13 p.xdataLength >>= _) = _
    cases p.moveToFront 13 p.xdataLength <;> rfl
  · rfl

/-! ## All handlers -/

/-- A handler that stays inside its payload and addresses no channel but the recipient. -/
def Handles (p : ChannelPayload) (d : Dispatch) : Prop :=
  ∃ r, d = .ok r ∧ ∀ lcnr cb, r = some (lcnr, cb) → lcnr = p.recipient

theorem handles_none (p : ChannelPayload) : Handles p (.ok none) :=
  ⟨none, rfl, by rintro lcnr cb ⟨⟩⟩

theorem handles_some (p : ChannelPayload) (cb : ChannelCb) :
    Handles p (.ok (some (p.recipient, cb))) := by
  refine ⟨_, rfl, ?_⟩
  rintro lcnr cb' ⟨⟩
  rfl

/-- The length of data does not wrap around with what is in front of it. -/
def ChannelPayload.NoWrap (p : ChannelPayload) : Prop :=
  (p.type = 94 → 8 < p.buffer.length → p.dataLength + 9 < 2 ^ 32) ∧
    (p.type = 95 → 13 < p.buffer.length → p.xdataLength + 13 < 2 ^ 32)

theorem handles_openReply : Handles p (receiveMsgOpenReply p) := by
  by_cases hshort : p.buffer.length < 17
  · rw [receiveMsgOpenReply, if_pos hshort]
    exact handles_none p
  · rw [receiveMsgOpenReply, if_neg hshort, p.getUint32At_eq (by omega)]
    exact handles_some p _

theorem handles_windowAdjust : Handles p (receiveMsgChannelWindowAdjust p) := by
  by_cases hshort : p.buffer.length < 9
  · rw [receiveMsgChannelWindowAdjust, if_pos hshort]
    exact handles_none p
  · rw [receiveMsgChannelWindowAdjust_eq (by omega)]
    exact handles_some p _

theorem handles_data (h : 8 < p.buffer.length → p.dataLength + 9 < 2 ^ 32) :
    Handles p (receiveMsgChannelData p) := by
  by_cases hsize : 8 < p.buffer.length
  · rw [receiveMsgChannelData_eq hsize, u32_of_lt (h hsize)]
    split
    · rw [p.moveToFront_eq (by omega)]
      exact handles_some p _
    · exact handles_none p
  · rw [receiveMsgChannelData, if_neg hsize]
    exact handles_none p

theorem handles_extendedData (h : 13 < p.buffer.length → p.xdataLength + 13 < 2 ^ 32) :
    Handles p (receiveMsgChannelExtendedData p) := by
  by_cases hsize : 13 < p.buffer.length
  · rw [receiveMsgChannelExtendedData_eq hsize, u32_of_lt (h hsize)]
    split
    · rw [p.moveToFront_eq (by omega)]
      exact handles_some p _
    · exact handles_none p
  · rw [receiveMsgChannelExtendedData, if_neg hsize]
    exact handles_none p

theorem handles_openStatus (flag status : UInt32) :
    Handles p (receiveMsgChannelOpenStatus p flag status) := by
  by_cases hshort : p.buffer.length < 5
  · rw [receiveMsgChannelOpenStatus, if_pos hshort]
    exact handles_none p
  · rw [receiveMsgChannelOpenStatus_eq (by omega)]
    exact handles_some p _

theorem handles_requestReply (hsize : p.buffer.length < 2 ^ 32) :
    Handles p (receiveMsgChannelRequestReply p) := by
  rw [receiveMsgChannelRequestReply]
  split
  · exact handles_none p
  · rw [p.getUint32At_eq (by omega), ok_bind, p.moveToFront_rest hsize (by omega)]
    exact handles_some p _

theorem readSshStringSized_request (hsize : p.buffer.length < 2 ^ 32) (hlen : 10 < p.buffer.length) :
    ∃ n s, readSshStringSized (p.buffer.drop 5) (u32Sub p.buffer.length 5) = .ok (n, s) ∧
      s.len = p.dataLength ∧
      (0 < n → s.len < 2 ^ 32 - 4 → 5 + (4 + s.len) ≤ p.buffer.length ∧
        s.ptr = some (p.buffer.drop 9)) := by
  have hdrop : (p.buffer.drop 5).length = p.buffer.length - 5 := length_drop
  rw [u32Sub_of_le hsize (by omega), readSshStringSized_of_le (by omega) (by omega)]
  split
  · rename_i hle
    refine ⟨_, _, rfl, rfl, fun _ hlt => ⟨?_, ?_⟩⟩
    · change p.dataLength < _ at hlt
      change u32 (4 + p.dataLength) ≤ _ at hle
      rw [u32_of_lt (by omega)] at hle
      simp only
      change 5 + (4 + p.dataLength) ≤ _
      omega
    · rw [drop_drop]
  · exact ⟨_, _, rfl, rfl, fun h => absurd h (Nat.lt_irrefl 0)⟩

theorem handles_requestS (hsize : p.buffer.length < 2 ^ 32) :
    Handles p (receiveMsgChannelRequestS p) := by
  rw [receiveMsgChannelRequestS]
  split
  · rename_i hlen
    obtain ⟨n, s, hread, -⟩ := readSshStringSized_request hsize hlen
    rw [p.getUint32At_eq (by omega), ok_bind, hread]
    simp only [ok_bind]
    split
    · rw [p.moveToFront_rest hsize (by omega)]
      exact handles_some p _
    · exact handles_none p
  · exact handles_none p

/-! ## Requests to a client -/

theorem SshString.compareC_of_ne {s : SshString} {text : Bytes} (h : s.len ≠ text.length) :
    s.compareC text = .ok false := if_neg h

theorem SshString.compareC_isOk {s : SshString} {data text : Bytes}
    (h : s.len = text.length → s.ptr = some data ∧ s.len ≤ data.length) :
    ∃ equal, s.compareC text = .ok equal ∧ (equal = true → s.len = text.length) := by
  by_cases hlen : s.len = text.length
  · obtain ⟨hptr, hle⟩ := h hlen
    have hload : load data 0 s.len = some (data.take s.len) :=
      load_of_le (by omega)
    have htext : ∃ bytes, s.text = .ok bytes := by
      rw [SshString.text]
      split
      · exact ⟨[], rfl⟩
      · exact ⟨data.take s.len, by rw [SshString.bytes, hptr, Option.bind_some, hload]; rfl⟩
    obtain ⟨bytes, htext⟩ := htext
    exact ⟨_, by rw [SshString.compareC, if_pos hlen, htext]; rfl, fun _ => hlen⟩
  · exact ⟨false, SshString.compareC_of_ne hlen, by rintro ⟨⟩⟩

theorem readSshStringSized_isOk {avail : Bytes} (h : 4 ≤ avail.length) (n : ℕ) :
    ∃ count s, readSshStringSized avail n = .ok (count, s) := by
  have hload : load avail 0 4 = some (avail.take 4) :=
    load_of_le (by omega)
  rw [readSshStringSized]
  split
  · rw [hload, inBounds_some, ok_bind]
    simp only
    split
    · exact ⟨_, _, rfl⟩
    · exact ⟨_, _, rfl⟩
  · exact ⟨_, _, rfl⟩

theorem getSshChannelExitSignal_of_ne {name : SshString} {signals : List (Bytes × ℕ)}
    (h : ∀ signal ∈ signals, name.len ≠ signal.1.length) :
    getSshChannelExitSignal name signals = .ok 0 := by
  induction signals with
  | nil => rfl
  | cons signal signals ih =>
    rw [forall_mem_cons] at h
    rw [getSshChannelExitSignal, SshString.compareC_of_ne h.1]
    exact ih h.2

theorem readExitStatus_isOk (p : ChannelPayload) : ∃ status, readExitStatus p 21 = .ok status := by
  rw [readExitStatus]
  split
  · rename_i hle
    rw [u32_of_lt (by decide)] at hle
    exact ⟨_, p.getUint32At_eq hle⟩
  · exact ⟨0, rfl⟩

theorem readExitSignal_eq (hsize : p.buffer.length < 2 ^ 32) (hlen : p.dataLength = 11) :
    readExitSignal p 5 21 = .ok 0 := by
  rw [readExitSignal]
  split
  · rename_i hle
    rw [u32_of_lt (by decide)] at hle
    have hdrop : (p.buffer.drop 5).length = p.buffer.length - 5 := length_drop
    have hname : ∃ n s, readSshStringSized (p.buffer.drop 5) (u32Sub p.buffer.length 21) =
        .ok (n, s) ∧ s.len = 11 := by
      rw [u32Sub_of_le hsize (by omega), readSshStringSized_of_le (by omega) (by omega)]
      split
      · exact ⟨_, _, rfl, hlen⟩
      · exact ⟨_, _, rfl, hlen⟩
    obtain ⟨n, s, hname, hs⟩ := hname
    obtain ⟨count, message, hmessage⟩ :=
      readSshStringSized_isOk (show 4 ≤ (p.buffer.drop 5).length by omega)
        (u32Sub p.buffer.length (u32 (21 + n + 1)))
    rw [hname, ok_bind, hmessage, ok_bind]
    apply getSshChannelExitSignal_of_ne
    rw [hs]
    decide
  · rfl

theorem handles_requestC (hsize : p.buffer.length < 2 ^ 32) :
    Handles p (receiveMsgChannelRequestC p) := by
  rw [receiveMsgChannelRequestC]
  split
  · rename_i hlen
    obtain ⟨n, s, hread, hs, hwhole⟩ := readSshStringSized_request hsize hlen
    rw [p.getUint32At_eq (by omega), ok_bind, hread]
    simp only [ok_bind]
    split
    · rename_i hn
      have hcompare : ∀ text : Bytes, text.length = 11 →
          ∃ equal, s.compareC text = .ok equal ∧ (equal = true → s.len = text.length) := by
        intro text htext
        have hdata : s.len = text.length →
            s.ptr = some (p.buffer.drop 9) ∧ s.len ≤ (p.buffer.drop 9).length := by
          intro heq
          obtain ⟨hinside, hptr⟩ := hwhole hn (by omega)
          refine ⟨hptr, ?_⟩
          rw [length_drop]
          omega
        exact SshString.compareC_isOk hdata
      obtain ⟨isStatus, hstatus, hstatuslen⟩ := hcompare exitStatusText rfl
      obtain ⟨isSignal, hsignal, hsignallen⟩ := hcompare exitSignalText rfl
      rw [hstatus, ok_bind, hsignal, ok_bind]
      have htmp : s.len = 11 → u32 (5 + u32 (4 + s.len) + 1) = 21 := by
        intro heq
        rw [heq]
        decide
      split
      · rename_i hyes
        obtain ⟨status, hreadstatus⟩ := readExitStatus_isOk p
        rw [htmp (hstatuslen hyes), hreadstatus, ok_bind, p.moveToFront_rest hsize (by omega)]
        exact handles_some p _
      · split
        · rename_i hyes
          have heleven := hsignallen hyes
          rw [htmp heleven, readExitSignal_eq hsize (hs.symm.trans heleven), ok_bind,
            p.moveToFront_rest hsize (by omega)]
          exact handles_some p _
        · exact handles_none p
    · exact handles_none p
  · exact handles_none p

theorem handles_processChannelMsg (server : Bool) (hsize : p.buffer.length < 2 ^ 32)
    (hwrap : p.NoWrap) : Handles p (processChannelMsg server p) := by
  rw [processChannelMsg]
  split
  · exact handles_none p
  split
  · exact handles_openReply
  split
  · exact handles_openReply
  split
  · exact handles_windowAdjust
  split
  · exact handles_data (hwrap.1 ‹_›)
  split
  · exact handles_extendedData (hwrap.2 ‹_›)
  split
  · exact handles_openStatus _ _
  split
  · exact handles_openStatus _ _
  split
  · split
    · exact handles_requestS hsize
    · exact handles_requestC hsize
  split
  · exact handles_requestReply hsize
  · exact handles_none p

/-! ## Data

What is forwarded is the announced string inside the payload, and messages that are too short for it are
dropped, exactly when the length does not wrap around. -/

namespace ChannelPayload

def window (p : ChannelPayload) (pos len : ℕ) : ChannelPayload :=
  { p with buffer := (p.buffer.drop pos).take len }

/-- Data is forwarded to the recipient when the announced bytes are there, and dropped otherwise. -/
def ForwardsData (p : ChannelPayload) : Prop :=
  receiveMsgChannelData p =
    if 9 + p.dataLength ≤ p.buffer.length then
      .ok (some (p.recipient, .doiocb .recvData (p.window 9 p.dataLength)))
    else .ok none

/-- Extended data goes with its code, and is also dropped when it is empty. -/
def ForwardsXdata (p : ChannelPayload) : Prop :=
  receiveMsgChannelExtendedData p =
    if 13 + p.xdataLength ≤ p.buffer.length ∧ 13 < p.buffer.length then
      .ok (some (p.recipient,
        .doiocb .recvXdata { p.window 13 p.xdataLength with code := p.dataLength }))
    else .ok none

theorem moveToFront_overrun {pos len : ℕ} (h : p.buffer.length < pos + len) :
    p.moveToFront pos len = .error .overrun := by
  have hload : load p.buffer pos len = none := if_neg (Nat.not_le_of_lt h)
  rw [moveToFront, hload]
  rfl

/-- The test of the handlers is the right one as long as position and length do not wrap around. When they
do, the test is passed with a length that leaves the payload. -/
theorem moveToFront_iff {pos len : ℕ} (hsize : p.buffer.length < 2 ^ 32)
    (hpos : pos ≤ p.buffer.length) (hlen : len < 2 ^ 32)
    (forward : ChannelPayload → Option (ℕ × ChannelCb)) :
    ((if u32 (len + pos) ≤ p.buffer.length then (p.moveToFront pos len).map forward else .ok none) =
        if pos + len ≤ p.buffer.length then .ok (forward (p.window pos len)) else .ok none) ↔
      len + pos < 2 ^ 32 := by
  constructor
  · intro heq
    by_contra hwrap
    have hu32 : u32 (len + pos) ≤ p.buffer.length := by
      unfold u32
      omega
    rw [if_pos hu32, moveToFront_overrun (by omega), if_neg (by omega)] at heq
    cases heq
  · intro hlt
    rw [u32_of_lt hlt, Nat.add_comm len pos]
    split
    · rename_i hle
      rw [moveToFront_eq hle]
      rfl
    · rfl

theorem forwardsData_iff (hsize : p.buffer.length < 2 ^ 32) :
    p.ForwardsData ↔ (8 < p.buffer.length → p.dataLength + 9 < 2 ^ 32) := by
  by_cases hlong : 8 < p.buffer.length
  · have hiff := moveToFront_iff hsize (show 9 ≤ p.buffer.length from hlong)
      (show p.dataLength < 2 ^ 32 from getUint32_lt _) fun p' =>
        some (p.recipient, .doiocb .recvData p')
    rw [ForwardsData, receiveMsgChannelData_eq hlong, hiff]
    exact ⟨fun h _ => h, fun h => h hlong⟩
  · rw [ForwardsData, receiveMsgChannelData, if_neg hlong, if_neg (by omega)]
    exact ⟨fun _ h => absurd h hlong, fun _ => rfl⟩

theorem forwardsXdata_iff (hsize : p.buffer.length < 2 ^ 32) :
    p.ForwardsXdata ↔ (13 < p.buffer.length → p.xdataLength + 13 < 2 ^ 32) := by
  by_cases hlong : 13 < p.buffer.length
  · have hiff := moveToFront_iff hsize (Nat.le_of_lt hlong)
      (show p.xdataLength < 2 ^ 32 from getUint32_lt _) fun p' =>
        some (p.recipient, .doiocb .recvXdata { p' with code := p.dataLength })
    simp only [ForwardsXdata, hlong, and_true]
    rw [receiveMsgChannelExtendedData_eq hlong, hiff]
    exact ⟨fun h _ => h, fun h => h trivial⟩
  · rw [ForwardsXdata, receiveMsgChannelExtendedData, if_neg hlong, if_neg (by omega)]
    exact ⟨fun _ h => absurd h hlong, fun _ => rfl⟩

/-- What is forwarded lies inside the payload and is the announced string, and nothing else is forwarded,
exactly when the announced length does not wrap around with what is in front of it. -/
theorem channelData_forwarded (p : ChannelPayload) (hsize : p.buffer.length < 2 ^ 32) :
    (p.ForwardsData ↔ (8 < p.buffer.length → p.dataLength + 9 < 2 ^ 32)) ∧
      (p.ForwardsXdata ↔ (13 < p.buffer.length → p.xdataLength + 13 < 2 ^ 32)) :=
  ⟨forwardsData_iff hsize, forwardsXdata_iff hsize⟩

def twoBytes : ChannelPayload where
  type := 94
  sequence := 0
  buffer := [94, 0, 0, 0, 3, 0, 0, 0, 2, 7, 8]
  code := 0

def hugeLength : ChannelPayload where
  type := 94
  sequence := 0
  buffer := [94, 0, 0, 0, 3, 255, 255, 255, 255, 7]
  code := 0

theorem channelData_forwarded_twoBytes :
    twoBytes.ForwardsData ∧ twoBytes.ForwardsXdata ∧
      receiveMsgChannelData twoBytes =
        .ok (some (3, .doiocb .recvData { twoBytes with buffer := [7, 8] })) :=
  ⟨(channelData_forwarded twoBytes (by decide)).1.mpr fun _ => by decide,
    (channelData_forwarded twoBytes (by decide)).2.mpr fun h => absurd h (by decide), by decide⟩

/-- The message is not dropped, the bytes are moved from far behind the payload. -/
theorem channelData_leaves_payload :
    receiveMsgChannelData hugeLength = .error .overrun ∧
      ¬ 9 + hugeLength.dataLength ≤ hugeLength.buffer.length ∧ ¬ hugeLength.ForwardsData := by
  refine ⟨by decide, by decide, ?_⟩
  rw [ForwardsData]
  decide

end ChannelPayload

/-! ## Isolation

Connections share one table of channels, and a message is given to the channel with its number, whatever
connection it comes from. It leaves the channels of other connections alone when that number is one of its
own connection. -/

open Transition

theorem ChannelCb.apply_connection (cb : ChannelCb) (c : Channel) :
    (cb.apply c).connection = c.connection := by
  cases cb with
  | doiocb iocbnr payload => rfl
  | setWindowSize size => rfl
  | setChannelFlag flags status exitStatus exitSignal payload =>
    simp only [ChannelCb.apply]
    split <;> rfl

namespace ChannelsTable

def others (t : ChannelsTable) (connection row : ℕ) : List Channel :=
  (t.tablehash row).filter (·.connection ≠ connection)

variable {t : ChannelsTable}

theorem others_lookupSshChannelForCb {connection lcnr : ℕ} {cb : ChannelCb}
    (h : ∀ c, t.findSshChannel lcnr = some c → c.connection = connection) (row : ℕ) :
    (t.lookupSshChannelForCb lcnr cb.apply).others connection row = t.others connection row := by
  simp only [others, lookupSshChannelForCb, Chains.modify]
  by_cases hrow : row = channelHash lcnr
  · subst hrow
    rw [Function.update_self]
    apply Chains.filter_modifyFirst
    intro c hc
    have hown := h c hc
    constructor
    · simpa using hown
    · simpa [cb.apply_connection] using hown
  · rw [Function.update_of_ne hrow]

/-- A message is received without a fault and leaves the channels of other connections as they are. -/
def Isolated (t : ChannelsTable) : TableOp → Prop
  | .receive connection server p =>
    ∃ t', t.step (.receive connection server p) = some t' ∧
      ∀ row, t'.others connection row = t.others connection row
  | _ => True

/-- The number in a message stands for a channel of its own connection, if for any, and the length of data
does not wrap around. -/
def Addressed (t : ChannelsTable) : TableOp → Prop
  | .receive connection _ p =>
    p.buffer.length < 2 ^ 32 ∧ p.NoWrap ∧
      ∀ c, t.findSshChannel p.recipient = some c → c.connection = connection
  | _ => True

theorem isolated_receive {connection : ℕ} {server : Bool} {p : ChannelPayload}
    (hsize : p.buffer.length < 2 ^ 32) (hwrap : p.NoWrap)
    (hown : ∀ c, t.findSshChannel p.recipient = some c → c.connection = connection) :
    t.Isolated (.receive connection server p) := by
  obtain ⟨r, hr, hrecipient⟩ := handles_processChannelMsg server hsize hwrap
  simp only [Isolated, step, receiveChannelMsg, hr, ok_bind]
  cases r with
  | none => exact ⟨t, rfl, fun _ => rfl⟩
  | some found =>
    obtain ⟨lcnr, cb⟩ := found
    have hlcnr := hrecipient lcnr cb rfl
    subst hlcnr
    exact ⟨_, rfl, others_lookupSshChannelForCb hown⟩

theorem isolated_of_addressed {op : TableOp} (h : t.Addressed op) : t.Isolated op := by
  cases op with
  | add c => exact True.intro
  | remove id lcnr => exact True.intro
  | receive connection server p => exact isolated_receive h.1 h.2.1 h.2.2

/-- In every history of the table, messages that are addressed to their own connection leave all others
alone. -/
theorem receive_isolated (ops : List TableOp)
    (h : Along step Addressed initSshChannelsTable ops) :
    Along step Isolated initSshChannelsTable ops :=
  along_of_invariant (fun _ _ _ _ _ _ => True.intro) (fun _ _ _ ha => isolated_of_addressed ha)
    True.intro h

def openedOn (id connection : ℕ) : Channel where
  id := id
  connection := connection
  lcnr := 0
  flags := 0
  rwindowsize := 0
  exitStatus := 0
  exitSignal := 0
  received := []

def dataForZero : ChannelPayload where
  type := 94
  sequence := 0
  buffer := [94, 0, 0, 0, 0, 0, 0, 0, 1, 7]
  code := 0

theorem receive_isolated_own :
    Along step Isolated initSshChannelsTable
      [.add (openedOn 0 0), .add (openedOn 1 1), .receive 0 false dataForZero] := by
  refine receive_isolated _ ⟨True.intro, ?_⟩
  rintro _ ⟨⟩
  refine ⟨True.intro, ?_⟩
  rintro _ ⟨⟩
  refine ⟨⟨by decide, ⟨fun _ _ => by decide, by rintro ⟨⟩⟩, ?_⟩, fun _ _ => True.intro⟩
  rintro c ⟨⟩
  rfl

/-- Data that arrives on connection 0 is delivered to the channel of connection 1. -/
theorem receive_not_isolated :
    ¬ Along step Isolated initSshChannelsTable [.add (openedOn 0 1), .receive 0 false dataForZero] ∧
      ((run step initSshChannelsTable [.add (openedOn 0 1), .receive 0 false dataForZero]).map
        fun t => (t.others 0 0).map fun c => c.received.map fun r => r.2.buffer) = some [[[7]]] := by
  constructor
  · rintro ⟨-, h⟩
    obtain ⟨⟨t', ht', hothers⟩, -⟩ := h _ rfl
    cases ht'
    exact absurd (hothers 0) (by decide)
  · decide

end ChannelsTable

end Osns
