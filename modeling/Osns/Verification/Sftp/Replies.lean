import Osns.Model.Sftp.Receive
import Osns.Verification.Sftp.Version

/-! Which replies of a server are read inside the message. -/

namespace Osns

open Buffer List Result SftpState

/-! ## What a message states -/

def statedStatus (body : Bytes) : Option (Option Bytes) :=
  match takeString (body.drop 4) with
  | none => none
  | some (_, []) => some none
  | some (_, b :: rest) =>
    match takeString (b :: rest) with
    | none => none
    | some (_, data) => some (if data = [] then none else some data)

/-- The range of the body that a reply states; none when a field does not fit, or no reader takes the
type. A status of the first versions is read without its strings. -/
def statedBody (version : SftpVersion) (type : UInt8) (body : Bytes) : Option (Option Bytes) :=
  match replyType type with
  | .status =>
    match version with
    | .v03 | .v04 => if 4 ≤ body.length then some none else none
    | .v05 | .v06 => statedStatus body
  | .handle | .data => (takeString body).map fun (text, _) => some text
  | .name => if 4 ≤ body.length then some (some (body.drop 4)) else none
  | .attrs | .extendedReply => some (some body)
  | .extended | .unknown => none

/-- What a reply has to hold when it is signalled as received. -/
def HoldsStated (stated : Option (Option Bytes)) (before after : SftpReply) : Prop :=
  match stated with
  | none => False
  | some none => after.data = before.data ∧ after.size = before.size
  | some (some range) => after.size = range.length ∧ ∃ rest, after.data = some (range ++ rest)

/-- A reader has stayed inside the body, stored what is stated and rejected what does not fit. -/
def SafeRead (stated : Option (Option Bytes)) (body : Bytes) (reply : SftpReply)
    (result : Except Fault SftpRead) : Prop :=
  ∃ read, result = .ok read ∧ (∀ access ∈ read.reads, access.off + access.len ≤ body.length) ∧
    (read.received → HoldsStated stated reply read.reply)

def BodyFits (version : SftpVersion) (type : UInt8) (body : Bytes) : Prop :=
  match replyType type with
  | .status | .data | .name => (statedBody version type body).isSome
  | .handle => 4 ≤ body.length
  | .attrs | .extended | .extendedReply | .unknown => True

variable (session : Bool) {κ ι : Type} {header : SftpHeader} {body buffer : Bytes}
  {reply : SftpReply} {s : SftpState κ ι} {client : κ} {version : SftpVersion} {seq : ℕ}

/-- The fields that follow the length: the type, and in a reply the id. -/
def leastLen : ℕ := if session then 5 else 1

/-- The end of a message; if its length does not fit, that of the bytes that have been received. -/
def messageEnd (buffer : Bytes) : ℕ :=
  if leastLen session ≤ getUint32 buffer ∧ 4 + getUint32 buffer ≤ buffer.length then
    4 + getUint32 buffer
  else buffer.length

def messageBody (buffer : Bytes) : Bytes :=
  (buffer.drop (4 + leastLen session)).take (getUint32 buffer - leastLen session)

def statedMessage (version : SftpVersion) (buffer : Bytes) : Option (Option Bytes) :=
  if leastLen session ≤ getUint32 buffer ∧ 4 + getUint32 buffer ≤ buffer.length then
    if session then statedBody version (buffer.getD 4 0) (messageBody true buffer)
    else if buffer.getD 4 0 = fxpVersion then some (some (messageBody false buffer)) else none
  else none

section Messages

variable [DecidableEq κ] [DecidableEq ι]

/-- A message has been read inside its bytes, its range is stored in the request that is signalled,
and nothing is received of a message that does not fit. -/
def SafeReceipt (session : Bool) (version : SftpVersion) (s : SftpState κ ι) (buffer : Bytes)
    (result : Except Fault (Receipt κ ι)) : Prop :=
  ∃ receipt, result = .ok receipt ∧
    (∀ access ∈ receipt.reads, access.off + access.len ≤ messageEnd session buffer) ∧
    ∀ p, (p, true) ∈ receipt.signals →
      HoldsStated (statedMessage session version buffer) (s.request p).reply
        (receipt.state.request p).reply

variable (version : SftpVersion) (s : SftpState κ ι)

def ReplySafe (client : κ) (buffer : Bytes) (seq : ℕ) : Prop :=
  SafeReceipt (s.receiver client).session version s buffer
    (receiveSftpData version s client buffer seq)

/-- A reply: the length counts type and id and does not wrap around, and if a request waits for it
the body fits. -/
def ReplyFits (buffer : Bytes) : Prop :=
  9 ≤ buffer.length → 5 ≤ getUint32 buffer ∧ 4 + getUint32 buffer < 2 ^ 32 ∧
    (4 + getUint32 buffer ≤ buffer.length → (s.find (getUint32 (buffer.drop 5))).isSome →
      BodyFits version (buffer.getD 4 0) (messageBody true buffer))

/-- A version: the length counts the type and does not wrap around, and a request waits for it. -/
def InitFits (buffer : Bytes) : Prop :=
  0 < buffer.length ∧ (5 ≤ buffer.length → buffer.getD 4 0 = fxpVersion →
    1 ≤ getUint32 buffer ∧ 4 + getUint32 buffer < 2 ^ 32 ∧
      (4 + getUint32 buffer ≤ buffer.length → (s.find initId).isSome))

def MessageFits (client : κ) (buffer : Bytes) : Prop :=
  if (s.receiver client).session then ReplyFits version s buffer else InitFits s buffer

end Messages

/-! ## Reads of a body -/

/-- The body stands at the start of the buffer, with the room of the first nine bytes of the message
behind it, and its length in the header. -/
structure SftpHeader.Has (header : SftpHeader) (body : Bytes) : Prop where
  len : header.len = body.length
  buffer : ∃ pad, header.buffer = body ++ pad
  size : body.length + 9 < 2 ^ 32

section Reads

variable {n pos size : ℕ}

theorem SftpHeader.Has.take (h : header.Has body) {off : ℕ} (hfits : off + n ≤ body.length) :
    off + n ≤ header.buffer.length ∧ (header.buffer.drop off).take n = (body.drop off).take n := by
  obtain ⟨pad, hpad⟩ := h.buffer
  rw [hpad, length_append, drop_append_of_le_length (by omega), take_append_of_le_length]
  · exact ⟨by omega, rfl⟩
  · rw [length_drop]
    omega

theorem SftpHeader.Has.load (h : header.Has body) (off : ℕ) (hfits : off + n ≤ body.length) :
    load header.buffer off n = some ((body.drop off).take n) :=
  load_eq_some_iff.mpr (h.take hfits)

theorem SftpHeader.Has.length_lt (h : header.Has body) : body.length < 2 ^ 32 := by
  have hsize := h.size
  omega

theorem SftpHeader.Has.readUint32 (h : header.Has body) (off : ℕ)
    (hfits : off + 4 ≤ body.length) :
    readUint32 header.buffer off = .ok (getUint32 (body.drop off)) := by
  rw [Osns.readUint32, h.load off hfits, inBounds_some, ok_bind, getUint32_take (Nat.le_refl 4)]
  rfl

theorem memmoveFront_eq {buffer : Bytes} (hfits : pos + size ≤ buffer.length) :
    memmoveFront buffer pos size = .ok ((buffer.drop pos).take size ++ buffer.drop size) := by
  have hlength : ((buffer.drop pos).take size).length = size := by
    rw [length_take, length_drop]
    omega
  rw [memmoveFront, load_of_le hfits, inBounds_some, ok_bind,
    store_eq_some_iff.mpr ⟨by omega, rfl⟩, inBounds_some, hlength]
  simp

theorem SftpHeader.Has.memmoveFront (h : header.Has body) (hfits : pos + size ≤ body.length) :
    memmoveFront header.buffer pos size =
      .ok ((body.drop pos).take size ++ header.buffer.drop size) := by
  obtain ⟨hlen, htake⟩ := h.take hfits
  rw [memmoveFront_eq hlen, htake]

variable {stated : Option (Option Bytes)} {result : Except Fault SftpRead}

/-- A reader that does not reject anything needs what is stated. -/
theorem safeRead_iff (hreceived : Ensures (fun read => read.received) result)
    (hsafe : ∀ range, stated = some range → SafeRead stated body reply result) :
    SafeRead stated body reply result ↔ stated.isSome := by
  constructor
  · rintro ⟨read, hread, -, hstated⟩
    have hholds := hstated (hreceived read hread)
    cases stated with
    | none => exact hholds.elim
    | some range => rfl
  · intro hsome
    obtain ⟨range, hrange⟩ := Option.isSome_iff_exists.mp hsome
    exact hsafe range hrange

def statedString (body : Bytes) : Option (Option Bytes) := (takeString body).map fun (text, _) => some text

theorem fits_of_statedString {range : Option Bytes} (h : statedString body = some range) :
    4 ≤ body.length ∧ 4 + getUint32 body ≤ body.length := by
  unfold statedString takeString at h
  by_contra hshort
  simp [hshort] at h

theorem holds_statedString {after : SftpReply} {rest : Bytes} (hfits : 4 + getUint32 body ≤ body.length)
    (hsize : after.size = getUint32 body)
    (hdata : after.data = some ((body.drop 4).take (getUint32 body) ++ rest)) :
    HoldsStated (statedString body) reply after := by
  rw [statedString, takeString, if_pos ⟨by omega, hfits⟩]
  refine ⟨?_, rest, hdata⟩
  rw [hsize, length_take, length_drop]
  omega

end Reads

/-! ## The readers -/

section Readers

section

variable (h : header.Has body)

include h

theorem receiveSftpStatusV03_safe_iff (table : List (Option LinuxError)) :
    SafeRead (if 4 ≤ body.length then some none else none) body reply
      (receiveSftpStatusV03 table header reply) ↔
      (if 4 ≤ body.length then some none else none : Option (Option Bytes)).isSome := by
  refine safeRead_iff (ensures_bind fun _ _ => ensures_ok rfl) fun range hrange => ?_
  obtain ⟨hfits, -⟩ := Option.ite_none_right_eq_some.mp hrange
  rw [if_pos hfits, receiveSftpStatusV03, h.readUint32 0 hfits, ok_bind]
  exact ⟨_, rfl, by simpa using hfits, fun _ => ⟨rfl, rfl⟩⟩

theorem receiveSftpHandleV03_safe_iff :
    SafeRead (statedString body) body reply (receiveSftpHandleV03 header reply) ↔ 4 ≤ body.length := by
  constructor
  · rintro ⟨read, hread, hreads, -⟩
    have hfirst : Ensures (fun read => ⟨0, 4⟩ ∈ read.reads) (receiveSftpHandleV03 header reply) :=
      ensures_bind fun _ _ => ensures_ite
        (fun _ => ensures_bind fun _ _ => ensures_ok (by simp)) fun _ => ensures_ok (by simp)
    exact hreads _ (hfirst read hread)
  · intro hfits
    rw [receiveSftpHandleV03, h.readUint32 0 hfits, ok_bind, drop_zero]
    simp only
    split
    · next hsize =>
      have hlen : 4 + getUint32 body ≤ body.length := by
        have hle := hsize.2
        rw [u32_of_lt (by omega), h.len] at hle
        omega
      rw [h.memmoveFront hlen, ok_bind]
      exact ⟨_, rfl, by simpa using ⟨hfits, hlen⟩, fun _ => holds_statedString hlen rfl rfl⟩
    · exact ⟨_, rfl, by simpa using hfits, by simp⟩

theorem receiveSftpDataV03_safe_iff :
    SafeRead (statedString body) body reply (receiveSftpDataV03 header reply) ↔
      (statedString body).isSome := by
  refine safeRead_iff (ensures_bind fun _ _ => ensures_bind fun _ _ => ensures_ok rfl)
    fun range hrange => ?_
  obtain ⟨hfits, hlen⟩ := fits_of_statedString hrange
  rw [receiveSftpDataV03, h.readUint32 0 hfits, ok_bind, drop_zero, h.memmoveFront hlen, ok_bind]
  exact ⟨_, rfl, by simpa using ⟨hfits, hlen⟩, fun _ => holds_statedString hlen rfl rfl⟩

theorem readEof_inside (last : ℕ) :
    ∃ eof reads, readEof header last = .ok (eof, reads) ∧
      ∀ access ∈ reads, access.off + access.len ≤ body.length := by
  unfold readEof
  split
  · next hmore =>
    rw [h.len] at hmore
    rw [h.load _ hmore, inBounds_some, ok_bind]
    exact ⟨_, _, rfl, by simpa using Nat.succ_le_of_lt hmore⟩
  · exact ⟨_, _, rfl, by simp⟩

theorem receiveSftpDataV06_safe_iff :
    SafeRead (statedString body) body reply (receiveSftpDataV06 header reply) ↔
      (statedString body).isSome := by
  refine safeRead_iff (ensures_bind fun _ _ => ensures_bind fun _ _ => ensures_bind fun _ _ =>
    ensures_ok rfl) fun range hrange => ?_
  obtain ⟨hfits, hlen⟩ := fits_of_statedString hrange
  obtain ⟨eof, reads, heof, hinside⟩ := readEof_inside h (u32 (getUint32 body + 4))
  rw [receiveSftpDataV06, h.readUint32 0 hfits, ok_bind, drop_zero, heof, ok_bind]
  simp only [h.memmoveFront hlen, ok_bind]
  refine ⟨_, rfl, ?_, fun _ => holds_statedString hlen rfl rfl⟩
  rw [forall_mem_append, forall_mem_append, forall_mem_singleton, forall_mem_singleton]
  exact ⟨⟨hfits, hinside⟩, hlen⟩

theorem receiveSftpName_safe_iff (eofSupported : Bool) :
    SafeRead (if 4 ≤ body.length then some (some (body.drop 4)) else none) body reply
      (receiveSftpName eofSupported header reply) ↔
      (if 4 ≤ body.length then some (some (body.drop 4)) else none).isSome := by
  refine safeRead_iff (ensures_bind fun _ _ => ensures_bind fun _ _ => ensures_ok rfl)
    fun range hrange => ?_
  obtain ⟨hfits, -⟩ := Option.ite_none_right_eq_some.mp hrange
  have hlen : 4 + (body.length - 4) ≤ body.length := by omega
  rw [if_pos hfits, receiveSftpName, h.readUint32 0 hfits, ok_bind]
  simp only [h.len, u32Sub_of_le h.length_lt hfits, h.memmoveFront hlen, ok_bind]
  refine ⟨_, rfl, by simpa using ⟨hfits, hlen⟩, fun _ =>
    ⟨(length_drop ..).symm, header.buffer.drop (body.length - 4), ?_⟩⟩
  rw [← length_drop, take_length]

end

theorem receiveSftpStatusV05_received (table : List (Option LinuxError)) :
    Ensures (fun read => read.received) (receiveSftpStatusV05 table header reply) := by
  refine ensures_bind fun _ _ => ensures_bind fun _ _ => ensures_bind fun _ _ => ?_
  refine ensures_ite (fun _ => ensures_bind fun _ _ => ?_) fun _ => ensures_ok rfl
  exact ensures_ite (fun _ => ensures_bind fun _ _ => ensures_ok rfl) fun _ => ensures_ok rfl

theorem receiveSftpStatusV05_safe (h : header.Has body) (table : List (Option LinuxError))
    {message rest : Bytes} (hmessage : takeString (body.drop 4) = some (message, rest))
    (htag : rest = [] ∨ (takeString rest).isSome) :
    SafeRead (statedStatus body) body reply (receiveSftpStatusV05 table header reply) := by
  obtain ⟨hlength, hlen, -⟩ := takeString_eq hmessage
  have hrest := drop_of_takeString hmessage
  rw [drop_drop, show 4 + (4 + message.length) = 8 + message.length by omega] at hrest
  rw [length_drop] at hlength
  have hsize := h.size
  rw [statedStatus, hmessage, receiveSftpStatusV05, h.readUint32 0 (by omega),
    ok_bind, h.readUint32 4 (by omega), ok_bind, hlen,
    h.load 8 (by omega), inBounds_some, ok_bind]
  simp only [u32_of_lt (show 8 + message.length < 2 ^ 32 by omega),
    u32_of_lt (show 8 + message.length + 4 < 2 ^ 32 by omega), h.len]
  have hreads : ∀ access ∈ [(⟨0, 4⟩ : Access), ⟨4, 4⟩, ⟨8, message.length⟩],
      access.off + access.len ≤ body.length := by
    simp only [mem_cons, not_mem_nil, or_false, forall_eq_or_imp, forall_eq]
    omega
  cases hcases : rest with
  | nil =>
    rw [hcases] at hlength
    rw [if_neg (by simp only [length_nil] at hlength; omega)]
    exact ⟨_, rfl, hreads, fun _ => ⟨rfl, rfl⟩⟩
  | cons b tail =>
    rw [hcases] at hlength hrest htag
    obtain ⟨⟨tag, data⟩, htag⟩ := Option.isSome_iff_exists.mp (htag.resolve_left (cons_ne_nil _ _))
    obtain ⟨hlength', htaglen, -⟩ := takeString_eq htag
    have hdata := drop_of_takeString htag
    rw [← hrest, drop_drop, ← Nat.add_assoc] at hdata
    simp only [htag]
    by_cases hmore : 8 + message.length + 4 < body.length
    · rw [if_pos hmore, h.readUint32 (8 + message.length) (by omega), ok_bind, hrest, htaglen]
      simp only [u32_of_lt (show 8 + message.length + 4 + tag.length < 2 ^ 32 by omega)]
      have hreads' : ∀ access ∈ [(⟨0, 4⟩ : Access), ⟨4, 4⟩, ⟨8, message.length⟩] ++ [⟨8 + message.length, 4⟩],
          access.off + access.len ≤ body.length :=
        forall_mem_append.mpr ⟨hreads, forall_mem_singleton.mpr (Nat.le_of_lt hmore)⟩
      by_cases hempty : data = []
      · rw [if_pos hempty, if_neg (by rw [hempty, length_nil] at hlength'; omega)]
        exact ⟨_, rfl, hreads', fun _ => ⟨rfl, rfl⟩⟩
      · have hpositive := length_pos_iff.mpr hempty
        have hlt : 8 + message.length + 4 + tag.length < body.length := by omega
        have hstored : body.length - (8 + message.length + 4 + tag.length) = data.length := by
          omega
        rw [if_neg hempty, if_pos hlt, u32Sub_of_le h.length_lt (Nat.le_of_lt hlt), hstored]
        have hend : 8 + message.length + 4 + tag.length + data.length ≤ body.length := by omega
        rw [h.memmoveFront hend, ok_bind, hdata, take_length]
        exact ⟨_, rfl, forall_mem_append.mpr ⟨hreads', forall_mem_singleton.mpr hend⟩, fun _ => ⟨rfl, _, rfl⟩⟩
    · have hempty : data = [] := eq_nil_of_length_eq_zero (by omega)
      rw [if_neg hmore, if_pos hempty]
      exact ⟨_, rfl, hreads, fun _ => ⟨rfl, rfl⟩⟩

theorem receiveSftpStatusV05_safe_iff (h : header.Has body) (table : List (Option LinuxError)) :
    SafeRead (statedStatus body) body reply (receiveSftpStatusV05 table header reply) ↔
      (statedStatus body).isSome := by
  refine safeRead_iff (receiveSftpStatusV05_received table) fun range hrange => ?_
  cases hmessage : takeString (body.drop 4) with
  | none => simp [statedStatus, hmessage] at hrange
  | some found =>
    obtain ⟨message, rest⟩ := found
    refine receiveSftpStatusV05_safe h table hmessage ?_
    cases rest with
    | nil => exact .inl rfl
    | cons b rest =>
      cases htag : takeString (b :: rest) with
      | none => simp [statedStatus, hmessage, htag] at hrange
      | some tag => exact .inr rfl

theorem receiveSftpAttrV03_safe (h : header.Has body) :
    SafeRead (some (some body)) body reply (receiveSftpAttrV03 header reply) := by
  obtain ⟨pad, hpad⟩ := h.buffer
  refine ⟨_, rfl, by simp, fun _ => ⟨h.len, pad, ?_⟩⟩
  rw [hpad]

theorem readReply_safe_iff (h : header.Has body) (version : SftpVersion) (reply : SftpReply) :
    SafeRead (statedBody version header.type body) body reply (readReply version header reply) ↔
      BodyFits version header.type body := by
  unfold BodyFits statedBody readReply
  cases htype : replyType header.type with
  | status =>
    cases version with
    | v03 | v04 => exact receiveSftpStatusV03_safe_iff h _
    | v05 | v06 => exact receiveSftpStatusV05_safe_iff h _
  | handle => exact receiveSftpHandleV03_safe_iff h
  | data =>
    cases version with
    | v03 | v04 | v05 => exact receiveSftpDataV03_safe_iff h
    | v06 => exact receiveSftpDataV06_safe_iff h
  | name =>
    cases version with
    | v03 | v04 | v05 => exact receiveSftpName_safe_iff h false
    | v06 => exact receiveSftpName_safe_iff h true
  | attrs | extendedReply => exact iff_of_true (receiveSftpAttrV03_safe h) True.intro
  | extended | unknown => exact iff_of_true ⟨_, rfl, by simp, by simp⟩ True.intro

end Readers

/-! ## Requests -/

section Requests

variable [DecidableEq ι]

theorem getSftpRequest_of_none {id : ℕ} (h : s.find id = none) (client : κ) :
    s.getSftpRequest client id = (none, s) := by
  rw [getSftpRequest, lookupRequestHashtable, h]

theorem getSftpRequest_of_some {id : ℕ} {p : ι} (h : s.find id = some p) (client : κ) :
    ∃ s', s.getSftpRequest client id = (some p, s') ∧
      (s'.request p).reply = (s.request p).reply := by
  rw [getSftpRequest, lookupRequestHashtable, h]
  refine ⟨_, rfl, ?_⟩
  simp [setRequest, setRow]

@[simp] theorem reply_signalSftpReceivedId (p q : ι) :
    ((s.signalSftpReceivedId p).request q).reply = (s.request q).reply := by
  unfold signalSftpReceivedId setRequest
  simp only
  by_cases hq : q = p
  · subst hq
    split <;> simp
  · split <;> simp [hq]

@[simp] theorem request_setRequest (p : ι) (r : SftpRequest κ) : (s.setRequest p r).request p = r := by
  simp [setRequest]

theorem processReceiveSftpReplyError_safe [DecidableEq κ] (s : SftpState κ ι) (client : κ) (buffer : Bytes)
    (seq : ℕ) :
    (∀ access ∈ (processReceiveSftpReplyError s client buffer seq).reads,
      access.off + access.len ≤ buffer.length) ∧
      ∀ p, (p, true) ∉ (processReceiveSftpReplyError s client buffer seq).signals := by
  unfold processReceiveSftpReplyError
  split
  · next hsize =>
    have hreads : ∀ access ∈ [(⟨4, 1⟩ : Access), ⟨5, 4⟩], access.off + access.len ≤ buffer.length := by
      simp only [mem_cons, not_mem_nil, or_false, forall_eq_or_imp, forall_eq]
      omega
    simp only
    split
    · exact ⟨hreads, by simp⟩
    · exact ⟨hreads, by simp⟩
  · split
    · next hsize => exact ⟨by simpa using hsize, by simp⟩
    · exact ⟨by simp, by simp⟩

end Requests

/-! ## Replies -/

section Replies

variable [DecidableEq ι]

/-- What `deliverReply` has to do with the body of a message. -/
def DeliverSafe (version : SftpVersion) (s : SftpState κ ι) (client : κ) (header : SftpHeader)
    (body : Bytes) : Prop :=
  ∃ receipt, deliverReply version s client header = .ok receipt ∧
    (∀ access ∈ receipt.reads, access.off + access.len ≤ body.length + 9) ∧
    ∀ p, (p, true) ∈ receipt.signals →
      HoldsStated (statedBody version header.type body) (s.request p).reply
        (receipt.state.request p).reply

theorem deliverReply_safe_iff (h : header.Has body) (client : κ) :
    DeliverSafe version s client header body ↔
      ((s.find header.id).isSome → BodyFits version header.type body) := by
  unfold DeliverSafe deliverReply
  by_cases hextended : replyType header.type = .extended
  · rw [if_pos hextended]
    refine iff_of_true ⟨_, rfl, by simp, by simp⟩ fun _ => ?_
    rw [BodyFits, hextended]
    exact True.intro
  · rw [if_neg hextended]
    cases hfind : s.find header.id with
    | none =>
      rw [getSftpRequest_of_none hfind]
      exact iff_of_true ⟨_, rfl, by simp, by simp⟩ (by simp)
    | some p =>
      obtain ⟨s', hget, hreply⟩ := getSftpRequest_of_some hfind client
      simp only [hget, Option.isSome_some, forall_const]
      rw [← readReply_safe_iff h version (s.request p).reply, hreply]
      constructor
      · rintro ⟨receipt, hreceipt, hreads, hsignals⟩
        obtain ⟨read, hread, hreceipt⟩ := bind_eq_ok.mp hreceipt
        cases hreceipt
        refine ⟨read, hread, ?_, ?_⟩
        · intro access hmem
          have hinside := hreads _ (mem_map_of_mem hmem)
          simp only at hinside
          omega
        · intro hreceived
          have hholds := hsignals p (by rw [hreceived]; exact mem_singleton_self _)
          simpa [hreceived] using hholds
      · rintro ⟨read, hread, hreads, hstated⟩
        rw [hread, ok_bind]
        refine ⟨_, rfl, ?_, ?_⟩
        · intro moved hmoved
          obtain ⟨access, hmem, rfl⟩ := mem_map.mp hmoved
          have hinside := hreads access hmem
          simp only
          omega
        · intro q hmem
          obtain ⟨rfl, hreceived⟩ := Prod.mk.inj (mem_singleton.mp hmem)
          simpa [← hreceived] using hstated hreceived.symm

variable [DecidableEq κ]

theorem length_messageBody (session : Bool) (hleast : leastLen session ≤ getUint32 buffer)
    (hfits : 4 + getUint32 buffer ≤ buffer.length) :
    (messageBody session buffer).length = getUint32 buffer - leastLen session := by
  simp only [messageBody, length_take, length_drop]
  omega

theorem receiveSftpReply_header (version : SftpVersion) (s : SftpState κ ι) (client : κ) (seq : ℕ)
    (hsize : buffer.length < 2 ^ 32) (hleast : 5 ≤ getUint32 buffer)
    (hfits : 4 + getUint32 buffer ≤ buffer.length) :
    ∃ header : SftpHeader, header.Has (messageBody true buffer) ∧ header.type = buffer.getD 4 0 ∧
      header.id = getUint32 (buffer.drop 5) ∧
      receiveSftpReply version s client buffer seq =
        deliverReply version s client header >>= fun receipt =>
          .ok { receipt with
            reads := [⟨0, 4⟩, ⟨4, 1⟩, ⟨5, 4⟩, ⟨9, getUint32 buffer - 5⟩] ++ receipt.reads } := by
  have hlt := getUint32_lt buffer
  have hbody : (messageBody true buffer).length = getUint32 buffer - 5 :=
    length_messageBody true hleast hfits
  have hlen : u32Sub (u32Sub (getUint32 buffer) 1) 4 = getUint32 buffer - 5 := by
    rw [u32Sub_of_le hlt (by omega), u32Sub_of_le (by omega) (by omega)]
    omega
  have hmoved : memmoveFront buffer 9 (getUint32 buffer - 5) =
      .ok (messageBody true buffer ++ buffer.drop (getUint32 buffer - 5)) := memmoveFront_eq (by omega)
  have hcleared : store (messageBody true buffer ++ buffer.drop (getUint32 buffer - 5))
      (getUint32 buffer - 5) (replicate (buffer.length - (getUint32 buffer - 5)) 0) =
      some (messageBody true buffer ++ replicate (buffer.length - (getUint32 buffer - 5)) 0) := by
    have hstore := store_append (messageBody true buffer)
      (buffer.drop (getUint32 buffer - 5)) []
      (replicate (buffer.length - (getUint32 buffer - 5)) 0) hbody.symm (by simp)
    simpa using hstore
  refine ⟨{
    len := getUint32 buffer - 5
    type := buffer.getD 4 0
    id := getUint32 (buffer.drop 5)
    buffer := messageBody true buffer ++ replicate (buffer.length - (getUint32 buffer - 5)) 0 },
    ⟨hbody.symm, ⟨_, rfl⟩, by omega⟩, rfl, rfl, ?_⟩
  unfold receiveSftpReply
  simp only [if_neg (show ¬ buffer.length < 9 by omega), u32_of_lt (Nat.lt_of_le_of_lt hfits hsize),
    if_neg (Nat.not_lt.mpr hfits), hlen, hmoved, ok_bind,
    u32Sub_of_le hsize (show getUint32 buffer - 5 ≤ buffer.length by omega), hcleared,
    inBounds_some]
  rfl

theorem receiveSftpReply_overrun (hsize : buffer.length < 2 ^ 32) (hnine : 9 ≤ buffer.length)
    (hbad : getUint32 buffer < 5 ∨ 2 ^ 32 ≤ 4 + getUint32 buffer) :
    receiveSftpReply version s client buffer seq = .error .overrun := by
  have hlt := getUint32_lt buffer
  have hlen : buffer.length < 9 + u32Sub (u32Sub (getUint32 buffer) 1) 4 := by
    unfold u32Sub
    omega
  have haccepted : ¬ buffer.length < u32 (4 + getUint32 buffer) := by
    unfold u32
    omega
  have hload : load buffer 9 (u32Sub (u32Sub (getUint32 buffer) 1) 4) = none :=
    if_neg (by omega)
  unfold receiveSftpReply
  simp only [if_neg (Nat.not_lt.mpr hnine), if_neg haccepted]
  rw [memmoveFront, hload]
  rfl

theorem processReceiveSftpReplyError_receipt {session : Bool} {s' : SftpState κ ι}
    (hend : messageEnd session buffer = buffer.length) :
    SafeReceipt session version s buffer
      (.ok (processReceiveSftpReplyError s' client buffer seq)) := by
  obtain ⟨hreads, hsignals⟩ := processReceiveSftpReplyError_safe s' client buffer seq
  exact ⟨_, rfl, hend ▸ hreads, fun p hp => absurd hp (hsignals p)⟩

theorem receiveSftpReply_receipt_iff (hsize : buffer.length < 2 ^ 32)
    (hleast : 5 ≤ getUint32 buffer) (hfits : 4 + getUint32 buffer ≤ buffer.length) :
    SafeReceipt true version s buffer (receiveSftpReply version s client buffer seq) ↔
      ((s.find (getUint32 (buffer.drop 5))).isSome →
        BodyFits version (buffer.getD 4 0) (messageBody true buffer)) := by
  obtain ⟨header, hhas, htype, hid, hreceive⟩ :=
    receiveSftpReply_header version s client seq hsize hleast hfits
  have hbody : (messageBody true buffer).length + 9 = 4 + getUint32 buffer := by
    have hlength := length_messageBody true hleast hfits
    simp only [leastLen, if_true] at hlength
    omega
  have hend : messageEnd true buffer = 4 + getUint32 buffer := if_pos ⟨hleast, hfits⟩
  have hstated : statedMessage true version buffer =
      statedBody version header.type (messageBody true buffer) := by
    rw [htype]
    exact if_pos ⟨hleast, hfits⟩
  rw [← htype, ← hid, ← deliverReply_safe_iff hhas client, hreceive]
  unfold SafeReceipt DeliverSafe
  rw [hend, hstated, ← hbody]
  constructor
  · rintro ⟨receipt, hreceipt, hreads, hsignals⟩
    obtain ⟨delivered, hdelivered, hreceipt⟩ := bind_eq_ok.mp hreceipt
    cases hreceipt
    exact ⟨delivered, hdelivered, fun access hmem => hreads access (mem_append_right _ hmem),
      hsignals⟩
  · rintro ⟨delivered, hdelivered, hreads, hsignals⟩
    rw [hdelivered, ok_bind]
    refine ⟨_, rfl, ?_, hsignals⟩
    intro access hmem
    rcases mem_append.mp hmem with hmem | hmem
    · simp only [mem_cons, not_mem_nil, or_false] at hmem
      rcases hmem with rfl | rfl | rfl | rfl <;> simp only <;> omega
    · exact hreads access hmem

theorem receiveSftpReply_safe_iff (hsize : buffer.length < 2 ^ 32) :
    SafeReceipt true version s buffer (receiveSftpReply version s client buffer seq) ↔
      ReplyFits version s buffer := by
  unfold ReplyFits
  by_cases hnine : 9 ≤ buffer.length
  · simp only [hnine, forall_const]
    by_cases hbad : getUint32 buffer < 5 ∨ 2 ^ 32 ≤ 4 + getUint32 buffer
    · refine iff_of_false ?_ (by omega)
      rintro ⟨receipt, hreceipt, -⟩
      rw [receiveSftpReply_overrun hsize hnine hbad] at hreceipt
      cases hreceipt
    · have hleast : 5 ≤ getUint32 buffer := by omega
      have hwrap : 4 + getUint32 buffer < 2 ^ 32 := by omega
      by_cases hfits : 4 + getUint32 buffer ≤ buffer.length
      · rw [receiveSftpReply_receipt_iff hsize hleast hfits]
        simp only [hleast, hwrap, hfits, true_and, forall_const]
      · have hreject : receiveSftpReply version s client buffer seq =
            .ok (processReceiveSftpReplyError s client buffer seq) := by
          unfold receiveSftpReply
          simp only [if_neg (Nat.not_lt.mpr hnine)]
          rw [u32_of_lt hwrap, if_pos (Nat.lt_of_not_le hfits)]
        rw [hreject]
        exact iff_of_true (processReceiveSftpReplyError_receipt (if_neg fun h => hfits h.2))
          ⟨hleast, hwrap, fun h => absurd h hfits⟩
  · have hreject : receiveSftpReply version s client buffer seq =
        .ok (processReceiveSftpReplyError s client buffer seq) := if_pos (Nat.lt_of_not_le hnine)
    rw [hreject]
    refine iff_of_true (processReceiveSftpReplyError_receipt (if_neg fun h => ?_))
      fun h => absurd h hnine
    simp only [leastLen, if_true] at h
    omega

end Replies

/-! ## The version -/

section Init

variable [DecidableEq κ] [DecidableEq ι]

theorem deliverVersion_safe_iff {body rest : Bytes}
    (hstated : statedMessage false version buffer = some (some body))
    (hend : messageEnd false buffer = 5 + body.length) :
    SafeReceipt false version s buffer
      (deliverVersion (setSession s client) client body.length (body ++ rest)) ↔
      (s.find initId).isSome := by
  unfold SafeReceipt deliverVersion
  rw [hstated, hend]
  cases hfind : s.find initId with
  | none =>
    have hnone : (setSession s client).find initId = none := hfind
    rw [getSftpRequest_of_none hnone]
    exact iff_of_false (fun ⟨_, h, _⟩ => nomatch h) (by simp)
  | some p =>
    have hsome : (setSession s client).find initId = some p := hfind
    obtain ⟨s', hget, -⟩ := getSftpRequest_of_some hsome client
    rw [hget]
    refine iff_of_true ⟨_, rfl, ?_, ?_⟩ rfl
    · intro access hmem
      simp only [mem_cons, not_mem_nil, or_false] at hmem
      rcases hmem with rfl | rfl | rfl <;> simp only <;> omega
    · intro q hq
      obtain ⟨rfl, -⟩ := Prod.mk.inj (mem_singleton.mp hq)
      simp [HoldsStated]

omit [DecidableEq ι] in
theorem ignored_safe (hfive : 5 ≤ buffer.length) :
    SafeReceipt false version s buffer
      (.ok { state := setSession s client, reads := [⟨0, 4⟩, ⟨4, 1⟩], signals := [] }) := by
  have hend : 5 ≤ messageEnd false buffer := by
    have hleast : leastLen false = 1 := rfl
    unfold messageEnd
    split
    · omega
    · exact hfive
  refine ⟨_, rfl, ?_, by simp⟩
  intro access hmem
  simp only [mem_cons, not_mem_nil, or_false] at hmem
  rcases hmem with rfl | rfl <;> simp only <;> omega

theorem acceptVersion_safe_iff (hsize : buffer.length < 2 ^ 32) (hfive : 5 ≤ buffer.length)
    (htype : buffer.getD 4 0 = fxpVersion) :
    SafeReceipt false version s buffer (receiveSftpInit s client buffer seq) ↔
      1 ≤ getUint32 buffer ∧ 4 + getUint32 buffer < 2 ^ 32 ∧
        (4 + getUint32 buffer ≤ buffer.length → (s.find initId).isSome) := by
  have hlt := getUint32_lt buffer
  unfold receiveSftpInit
  simp only [if_pos hfive, htype, and_true]
  by_cases hbad : getUint32 buffer < 1 ∨ 2 ^ 32 ≤ 4 + getUint32 buffer
  · have haccepted : u32 (5 + u32Sub (getUint32 buffer) 1) ≤ buffer.length := by
      unfold u32 u32Sub
      omega
    have hload : load buffer 5 (u32Sub (getUint32 buffer) 1) = none := by
      refine if_neg ?_
      unfold u32Sub
      omega
    rw [if_pos haccepted, memmoveFront, hload]
    exact iff_of_false (fun ⟨_, h, _⟩ => nomatch h) (by omega)
  · have hleast : 1 ≤ getUint32 buffer := by omega
    have hwrap : 4 + getUint32 buffer < 2 ^ 32 := by omega
    have hlen : u32Sub (getUint32 buffer) 1 = getUint32 buffer - 1 := u32Sub_of_le hlt hleast
    have hsum : u32 (5 + (getUint32 buffer - 1)) = 4 + getUint32 buffer := by
      rw [u32_of_lt (by omega)]
      omega
    rw [hlen, hsum]
    by_cases hfits : 4 + getUint32 buffer ≤ buffer.length
    · have hbody : (messageBody false buffer).length = getUint32 buffer - 1 :=
        length_messageBody false hleast hfits
      have hmoved : memmoveFront buffer 5 (getUint32 buffer - 1) =
          .ok (messageBody false buffer ++ buffer.drop (getUint32 buffer - 1)) := memmoveFront_eq (by omega)
      have hstated : statedMessage false version buffer = some (some (messageBody false buffer)) := by
        refine (if_pos ⟨hleast, hfits⟩).trans ?_
        exact if_pos htype
      have hend : messageEnd false buffer = 5 + (messageBody false buffer).length := by
        refine (if_pos ⟨hleast, hfits⟩).trans ?_
        omega
      rw [if_pos hfits, hmoved, ok_bind, ← hbody, deliverVersion_safe_iff hstated hend]
      simp only [hleast, hwrap, hfits, true_and, forall_const]
    · rw [if_neg hfits]
      exact iff_of_true (ignored_safe hfive) ⟨hleast, hwrap, fun h => absurd h hfits⟩

theorem receiveSftpInit_safe_iff (hsize : buffer.length < 2 ^ 32) :
    SafeReceipt false version s buffer (receiveSftpInit s client buffer seq) ↔ InitFits s buffer := by
  unfold InitFits
  by_cases hfive : 5 ≤ buffer.length
  · have hpositive : 0 < buffer.length := by omega
    simp only [hpositive, hfive, true_and, forall_const]
    by_cases htype : buffer.getD 4 0 = fxpVersion
    · simp only [htype, forall_const]
      exact acceptVersion_safe_iff hsize hfive htype
    · refine iff_of_true ?_ fun h => absurd h htype
      unfold receiveSftpInit
      simp only [if_pos hfive, htype, and_false, if_false]
      exact ignored_safe hfive
  · simp only [hfive, false_imp_iff, and_true]
    unfold receiveSftpInit
    simp only [if_neg hfive]
    by_cases hpositive : 0 < buffer.length
    · have hend : messageEnd false buffer = buffer.length := by
        refine if_neg fun h => ?_
        simp only [leastLen, Bool.false_eq_true, if_false] at h
        omega
      obtain ⟨hreads, hsignals⟩ :=
        processReceiveSftpReplyError_safe (setSession s client) client buffer seq
      rw [load_of_le hpositive, inBounds_some, ok_bind]
      refine iff_of_true ⟨_, rfl, ?_, fun p hp => absurd hp (hsignals p)⟩ hpositive
      rw [hend]
      exact forall_mem_cons.mpr ⟨hpositive, hreads⟩
    · have hload : load buffer 0 1 = none := if_neg (by omega)
      rw [hload]
      exact iff_of_false (fun ⟨_, h, _⟩ => nomatch h) hpositive

end Init

section Data

variable [DecidableEq κ] [DecidableEq ι]

theorem replySafe_iff_of_session {version : SftpVersion} {buffer : Bytes} {seq : ℕ}
    (hsize : buffer.length < 2 ^ 32) (hsession : (s.receiver client).session = true) :
    ReplySafe version s client buffer seq ↔ ReplyFits version s buffer := by
  rw [ReplySafe, receiveSftpData, hsession, if_pos rfl]
  exact receiveSftpReply_safe_iff hsize

/-- A message is handled safely exactly when it fits. -/
theorem replySafe_iff (version : SftpVersion) (s : SftpState κ ι) (client : κ) (buffer : Bytes)
    (seq : ℕ) (hsize : buffer.length < 2 ^ 32) :
    ReplySafe version s client buffer seq ↔ MessageFits version s client buffer := by
  rw [MessageFits]
  cases hsession : (s.receiver client).session with
  | true =>
    rw [if_pos rfl]
    exact replySafe_iff_of_session hsize hsession
  | false =>
    rw [if_neg Bool.false_ne_true, ReplySafe, receiveSftpData, hsession, if_neg Bool.false_ne_true]
    exact receiveSftpInit_safe_iff hsize

end Data

def oneRequest : SftpState Unit Unit where
  request _ := {
    client := ()
    id := 1
    status := { waiting := true, response := false, finish := false, error := false }
    reply := { type := 0, response := .unset, data := none, size := 0 } }
  rows hash := if hash = 1 then [()] else []
  receiver _ := { session := true, seq := 0, seqtype := 0 }

/-- A reply with the handle `7`. -/
theorem replySafe_handle :
    ReplySafe .v03 oneRequest () (storeUint32 10 ++ [102] ++ storeUint32 1 ++ sshString [7]) 0 := by
  refine (replySafe_iff .v03 oneRequest () _ 0 (by decide +kernel)).mpr ?_
  exact fun _ => ⟨by decide, by decide +kernel, fun _ _ => show 4 ≤ _ by decide⟩

/-- A reply with data of the length 100 that are not there, and one whose length does not count its
type and id. -/
theorem reply_not_safe :
    ¬ ReplySafe .v03 oneRequest () (storeUint32 9 ++ [103] ++ storeUint32 1 ++ storeUint32 100) 0 ∧
      ¬ ReplySafe .v03 oneRequest () (storeUint32 0 ++ [101] ++ storeUint32 1 ++ storeUint32 0) 0 := by
  constructor
  · intro hsafe
    have hfits := (replySafe_iff_of_session (by decide +kernel) rfl).mp hsafe (by decide)
    have hbody : (statedBody .v03 103 (storeUint32 100)).isSome := hfits.2.2 (by decide) (by decide)
    exact absurd hbody (by decide)
  · intro hsafe
    have hfits := (replySafe_iff_of_session (by decide +kernel) rfl).mp hsafe (by decide)
    exact absurd hfits.1 (by decide)

end Osns
