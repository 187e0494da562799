import Osns.Library.Transition
import Osns.Model.Sftp.Receive

/-! Several clients in one process, which share the table of requests. -/

namespace Osns

open Result Transition

section Clients

variable {κ ι : Type}

/-! ## What a message may change -/

/-- The id that a message makes the receiver look up. A message whose length does not fit is looked
up whatever its type is. -/
def lookedUp (session : Bool) (buffer : Bytes) : Option ℕ :=
  if session then
    if buffer.length < 9 then none
    else if buffer.length < u32 (4 + getUint32 buffer) then some (getUint32 (buffer.drop 5))
    else if replyType (buffer.getD 4 0) = .extended then none
    else some (getUint32 (buffer.drop 5))
  else if 5 ≤ buffer.length ∧ u32 (5 + u32Sub (getUint32 buffer) 1) ≤ buffer.length ∧
      buffer.getD 4 0 = fxpVersion then some initId
  else none

/-- A message on the channel of a client changes only a pending request that the client has sent with
the id of the message, and leaves the pending requests of others in the table. -/
def Isolated (s : SftpState κ ι) (client : κ) (buffer : Bytes) (s' : SftpState κ ι) : Prop :=
  ∀ p, (s'.request p ≠ s.request p → s.Pending p ∧ (s.request p).client = client ∧
      lookedUp (s.receiver client).session buffer = some (s.request p).id) ∧
    (s.Pending p → (s.request p).client ≠ client → s'.Pending p ∧ s'.request p = s.request p)

/-- The first request in the row with the id of the message is one of the client. -/
def ForClient (s : SftpState κ ι) (client : κ) (buffer : Bytes) : Prop :=
  ∀ id p, lookedUp (s.receiver client).session buffer = some id → s.find id = some p →
    (s.request p).client = client

/-! ## Changes -/

/-- Nothing but the request `target` is changed or taken from the table. -/
def ChangesOnly (target : Option ι) (s s' : SftpState κ ι) : Prop :=
  ∀ p, target ≠ some p → s'.request p = s.request p ∧ ∀ hash, p ∈ s.rows hash → p ∈ s'.rows hash

section Changes

variable {target : Option ι} {s s' s'' : SftpState κ ι} {p : ι}

theorem ChangesOnly.refl (target : Option ι) (s : SftpState κ ι) : ChangesOnly target s s :=
  fun _ _ => ⟨rfl, fun _ h => h⟩

theorem ChangesOnly.trans (h : ChangesOnly target s s') (h' : ChangesOnly target s' s'') :
    ChangesOnly target s s'' := by
  intro p hp
  obtain ⟨hrequest, hrows⟩ := h p hp
  obtain ⟨hrequest', hrows'⟩ := h' p hp
  exact ⟨hrequest'.trans hrequest, fun hash hmem => hrows' hash (hrows hash hmem)⟩

theorem ChangesOnly.receiver (target : Option ι) (s : SftpState κ ι) (receiver : κ → SftpReceiver) :
    ChangesOnly target s { s with receiver } :=
  fun _ _ => ⟨rfl, fun _ h => h⟩

variable [DecidableEq ι]

theorem ChangesOnly.setRequest (s : SftpState κ ι) (p : ι) (r : SftpRequest κ) :
    ChangesOnly (some p) s (s.setRequest p r) := by
  intro q hq
  have hne : q ≠ p := fun h => hq (congrArg some h.symm)
  exact ⟨Function.update_of_ne hne _ _, fun _ h => h⟩

theorem ChangesOnly.signalSftpReceivedId (s : SftpState κ ι) (p : ι) :
    ChangesOnly (some p) s (s.signalSftpReceivedId p) := by
  unfold SftpState.signalSftpReceivedId
  simp only
  split
  · exact .setRequest s p _
  · exact .setRequest s p _

theorem ChangesOnly.getSftpRequest (s : SftpState κ ι) (client : κ) (id : ℕ) :
    ChangesOnly (s.find id) s (s.getSftpRequest client id).2 := by
  unfold SftpState.getSftpRequest SftpState.lookupRequestHashtable
  cases s.find id with
  | none => exact .refl _ s
  | some p =>
    refine ChangesOnly.trans ?_ (.setRequest _ p _)
    intro q hq
    refine ⟨rfl, fun hash hmem => ?_⟩
    have hne : q ≠ p := fun h => hq (congrArg some h.symm)
    unfold SftpState.setRow
    by_cases hhash : hash = id % hashsize
    · subst hhash
      simp only [Function.update_self]
      exact (List.mem_erase_of_ne hne).mpr hmem
    · simp only [Function.update_of_ne hhash]
      exact hmem

theorem getSftpRequest_cases (s : SftpState κ ι) (client : κ) (id : ℕ) :
    (s.find id = none ∧ s.getSftpRequest client id = (none, s)) ∨
      ∃ p s', s.find id = some p ∧ s.getSftpRequest client id = (some p, s') ∧
        ChangesOnly (some p) s s' := by
  have hchanges := ChangesOnly.getSftpRequest s client id
  unfold SftpState.getSftpRequest SftpState.lookupRequestHashtable at hchanges ⊢
  cases hfind : s.find id with
  | none => exact .inl ⟨rfl, rfl⟩
  | some p =>
    rw [hfind] at hchanges
    exact .inr ⟨p, _, rfl, rfl, hchanges⟩

end Changes

/-! ## Messages -/

variable {s : SftpState κ ι} {client : κ} {buffer : Bytes} {seq : ℕ} {version : SftpVersion}

theorem find_eq_some {id : ℕ} {p : ι} (h : s.find id = some p) :
    s.Pending p ∧ (s.request p).id = id := by
  unfold SftpState.find at h
  have hid : (s.request p).id = id := by simpa using List.find?_some h
  refine ⟨?_, hid⟩
  rw [SftpState.Pending, hid]
  exact List.mem_of_find?_eq_some h

variable [DecidableEq ι]

theorem deliverReply_changes {header : SftpHeader} :
    Ensures (fun receipt => ChangesOnly
      (if replyType header.type = .extended then none else s.find header.id) s receipt.state)
      (deliverReply version s client header) := by
  refine ensures_ite (fun _ => ensures_ok (.refl _ s)) fun hextended => ?_
  rw [if_neg hextended]
  rcases getSftpRequest_cases s client header.id with ⟨-, hget⟩ | ⟨p, s', hfind, hget, hchanges⟩
  · rw [hget]
    exact ensures_ok (.refl _ s)
  · rw [hget, hfind]
    refine ensures_bind fun read _ => ensures_ok ?_
    simp only
    split
    · exact (hchanges.trans (.setRequest s' p _)).trans (.signalSftpReceivedId _ p)
    · exact (hchanges.trans (.setRequest s' p _)).trans (.setRequest _ p _)

theorem deliverVersion_changes {len : ℕ} {moved : Bytes} :
    Ensures (fun receipt => ChangesOnly (s.find initId) s receipt.state)
      (deliverVersion s client len moved) := by
  unfold deliverVersion
  rcases getSftpRequest_cases s client initId with ⟨-, hget⟩ | ⟨p, s', hfind, hget, hchanges⟩
  · rw [hget]
    exact ensures_error
  · rw [hget, hfind]
    exact ensures_ok ((hchanges.trans (.setRequest s' p _)).trans (.signalSftpReceivedId _ p))

variable [DecidableEq κ]

theorem processReceiveSftpReplyError_changes (hnine : 9 ≤ buffer.length) :
    ChangesOnly (s.find (getUint32 (buffer.drop 5))) s
      (processReceiveSftpReplyError s client buffer seq).state := by
  unfold processReceiveSftpReplyError signalSftpReplyInvalid
  simp only [if_pos hnine]
  rcases getSftpRequest_cases s client (getUint32 (buffer.drop 5)) with
    ⟨hfind, hget⟩ | ⟨p, s', hfind, hget, hchanges⟩
  · simp only [hget]
    exact .receiver _ s _
  · simp only [hget, hfind]
    exact (hchanges.trans (.setRequest s' p _)).trans (.setRequest _ p _)

theorem processReceiveSftpReplyError_short (hnine : buffer.length < 9) :
    ChangesOnly none s (processReceiveSftpReplyError s client buffer seq).state := by
  unfold processReceiveSftpReplyError
  simp only [if_neg (Nat.not_le.mpr hnine)]
  split
  · exact .receiver _ s _
  · exact .receiver _ s _

theorem receiveSftpReply_changes :
    Ensures (fun receipt => ChangesOnly ((lookedUp true buffer).bind s.find) s receipt.state)
      (receiveSftpReply version s client buffer seq) := by
  simp only [lookedUp, if_true]
  refine ensures_ite (fun hnine => ?_) fun hnine => ensures_ite (fun hlong => ?_) fun hlong => ?_
  · rw [if_pos hnine]
    exact ensures_ok (processReceiveSftpReplyError_short hnine)
  · rw [if_neg hnine, if_pos hlong]
    exact ensures_ok (processReceiveSftpReplyError_changes (Nat.not_lt.mp hnine))
  · refine ensures_bind fun moved _ => ensures_bind fun cleared _ => ensures_bind
      fun delivered hdelivered => ensures_ok ?_
    have hchanges := deliverReply_changes delivered hdelivered
    rw [if_neg hnine, if_neg hlong]
    simp only at hchanges
    split
    · next hextended => rwa [if_pos hextended] at hchanges
    · next hextended => rwa [if_neg hextended] at hchanges

theorem receiveSftpInit_changes :
    Ensures (fun receipt => ChangesOnly ((lookedUp false buffer).bind s.find) s receipt.state)
      (receiveSftpInit s client buffer seq) := by
  have hsession (target : Option ι) : ChangesOnly target s (setSession s client) :=
    .receiver target s _
  simp only [lookedUp, Bool.false_eq_true, if_false]
  refine ensures_ite (fun hfive => ensures_ite (fun haccepted => ?_) fun _ => ensures_ok (hsession _))
    fun hfive => ?_
  · rw [if_pos ⟨hfive, haccepted⟩]
    refine ensures_bind fun moved _ receipt hreceipt => (hsession _).trans ?_
    exact deliverVersion_changes (s := setSession s client) receipt hreceipt
  · rw [if_neg fun hlooks => hfive hlooks.1]
    refine ensures_bind fun first _ => ensures_ok ?_
    exact (hsession none).trans (processReceiveSftpReplyError_short (by omega))

theorem receiveSftpData_changes :
    Ensures (fun receipt => ChangesOnly ((lookedUp (s.receiver client).session buffer).bind s.find) s
      receipt.state) (receiveSftpData version s client buffer seq) := by
  unfold receiveSftpData
  cases (s.receiver client).session with
  | true =>
    rw [if_pos rfl]
    exact receiveSftpReply_changes
  | false =>
    rw [if_neg Bool.false_ne_true]
    exact receiveSftpInit_changes

/-! ## Histories -/

def EventIsolated (s : SftpState κ ι) : SftpEvent κ ι → Prop
  | .receive client version buffer seq =>
    ∀ s', sftpStep s (.receive client version buffer seq) = some s' → Isolated s client buffer s'
  | _ => True

/-- What is asked of an event: a message finds a request of its client. -/
def EventForClient (s : SftpState κ ι) : SftpEvent κ ι → Prop
  | .receive client _ buffer _ => ForClient s client buffer
  | _ => True

theorem isolated_of_forClient (hclient : ForClient s client buffer) :
    Ensures (fun receipt => Isolated s client buffer receipt.state)
      (receiveSftpData version s client buffer seq) := by
  intro receipt hreceipt p
  by_cases htarget : (lookedUp (s.receiver client).session buffer).bind s.find = some p
  · obtain ⟨id, hlooked, hfind⟩ := Option.bind_eq_some_iff.mp htarget
    obtain ⟨hpending, hid⟩ := find_eq_some hfind
    have hown := hclient id p hlooked hfind
    exact ⟨fun _ => ⟨hpending, hown, hid.symm ▸ hlooked⟩, fun _ hother => absurd hown hother⟩
  · obtain ⟨hrequest, hrows⟩ := receiveSftpData_changes receipt hreceipt p htarget
    refine ⟨fun hne => absurd hrequest hne, fun hpending _ => ⟨?_, hrequest⟩⟩
    rw [SftpState.Pending, hrequest]
    exact hrows _ hpending

/-- In a history in which every message finds a request of its client, every message is isolated. -/
theorem history_isolated (s : SftpState κ ι) (events : List (SftpEvent κ ι))
    (hclients : Transition.Along sftpStep EventForClient s events) :
    Transition.Along sftpStep EventIsolated s events := by
  refine along_of_invariant (I := fun _ => True) (fun _ _ _ _ _ _ => True.intro) ?_
    True.intro hclients
  intro s event _ hevent
  cases event with
  | send => exact True.intro
  | leave => exact True.intro
  | receive client version buffer seq =>
    intro s' hstep
    unfold sftpStep at hstep
    cases hreceive : receiveSftpData version s client buffer seq with
    | error fault => simp [hreceive] at hstep
    | ok receipt =>
      simp only [hreceive, Option.some.injEq] at hstep
      exact hstep ▸ isolated_of_forClient hevent receipt hreceive

end Clients

def twoClients : SftpState Bool Bool where
  request _ := initSftpRequest false 0
  rows _ := []
  receiver _ := { session := true, seq := 0, seqtype := 0 }

/-- A reply of type `SSH_FXP_STATUS` with the code 0. -/
def statusReply (id : ℕ) : Bytes := storeUint32 9 ++ [101] ++ storeUint32 id ++ storeUint32 0

/-- Two requests, each with an id of its own, and a reply to the second. -/
theorem history_isolated_two :
    Transition.Along sftpStep EventIsolated twoClients
      [.send false false 0, .send true true 1, .receive true .v03 (statusReply 1) 0] := by
  refine history_isolated twoClients _ ⟨True.intro, ?_⟩
  rintro _ ⟨⟩
  refine ⟨True.intro, ?_⟩
  rintro _ ⟨⟩
  refine ⟨?_, fun _ _ => True.intro⟩
  intro id p hlooked hfind
  have hid : lookedUp true (statusReply 1) = some 1 := by decide +kernel
  cases hid.symm.trans hlooked
  cases hfind
  rfl

/-- Two requests with the same id: the reply to the second completes the first, which is one of the
other client. -/
theorem history_not_isolated :
    ¬ Transition.Along sftpStep EventIsolated twoClients
      [.send false false 0, .send true true 0, .receive true .v03 (statusReply 0) 0] := by
  rintro ⟨-, h⟩
  obtain ⟨-, h⟩ := h _ rfl
  obtain ⟨hisolated, -⟩ := h _ rfl
  have hfinish : (run sftpStep twoClients [.send false false 0, .send true true 0,
      .receive true .v03 (statusReply 0) 0]).map (fun s => (s.request false).status.finish) =
      some true := by decide +kernel
  obtain ⟨s, hrun, hfinish⟩ := Option.map_eq_some_iff.mp hfinish
  obtain ⟨_, ⟨⟩, hrun⟩ := run_cons_eq_some.mp hrun
  obtain ⟨_, ⟨⟩, hrun⟩ := run_cons_eq_some.mp hrun
  obtain ⟨s', hstep, ⟨⟩⟩ := run_cons_eq_some.mp hrun
  have hchanged := (hisolated s hstep false).1 (fun heq => ?_)
  · exact absurd hchanged.2.1 (by decide)
  · rw [heq] at hfinish
    exact absurd hfinish (by decide)

end Osns
