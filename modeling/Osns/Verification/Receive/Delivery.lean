import Osns.Verification.Packet.Layout
import Osns.Verification.Receive.Header

/-! The event a complete message leads to, and what the round trip of a packet is. -/

namespace Osns

open List Option

/-- What becomes of an opened packet; nothing when its payload can not be allocated. -/
def payloadOutcome (env : ReceiveEnv) (headersize maclen : ℕ) (p : Packet) : Option Event :=
  match decompressPacket env p with
  | .error _ => some .overrun
  | .ok none => none
  | .ok (some payload) => some (.payload { headersize, maclen, packet := p, payload })

def messageOutcome (env : ReceiveEnv) (a : DecryptActor) (p : Packet) (tmpheader : Bytes) :
    Option Event :=
  match openMessage a.decryptor a.handle p tmpheader with
  | .error e => some e
  | .ok (_, p) => payloadOutcome env a.headersize a.maclen p

variable {env : ReceiveEnv} {p : Packet} {tmpheader : Bytes} {a : DecryptActor} {payload : Payload}

theorem messageOutcome_of_ok {p' : Packet} {h : a.Handle}
    (hopen : openMessage a.decryptor a.handle p tmpheader = .ok (h, p'))
    (hpayload : decompressPacket env p' = .ok (some payload)) :
    messageOutcome env a p tmpheader = some (.payload
      { headersize := a.headersize, maclen := a.maclen, packet := p', payload }) := by
  simp only [messageOutcome, hopen, payloadOutcome, hpayload]

variable {m : Message}

theorem payloadOutcome_eq_payload {headersize maclen : ℕ}
    (h : payloadOutcome env headersize maclen p = some (.payload m)) :
    decompressPacket env p = .ok (some m.payload) := by
  cases hdec : decompressPacket env p with
  | error f => simp [payloadOutcome, hdec] at h
  | ok result =>
    cases result with
    | none => simp [payloadOutcome, hdec] at h
    | some payload =>
      simp only [payloadOutcome, hdec, some.injEq, Event.payload.injEq] at h
      rw [← h]

theorem messageOutcome_eq_payload (h : messageOutcome env a p tmpheader = some (.payload m)) :
    ∃ handle p', openMessage a.decryptor a.handle p tmpheader = .ok (handle, p') ∧
      decompressPacket env p' = .ok (some m.payload) := by
  cases hopen : openMessage a.decryptor a.handle p tmpheader with
  | error e =>
    simp only [messageOutcome, hopen, some.injEq] at h
    rcases openMessage_eq_error hopen with rfl | ⟨stage, -, rfl⟩ <;> cases h
  | ok result =>
    simp only [messageOutcome, hopen] at h
    exact ⟨result.1, result.2, rfl, payloadOutcome_eq_payload h⟩

theorem processPayload_outcome (env : ReceiveEnv) (s : ReceiveState) (headersize maclen : ℕ)
    (p : Packet) : (processPayload env s headersize maclen p).state.trace =
      s.trace ++ (payloadOutcome env headersize maclen p).toList := by
  cases hdec : decompressPacket env p with
  | error f => simp [processPayload, payloadOutcome, hdec, Flow.state]
  | ok result =>
    cases result with
    | none => simp [processPayload, payloadOutcome, hdec, Flow.state]
    | some payload =>
      obtain ⟨s', errcode, heq, htrace, -⟩ := postProcess02_spec env
        (s.emit (.payload { headersize, maclen, packet := p, payload })) payload.type
      simp [processPayload, payloadOutcome, hdec, heq, Flow.state, htrace]

theorem readMessage_outcome (env : ReceiveEnv) (s : ReceiveState) (p : Packet)
    (tmpheader : Bytes) :
    ∃ workers, Workers workers ∧ (readMessage env s p tmpheader).state.trace =
      s.trace ++ workers ++ (messageOutcome env s.actor p tmpheader).toList := by
  obtain ⟨before, hbefore, hpre⟩ := preProcess_spec s
  cases hopen : openMessage s.actor.decryptor s.actor.handle p tmpheader with
  | error e =>
    refine ⟨before, hbefore, ?_⟩
    simp only [readMessage, messageOutcome, hopen, hpre]
    rcases openMessage_eq_error hopen with rfl | ⟨stage, -, rfl⟩ <;> rfl
  | ok result =>
    obtain ⟨h, p'⟩ := result
    obtain ⟨after, hafter, hpost⟩ := postProcess01_spec
      ((preProcess s).setActor (s.actor.setHandle h))
    refine ⟨before ++ after, hbefore.append hafter, ?_⟩
    simp only [readMessage, messageOutcome, hopen, processPayload_outcome, hpost]
    simp [hpre, DecryptActor.headersize, DecryptActor.maclen]

theorem readMessage_next {s s' : ReceiveState} (h : readMessage env s p tmpheader = .next s' none) :
    ∃ m, messageOutcome env s.actor p tmpheader = some (.payload m) := by
  cases hopen : openMessage s.actor.decryptor s.actor.handle p tmpheader with
  | error e =>
    simp only [readMessage, hopen] at h
    rcases openMessage_eq_error hopen with rfl | ⟨stage, -, rfl⟩ <;> cases h
  | ok result =>
    obtain ⟨handle, p'⟩ := result
    simp only [readMessage, hopen, processPayload] at h
    simp only [messageOutcome, hopen, payloadOutcome]
    cases hdec : decompressPacket env p' with
    | error f => simp [hdec] at h
    | ok result =>
      cases result with
      | none => simp [hdec] at h
      | some payload => exact ⟨_, rfl⟩

section Announced

variable {env : ReceiveEnv} {s : ReceiveState}

def announcedOutcome (env : ReceiveEnv) (s : ReceiveState) : Option Event :=
  messageOutcome env (s.actor.afterHeader s.sequenceNumber s.stream) s.announced
    (s.actor.plainHeader s.sequenceNumber s.stream)

theorem Announces.passEvents_eq (h : Announces env s) :
    ∃ workers, Workers workers ∧ passEvents env s = workers ++ (announcedOutcome env s).toList := by
  obtain ⟨s1, hiter, hactor, htrace⟩ := h.readIteration_eq
  obtain ⟨workers, hworkers, hevents⟩ := readMessage_outcome env s1 s.announced
    (s.actor.plainHeader s.sequenceNumber s.stream)
  rw [← hiter, hactor, htrace, append_assoc] at hevents
  exact ⟨workers, hworkers, Osns.passEvents_eq hevents⟩

theorem Announces.last_of_outcome (h : Announces env s)
    (hno : ∀ m, announcedOutcome env s ≠ some (.payload m)) :
    ∀ s', readIteration env s ≠ .next s' none := by
  obtain ⟨s1, hiter, hactor, -⟩ := h.readIteration_eq
  intro s' hnext
  rw [hiter] at hnext
  obtain ⟨m, hm⟩ := readMessage_next hnext
  rw [hactor] at hm
  exact hno m hm

/-! ## Delivered payloads -/

def deliveries (es : List Event) : List Message :=
  es.filterMap fun
    | .payload m => some m
    | _ => none

variable {es : List Event}

theorem deliveries_workers (h : Workers es) : deliveries es = [] := by
  rw [deliveries, filterMap_eq_nil_iff]
  intro e he
  rw [h e he]

def Accepted (env : ReceiveEnv) (s : ReceiveState) (payload : Bytes) : Prop :=
  ∃ m rest, deliveries (callTrace env s) = m :: rest ∧ m.payload.buffer = payload

theorem Announces.deliveries_eq (h : Announces env s)
    (hm : announcedOutcome env s = some (.payload m)) :
    ∃ rest, deliveries (callTrace env s) = m :: rest := by
  obtain ⟨workers, hworkers, hevents⟩ := h.passEvents_eq
  obtain ⟨rest, hcall⟩ := callTrace_eq_append env s
  refine ⟨deliveries rest, ?_⟩
  have hnone := deliveries_workers hworkers
  rw [hcall, hevents, hm]
  simp only [deliveries, filterMap_append] at hnone ⊢
  rw [hnone]
  rfl

theorem Announces.accepted (h : Announces env s)
    (hm : announcedOutcome env s = some (.payload m)) : Accepted env s m.payload.buffer := by
  obtain ⟨rest, hrest⟩ := h.deliveries_eq hm
  exact ⟨m, rest, hrest, rfl⟩

theorem mem_deliveries : m ∈ deliveries es ↔ .payload m ∈ es := by
  simp only [deliveries, mem_filterMap]
  constructor
  · rintro ⟨e, he, heq⟩
    cases e with
    | payload m' => exact some.inj heq ▸ he
    | _ => cases heq
  · intro hm
    exact ⟨_, hm, rfl⟩

theorem not_accepted_of_last (hlast : ∀ s', readIteration env s ≠ .next s' none)
    (hno : ∀ m, .payload m ∉ passEvents env s) (payload : Bytes) : ¬ Accepted env s payload := by
  rintro ⟨m, rest, hm, -⟩
  have hmem : m ∈ deliveries (callTrace env s) := hm ▸ mem_cons_self
  rw [mem_deliveries, mem_callTrace_iff (by simp)] at hmem
  obtain ⟨t, ht, hpass⟩ := hmem
  rw [ht.eq_of_last hlast] at hpass
  exact hno m hpass

theorem Announces.not_accepted (h : Announces env s)
    (hno : ∀ m, announcedOutcome env s ≠ some (.payload m)) (payload : Bytes) :
    ¬ Accepted env s payload := by
  refine not_accepted_of_last (h.last_of_outcome hno) ?_ payload
  intro m hm
  obtain ⟨workers, hworkers, hevents⟩ := h.passEvents_eq
  rw [hevents, mem_append] at hm
  rcases hm with hm | hm
  · cases hworkers _ hm
  · exact hno m (mem_toList.mp hm)

theorem HeaderArrives.not_accepted_of_large (h : HeaderArrives s)
    (hlarge : env.maxPacketSize ≤ s.actor.announcedSize s.sequenceNumber s.stream)
    (payload : Bytes) : ¬ Accepted env s payload := by
  obtain ⟨s', hiter, htrace⟩ := h.readIteration_tooLarge hlarge
  have hevents : passEvents env s = [] := by
    apply Osns.passEvents_eq
    rw [hiter, append_nil]
    exact htrace
  refine not_accepted_of_last ?_ ?_ payload
  · simp [hiter]
  · simp [hevents]

theorem HeaderArrives.outcome_of_accepted (h : HeaderArrives s)
    (hmessage : s.actor.announcedSize s.sequenceNumber s.stream ≤ s.stream.length)
    {payload : Bytes} (haccepted : Accepted env s payload) :
    s.actor.announcedSize s.sequenceNumber s.stream < env.maxPacketSize ∧
      ∃ m, announcedOutcome env s = some (.payload m) ∧ m.payload.buffer = payload := by
  by_cases hlarge : env.maxPacketSize ≤ s.actor.announcedSize s.sequenceNumber s.stream
  · exact absurd haccepted (h.not_accepted_of_large hlarge payload)
  · have hannounces : Announces env s :=
      { h with limit := Nat.lt_of_not_le hlarge, message := hmessage }
    refine ⟨hannounces.limit, ?_⟩
    by_contra hno
    obtain ⟨m, rest, hm, hpayload⟩ := haccepted
    refine hannounces.not_accepted ?_ payload ⟨m, rest, hm, hpayload⟩
    intro m' hm'
    obtain ⟨rest', hrest'⟩ := hannounces.deliveries_eq hm'
    rw [hm, cons.injEq] at hrest'
    exact hno ⟨m', hm', hrest'.1 ▸ hpayload⟩

end Announced

theorem payloadLength_eq {len padding : ℕ} (hlen : len < 2 ^ 32) (hle : 1 + padding ≤ len) :
    u32Sub (u32Sub len 1) padding = len - 1 - padding := by
  rw [u32Sub_of_le hlen (by omega), u32Sub_of_le (by omega) (by omega)]

theorem decompressPacket_eq (env : ReceiveEnv) {field payload rest : Bytes}
    {b : UInt8} (hbuf : p.buffer = field ++ [b] ++ payload ++ rest) (hfield : field.length = 4)
    (hlen : p.len = 1 + payload.length + p.padding) (hlt : p.len < 2 ^ 32)
    (hmalloc : env.malloc payload.length = true) :
    decompressPacket env p = .ok (some
      { type := payload.headD env.heapByte, sequence := p.sequence, buffer := payload }) := by
  have hsub : u32Sub (u32Sub p.len 1) p.padding = payload.length := by
    rw [payloadLength_eq hlt (by omega), hlen]
    omega
  have hload := Buffer.load_append (field ++ [b]) payload rest (n := payload.length) rfl rfl
  rw [length_append, hfield, length_singleton] at hload
  simp only [decompressPacket, hsub, hmalloc, if_true, hbuf, hload, inBounds_some, Result.ok_bind,
    Result.pure_eq_ok]

theorem malloc_of_decompress (h : decompressPacket env p = .ok (some payload)) :
    env.malloc payload.buffer.length = true := by
  cases hmalloc : env.malloc (u32Sub (u32Sub p.len 1) p.padding) with
  | false => simp [decompressPacket, hmalloc] at h
  | true =>
    simp only [decompressPacket, hmalloc, if_true, Result.bind_eq_ok, Result.pure_eq_ok,
      inBounds_eq_ok, Except.ok.injEq, some.injEq] at h
    obtain ⟨buffer, hload, rfl⟩ := h
    rw [Buffer.length_of_load hload]
    exact hmalloc

def readyState (a : DecryptActor) (sequence : ℕ) (rd : Bytes) : ReceiveState where
  threads := 0
  sequenceNumber := sequence
  reading := true
  rd := rd
  incoming := []
  behaviour := .serial
  actor := a
  trace := []

@[simp] theorem readyState_stream (a : DecryptActor) (sequence : ℕ) (rd : Bytes) :
    (readyState a sequence rd).stream = rd := by
  simp [readyState, ReceiveState.stream]

/-- A packet written for the payload is accepted by a receiver that is ready to read it with
the given decryptor and sequence number, whatever follows it. -/
def RoundTrips {σ : Type} (env : ReceiveEnv) (e : Encryptor σ) (h : σ) (a : DecryptActor)
    (random : ℕ → UInt8) (sequence : ℕ) (payload : Bytes) : Prop :=
  ∃ h' p, writeSshPacket e random h sequence payload = .ok (h', p) ∧
    ∀ (s : ReceiveState) (rest : Bytes), s.threads = 0 → s.rd ≠ [] → s.actor = a →
      s.sequenceNumber = sequence → s.stream = p.buffer ++ rest → Accepted env s payload

end Osns
