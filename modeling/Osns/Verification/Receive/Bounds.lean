import Osns.Verification.Receive.Opening

/-! Which messages the receive loop handles without leaving them. -/

namespace Osns

open Option

/-- The sizes of a delivered message fit together as natural numbers. -/
structure Message.InBounds (m : Message) : Prop where
  padding : 1 + m.packet.padding ≤ m.packet.len
  noWrap : m.packet.len + 4 + m.maclen < 2 ^ 32
  header : m.headersize ≤ m.packet.len + 4 + m.maclen
  payload : m.payload.buffer.length = m.packet.len - 1 - m.packet.padding

def Event.Bounded : Event → Prop
  | .overrun => False
  | .payload m => m.InBounds
  | _ => True

/-- No access leaves a message, and every delivered message is in bounds. -/
def Bounded (es : List Event) : Prop := ∀ e ∈ es, e.Bounded

theorem Workers.bounded {es : List Event} (h : Workers es) : Bounded es := by
  intro e he
  rw [h e he]
  trivial

/-- The fields of a message fit together. The padding only matters once the payload has been
allocated. -/
structure FieldsInRange (env : ReceiveEnv) (a : DecryptActor) (p : Packet) (tmpheader : Bytes) :
    Prop where
  sizes : SizesInRange a p.len
  padding : env.malloc (u32Sub (u32Sub p.len 1) (a.paddingLength p tmpheader)) = true →
    1 + a.paddingLength p tmpheader ≤ p.len

section Payload

variable {env : ReceiveEnv} {headersize maclen n : ℕ} {p : Packet}
  (hn : u32Sub (u32Sub p.len 1) p.padding = n)

include hn

theorem payloadOutcome_eq : payloadOutcome env headersize maclen p =
    if env.malloc n then some ((Buffer.load p.buffer 5 n).elim .overrun fun data => .payload
      { headersize, maclen, packet := p
        payload := { type := data.headD env.heapByte, sequence := p.sequence, buffer := data } })
    else none := by
  simp only [payloadOutcome, decompressPacket, hn]
  cases env.malloc n with
  | false => rfl
  | true => cases Buffer.load p.buffer 5 n <;> rfl

/-- The payload range wraps around when the padding is larger than the packet, and then it
leaves the message or is not what is delivered. -/
theorem payloadOutcome_bounded_iff (hwrap : p.len + 4 + maclen < 2 ^ 32)
    (hheader : headersize ≤ p.len + 4 + maclen) (hbuf : p.buffer.length = p.len + 4 + maclen) :
    (∀ e, payloadOutcome env headersize maclen p = some e → e.Bounded) ↔
      (env.malloc n = true → 1 + p.padding ≤ p.len) := by
  have hlength : 1 + p.padding ≤ p.len → n = p.len - 1 - p.padding := by
    intro hle
    rw [← hn, payloadLength_eq (by omega) hle]
  rw [payloadOutcome_eq hn]
  cases env.malloc n with
  | false => simp
  | true =>
    simp only [if_true, forall_const, some.injEq, forall_eq']
    cases hload : Buffer.load p.buffer 5 n with
    | none =>
      simp only [elim_none, Event.Bounded, false_iff]
      intro hle
      have hsome : (Buffer.load p.buffer 5 n).isSome :=
        Buffer.load_isSome (by rw [hlength hle]; omega)
      rw [hload] at hsome
      cases hsome
    | some data =>
      constructor
      · intro h
        exact h.padding
      · intro hle
        exact ⟨hle, hwrap, hheader, (Buffer.length_of_load hload).trans (hlength hle)⟩

end Payload

/-- What becomes of a complete message is in bounds exactly when it is rejected or its fields
fit together. -/
theorem messageOutcome_bounded_iff {env : ReceiveEnv} {a : DecryptActor} {p : Packet}
    {tmpheader : Bytes} (hheader : tmpheader.length = a.headersize)
    (hdecrypted : p.decrypted = a.headersize) (hlen : p.len < 2 ^ 32)
    (hbuf : p.buffer.length = u32 (p.len + 4 + a.maclen)) :
    (∀ e, messageOutcome env a p tmpheader = some e → e.Bounded) ↔
      (messageFails a p tmpheader = false → FieldsInRange env a p tmpheader) := by
  cases hopen : openMessage a.decryptor a.handle p tmpheader with
  | error e =>
    simp only [messageOutcome, messageFails, hopen, some.injEq, forall_eq']
    rcases openMessage_eq_error hopen with rfl | ⟨stage, -, rfl⟩
    · simp only [Event.Bounded, forall_const, false_iff]
      intro hfields
      have hsizes := hfields.sizes
      refine hsizes.open_ne_overrun hheader hdecrypted ?_ hopen
      rw [hbuf, u32_of_lt hsizes.noWrap]
    · simp [Event.Bounded]
  | ok result =>
    obtain ⟨h, p'⟩ := result
    have hsizes := sizesInRange_of_open hopen hheader hdecrypted hlen hbuf
    have hpadding := padding_of_open hopen hheader hdecrypted hlen hsizes
    obtain ⟨hlength, hpacket, -⟩ := openMessage_packet a hopen
    rw [u32_of_lt hsizes.noWrap] at hbuf
    simp only [messageOutcome, messageFails, hopen, forall_const]
    rw [payloadOutcome_bounded_iff rfl (by rw [hpacket]; exact hsizes.noWrap)
      (by rw [hpacket]; exact hsizes.header) (by rw [hpacket, hlength, hbuf]), hpadding, hpacket]
    exact ⟨fun h => ⟨hsizes, h⟩, FieldsInRange.padding⟩

section Passes

variable {env : ReceiveEnv} {s : ReceiveState}

theorem Announces.bounded_iff (h : Announces env s) : Bounded (passEvents env s) ↔
    (messageFails (s.actor.afterHeader s.sequenceNumber s.stream) s.announced
        (s.actor.plainHeader s.sequenceNumber s.stream) = false →
      FieldsInRange env (s.actor.afterHeader s.sequenceNumber s.stream) s.announced
        (s.actor.plainHeader s.sequenceNumber s.stream)) := by
  obtain ⟨hsize, hmaclen⟩ := s.actor.afterHeader_sizes s.sequenceNumber s.stream
  rw [← messageOutcome_bounded_iff (by rw [hsize]; exact DecryptActor.length_plainHeader _ h.header)
    hsize.symm (getUint32_lt _)
    (by rw [hmaclen]; exact List.length_take_of_le h.message)]
  obtain ⟨workers, hworkers, hevents⟩ := h.passEvents_eq
  rw [hevents]
  constructor
  · intro hbounded e he
    exact hbounded e (List.mem_append_right _ (mem_toList.mpr he))
  · intro hbounded
    exact List.forall_mem_append.mpr ⟨hworkers.bounded, fun e he => hbounded e (mem_toList.mp he)⟩

theorem readPacket_fallback (s : ReceiveState) (h : s.actor = .fallback) :
    readPacket env s = .next (s.countPacket.emit (.failure .decryptLength)) none := by
  obtain ⟨threads, sequenceNumber, reading, rd, incoming, behaviour, actor, trace⟩ := s
  cases h
  rfl

theorem bounded_of_not_announces (h : ¬ Announces env s) : Bounded (passEvents env s) := by
  have hquiet : (readIteration env s).state.trace = s.trace → Bounded (passEvents env s) := by
    intro htrace
    rw [passEvents, htrace, List.drop_length]
    simp [Bounded]
  by_cases hidle : 0 < s.threads ∨ s.rd = []
  · exact hquiet (by simp [readIteration, hidle, Flow.state])
  by_cases hactor : s.actor = .fallback
  · have hnone : s.actor.decryptor.cipherHeadersize ≤ (s.rd ++ s.incoming.flatten).length := by
      rw [hactor]
      exact Nat.zero_le _
    obtain ⟨rd, incoming, hwait, -⟩ := waitBytes_of_le hnone
    have hiter : readIteration env s = readPacket env (s.enter rd incoming) :=
      readIteration_of_wait hidle hwait
    rw [readPacket_fallback (s.enter rd incoming) hactor] at hiter
    have hevents : passEvents env s = [.failure .decryptLength] := by
      apply passEvents_eq
      rw [hiter]
      rfl
    rw [hevents]
    simp [Bounded, Event.Bounded]
  by_cases hheader : s.actor.headersize ≤ s.stream.length
  · have harrives : HeaderArrives s := ⟨by omega, fun hrd => hidle (.inr hrd), hactor, hheader⟩
    by_cases hlimit : s.actor.announcedSize s.sequenceNumber s.stream < env.maxPacketSize
    · have hshort : s.stream.length < s.actor.announcedSize s.sequenceNumber s.stream := by
        by_contra hle
        exact h ⟨harrives, hlimit, Nat.le_of_not_lt hle⟩
      obtain ⟨rd, incoming, hstream, hiter⟩ := harrives.readIteration_eq env
      have hwait : (rd ++ incoming.flatten).length <
          s.actor.announcedSize s.sequenceNumber s.stream := by
        rw [hstream]
        exact hshort
      exact hquiet (by rw [hiter.trans (takeMessage_of_starved hlimit hwait)]; rfl)
    · obtain ⟨s', hiter, htrace⟩ := harrives.readIteration_tooLarge (Nat.le_of_not_lt hlimit)
      exact hquiet (by rw [hiter]; exact htrace)
  · have hwait : waitBytes s.actor.decryptor.cipherHeadersize s.rd s.incoming = none :=
      waitBytes_of_lt (Nat.lt_of_not_le hheader)
    exact hquiet (by simp only [readIteration, hidle, if_false, hwait]; rfl)

end Passes

/-- A call stays inside the messages it reads exactly when every message it opens is rejected
or has fields that fit together. -/
theorem callTrace_bounded_iff (env : ReceiveEnv) (s : ReceiveState) :
    Bounded (callTrace env s) ↔ ∀ t, Reaches env s t → Announces env t →
      messageFails (t.actor.afterHeader t.sequenceNumber t.stream) t.announced
        (t.actor.plainHeader t.sequenceNumber t.stream) = false →
      FieldsInRange env (t.actor.afterHeader t.sequenceNumber t.stream) t.announced
        (t.actor.plainHeader t.sequenceNumber t.stream) := by
  constructor
  · intro hbounded t ht hannounces
    apply hannounces.bounded_iff.mp
    intro e he
    by_cases hdisconnect : e = .disconnect
    · rw [hdisconnect]
      trivial
    · exact hbounded e ((mem_callTrace_iff hdisconnect).mpr ⟨t, ht, he⟩)
  · intro hfields e he
    by_cases hdisconnect : e = .disconnect
    · rw [hdisconnect]
      trivial
    · obtain ⟨t, ht, hpass⟩ := (mem_callTrace_iff hdisconnect).mp he
      by_cases hannounces : Announces env t
      · exact hannounces.bounded_iff.mpr (hfields t ht hannounces) e hpass
      · exact bounded_of_not_announces hannounces e hpass

/-- A packet of length 12 without encryption that claims 255 bytes of padding. -/
def paddedState : ReceiveState where
  threads := 0
  sequenceNumber := 0
  reading := true
  rd := [0, 0, 0, 12, 255, 2, 0, 0, 0, 0, 0, 0, 0, 0, 0, 0]
  incoming := []
  behaviour := .serial
  actor := .generic { cipher := none, mac := none } { cipherState := (), written := [] }
  trace := []

theorem paddedState_not_bounded : ¬ Bounded (callTrace defaultEnv paddedState) := by
  have htrace : callTrace defaultEnv paddedState = [.overrun] := by decide
  rw [htrace]
  intro h
  exact h _ List.mem_cons_self

end Osns
