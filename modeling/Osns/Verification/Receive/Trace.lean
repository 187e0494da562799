import Osns.Verification.Receive.Equations

/-! What one pass through the receive loop adds to its trace, that the loop ends, and the events of a whole
call. -/

namespace Osns

def Workers (es : List Event) : Prop := ∀ e ∈ es, e = .workerthread

theorem Workers.nil : Workers [] := by simp [Workers]

theorem Workers.append {as bs : List Event} (ha : Workers as) (hb : Workers bs) :
    Workers (as ++ bs) :=
  List.forall_mem_append.mpr ⟨ha, hb⟩

/-! ## Messages that fail a check

Whether the message at the front of the stream fails to decrypt or to authenticate. -/

def messageFails (a : DecryptActor) (p : Packet) (tmpheader : Bytes) : Bool :=
  match openMessage a.decryptor a.handle p tmpheader with
  | .error (.failure _) => true
  | _ => false

section

variable (env : ReceiveEnv) (s : ReceiveState)

def takenFails (maclen : ℕ) (p : Packet) (tmpheader : Bytes) : Bool :=
  if env.maxPacketSize ≤ messageSize tmpheader maclen then false
  else
    match waitBytes (messageSize tmpheader maclen) s.rd s.incoming with
    | none => false
    | some (rd, _) =>
      messageFails s.actor
        { p with
            len := getUint32 tmpheader
            buffer := rd.take (messageSize tmpheader maclen) }
        tmpheader

def packetFails : Bool :=
  let d := s.actor.decryptor
  match d.decryptLength s.actor.handle s.newPacket d.cipherHeadersize with
  | .error .failed => true
  | .error .overrun => false
  | .ok (tmpheader, h, p) =>
    takenFails env (s.countPacket.setActor (s.actor.setHandle h)) d.hmacMaclen p tmpheader

/-- In this state a message is read whose length or rest does not decrypt, or whose MAC is
wrong. -/
def cryptoFails : Bool :=
  if 0 < s.threads ∨ s.rd = [] then false
  else
    match waitBytes s.actor.decryptor.cipherHeadersize s.rd s.incoming with
    | none => false
    | some (rd, incoming) => packetFails env (s.enter rd incoming)

/-- The outcomes of one pass with the events each of them adds, and whether a check fails. -/
inductive Pass (env : ReceiveEnv) (s : ReceiveState) : Bool → Flow → Prop
  | idle (h : 0 < s.threads ∨ s.rd = []) : Pass env s false (.returned s)
  | starved (s') (htrace : s'.trace = s.trace) : Pass env s false (.next s' (some env.waitError))
  | lengthFailed (s') (htrace : s'.trace = s.trace ++ [.failure .decryptLength])
      (hthreads : 0 < s'.threads) (hreading : s'.reading = false) :
      Pass env s true (.next s' none)
  | tooLarge (s') (htrace : s'.trace = s.trace) : Pass env s false (.next s' (some .eio))
  | overrun (s' workers) (hworkers : Workers workers)
      (htrace : s'.trace = s.trace ++ workers ++ [.overrun]) : Pass env s false (.crashed s')
  | openFailed (s' workers stage) (hworkers : Workers workers) (hstage : stage ≠ .decryptLength)
      (htrace : s'.trace = s.trace ++ workers ++ [.failure stage]) :
      Pass env s true (.next s' (some .eproto))
  | noMemory (s' workers) (hworkers : Workers workers)
      (htrace : s'.trace = s.trace ++ workers) : Pass env s false (.next s' (some .enomem))
  | delivered (s' workers m errcode) (hworkers : Workers workers)
      (htrace : s'.trace = s.trace ++ workers ++ [.payload m])
      (hstream : s'.stream.length < s.stream.length) : Pass env s false (.next s' errcode)

theorem preProcess_spec : ∃ workers, Workers workers ∧
    preProcess s = { s with trace := s.trace ++ workers } := by
  by_cases h : s.behaviour = .parallel ∧ s.rd ≠ []
  · exact ⟨[.workerthread], by simp [Workers], by simp [preProcess, h, ReceiveState.emit]⟩
  · exact ⟨[], .nil, by simp [preProcess, h]⟩

theorem postProcess01_spec : ∃ workers, Workers workers ∧
    postProcess01 s = { s with trace := s.trace ++ workers } := by
  by_cases h : s.behaviour = .serial ∧ s.rd ≠ []
  · exact ⟨[.workerthread], by simp [Workers], by simp [postProcess01, h, ReceiveState.emit]⟩
  · exact ⟨[], .nil, by simp [postProcess01, h]⟩

theorem postProcess02_spec (type : UInt8) :
    ∃ s' errcode, postProcess02 env s type = .next s' errcode ∧ s'.trace = s.trace ∧
      s'.stream = s.stream := by
  unfold postProcess02
  split
  · split
    · exact ⟨s, _, rfl, rfl, rfl⟩
    · exact ⟨_, none, rfl, rfl, rfl⟩
  · exact ⟨s, none, rfl, rfl, rfl⟩

variable {tmpheader : Bytes}

theorem openMessage_eq_error {σ : Type} {d : Decryptor σ} {h : σ} {p : Packet} {e : Event}
    (herr : openMessage d h p tmpheader = .error e) :
    e = .overrun ∨ ∃ stage, stage ≠ .decryptLength ∧ e = .failure stage := by
  have hcase : ∀ {α : Type} {stage : Stage} {x : Except Fault α}, stage ≠ .decryptLength →
      atStage stage x = .error e → e = .overrun ∨ ∃ stage, stage ≠ .decryptLength ∧
        e = .failure stage := by
    intro α stage x hstage hx
    rcases atStage_eq_error.mp hx with ⟨-, rfl⟩ | ⟨-, rfl⟩
    · exact .inr ⟨stage, hstage, rfl⟩
    · exact .inl rfl
  simp only [openMessage, Result.bind_eq_error, Result.pure_eq_ok] at herr
  rcases herr with h1 | ⟨_, -, h2 | ⟨_, -, h3 | ⟨_, -, h4 | ⟨_, -, h5 | ⟨_, -, h6⟩⟩⟩⟩⟩
  · exact hcase (by decide) h1
  · exact hcase (by decide) h2
  · exact hcase (by decide) h3
  · exact hcase (by decide) h4
  · exact hcase (by decide) h5
  · cases h6

theorem openMessage_packet (a : DecryptActor) {h h' : a.Handle} {p p' : Packet}
    (hok : openMessage a.decryptor h p tmpheader = .ok (h', p')) :
    p'.buffer.length = p.buffer.length ∧ p'.len = p.len ∧ 4 < p.buffer.length := by
  obtain ⟨h1, buffer, h2, p2, padding, -, hstore, hdec, hpad, -, rfl⟩ := openMessage_eq_ok.mp hok
  have hlen := Buffer.length_of_store hstore
  obtain ⟨hdlen, hdl, -⟩ := a.decryptPacket_length hdec
  have hlt := (List.getElem?_eq_some_iff.mp hpad).1
  simp only at hdlen
  exact ⟨hdlen.trans hlen, hdl, by omega⟩

theorem processPayload_pass {s0 s : ReceiveState} {headersize maclen : ℕ} {p : Packet}
    {workers : List Event} (hworkers : Workers workers) (htrace : s.trace = s0.trace ++ workers)
    (hstream : s.stream.length < s0.stream.length) :
    Pass env s0 false (processPayload env s headersize maclen p) := by
  cases hdec : decompressPacket env p with
  | error f =>
    simp only [processPayload, hdec]
    exact .overrun _ workers hworkers (by simp [htrace])
  | ok result =>
    cases result with
    | none =>
      simp only [processPayload, hdec]
      exact .noMemory _ workers hworkers htrace
    | some payload =>
      obtain ⟨s', errcode, heq, htr, hst⟩ := postProcess02_spec env
        (s.emit (.payload { headersize, maclen, packet := p, payload })) payload.type
      simp only [processPayload, hdec, heq]
      exact .delivered s' workers _ errcode hworkers (by rw [htr, emit_trace, htrace])
        (by rw [hst, emit_stream]; exact hstream)

theorem readMessage_pass (s0 s : ReceiveState) (p : Packet) (tmpheader : Bytes)
    (htrace : s.trace = s0.trace) (hstream : s.stream.length + p.buffer.length ≤ s0.stream.length) :
    Pass env s0 (messageFails s.actor p tmpheader) (readMessage env s p tmpheader) := by
  obtain ⟨before, hbefore, hpre⟩ := preProcess_spec s
  cases hopen : openMessage s.actor.decryptor s.actor.handle p tmpheader with
  | error e =>
    simp only [readMessage, messageFails, hopen, hpre]
    rcases openMessage_eq_error hopen with rfl | ⟨stage, hstage, rfl⟩
    · exact .overrun _ before hbefore (by simp [htrace])
    · exact .openFailed _ before stage hbefore hstage (by simp [htrace])
  | ok result =>
    obtain ⟨h, p'⟩ := result
    have hlen := (openMessage_packet s.actor hopen).2.2
    obtain ⟨after, hafter, hpost⟩ := postProcess01_spec
      ((preProcess s).setActor (s.actor.setHandle h))
    simp only [readMessage, messageFails, hopen, hpost]
    apply processPayload_pass env (hbefore.append hafter)
    · simp [hpre, htrace]
    · rw [hpre]
      simp only [ReceiveState.stream, ReceiveState.setActor] at hstream ⊢
      omega

theorem takeMessage_pass (s0 s : ReceiveState) (maclen : ℕ) (p : Packet) (tmpheader : Bytes)
    (htrace : s.trace = s0.trace) (hstream : s.stream = s0.stream) :
    Pass env s0 (takenFails env s maclen p tmpheader) (takeMessage env s maclen p tmpheader) := by
  by_cases hlarge : env.maxPacketSize ≤ messageSize tmpheader maclen
  · simp only [takeMessage, takenFails, hlarge, if_true]
    exact .tooLarge _ htrace
  · cases hwait : waitBytes (messageSize tmpheader maclen) s.rd s.incoming with
    | none =>
      simp only [takeMessage, takenFails, hlarge, if_false, hwait]
      exact .starved _ htrace
    | some result =>
      obtain ⟨hle, heq⟩ := waitBytes_some hwait
      simp only [takeMessage, takenFails, hlarge, if_false, hwait]
      refine readMessage_pass env s0 (s.leave _ result.1 result.2) _ tmpheader ?_ ?_
      · exact htrace
      · have hlen := congrArg List.length (heq.trans hstream)
        simp only [ReceiveState.stream, ReceiveState.leave, List.length_append,
          List.length_drop, List.length_take] at hlen ⊢
        omega

theorem readPacket_pass (s0 s : ReceiveState) (htrace : s.trace = s0.trace)
    (hstream : s.stream = s0.stream) (hthreads : 0 < s.threads) (hreading : s.reading = false) :
    Pass env s0 (packetFails env s) (readPacket env s) := by
  cases hdec : s.actor.decryptor.decryptLength s.actor.handle s.newPacket
      s.actor.decryptor.cipherHeadersize with
  | error fault =>
    simp only [readPacket, packetFails, hdec]
    cases fault with
    | failed => exact .lengthFailed _ (by simp [htrace]) hthreads hreading
    | overrun => exact .overrun _ [] .nil (by simp [htrace])
  | ok result =>
    obtain ⟨tmpheader, h, p⟩ := result
    simp only [readPacket, packetFails, hdec, atStage]
    exact takeMessage_pass env s0 _ _ p tmpheader htrace hstream

theorem readIteration_pass : Pass env s (cryptoFails env s) (readIteration env s) := by
  by_cases hidle : 0 < s.threads ∨ s.rd = []
  · simp only [readIteration, cryptoFails, hidle, if_true]
    exact .idle hidle
  · cases hwait : waitBytes s.actor.decryptor.cipherHeadersize s.rd s.incoming with
    | none =>
      simp only [readIteration, cryptoFails, hidle, if_false, hwait]
      exact .starved _ rfl
    | some result =>
      simp only [readIteration, cryptoFails, hidle, if_false, hwait]
      exact readPacket_pass env s (s.enter result.1 result.2) rfl (waitBytes_some hwait).2
        (Nat.succ_pos _) rfl

theorem readIteration_of_threads {env : ReceiveEnv} {s : ReceiveState} (h : 0 < s.threads) :
    readIteration env s = .returned s := by
  simp [readIteration, h]

/-- The loop always comes to an end: a pass that is followed by another one has either
consumed bytes or left the thread counter up, and then the next pass returns. -/
theorem readLoop_terminates (fuel : ℕ) (s : ReceiveState) (hfuel : s.stream.length + 2 ≤ fuel) :
    ∃ s', readLoop env fuel s = some s' := by
  induction fuel generalizing s with
  | zero => omega
  | succ fuel ih =>
    have hpass := readIteration_pass env s
    rw [readLoop]
    generalize cryptoFails env s = fails at hpass
    generalize readIteration env s = flow at hpass ⊢
    cases hpass with
    | idle | starved | tooLarge | overrun | openFailed | noMemory => exact ⟨_, rfl⟩
    | lengthFailed s' htrace hthreads hreading =>
      obtain ⟨k, rfl⟩ : ∃ k, fuel = k + 1 := ⟨fuel - 1, by omega⟩
      exact ⟨s', by simp [readLoop, readIteration_of_threads hthreads]⟩
    | delivered s' workers m errcode hworkers htrace hstream =>
      cases errcode with
      | none => exact ih s' (by omega)
      | some errcode => exact ⟨_, rfl⟩

theorem cbReadSocketSsh_terminates : ∃ s', cbReadSocketSsh env s = some s' :=
  readLoop_terminates env _ s (Nat.le_refl _)

end

/-! ## Whole calls -/

open List

def callTrace (env : ReceiveEnv) (s : ReceiveState) : List Event :=
  match cbReadSocketSsh env s with
  | some s' => s'.trace.drop s.trace.length
  | none => []

/-- The states at the head of the loop during one call. -/
inductive Reaches (env : ReceiveEnv) : ReceiveState → ReceiveState → Prop
  | refl (s) : Reaches env s s
  | step {s s' t} (h : readIteration env s = .next s' none) (rest : Reaches env s' t) :
      Reaches env s t

variable {env : ReceiveEnv} {s : ReceiveState}

theorem Reaches.eq_of_last {t : ReceiveState} (h : Reaches env s t)
    (hlast : ∀ s', readIteration env s ≠ .next s' none) : t = s := by
  cases h with
  | refl => rfl
  | step h _ => exact absurd h (hlast _)

theorem outcheck_trace (s : ReceiveState) (errcode : Errno) :
    ∃ es, (s.outcheck errcode).trace = s.trace ++ es ∧ ∀ e ∈ es, e = .disconnect := by
  by_cases h : errcode.disconnects
  · exact ⟨[.disconnect], by simp [ReceiveState.outcheck, h], by simp⟩
  · exact ⟨[], by simp [ReceiveState.outcheck, h], by simp⟩

def Flow.state : Flow → ReceiveState
  | .returned s => s
  | .crashed s => s
  | .next s _ => s

def passEvents (env : ReceiveEnv) (s : ReceiveState) : List Event :=
  (readIteration env s).state.trace.drop s.trace.length

theorem passEvents_eq {es : List Event}
    (h : (readIteration env s).state.trace = s.trace ++ es) : passEvents env s = es := by
  rw [passEvents, h, drop_left]

theorem readIteration_trace (env : ReceiveEnv) (s : ReceiveState) :
    (readIteration env s).state.trace = s.trace ++ passEvents env s := by
  have hpass := readIteration_pass env s
  suffices h : ∃ es, (readIteration env s).state.trace = s.trace ++ es by
    obtain ⟨es, hes⟩ := h
    rw [passEvents_eq hes, hes]
  generalize cryptoFails env s = fails at hpass
  generalize readIteration env s = flow at hpass ⊢
  cases hpass with
  | idle h => exact ⟨[], by simp [Flow.state]⟩
  | starved s' htrace | tooLarge s' htrace => exact ⟨[], by simp [Flow.state, htrace]⟩
  | lengthFailed s' htrace _ _ => exact ⟨_, htrace⟩
  | overrun s' workers _ htrace | openFailed s' workers _ _ _ htrace
  | delivered s' workers _ _ _ htrace _ => exact ⟨_, htrace.trans (append_assoc _ _ _)⟩
  | noMemory s' workers _ htrace => exact ⟨_, htrace⟩

theorem reaches_mem_of_last (hlast : ∀ s', readIteration env s ≠ .next s' none) (e : Event) :
    (∃ t, Reaches env s t ∧ e ∈ passEvents env t) ↔ e ∈ passEvents env s := by
  constructor
  · rintro ⟨t, ht, he⟩
    rwa [ht.eq_of_last hlast] at he
  · intro he
    exact ⟨s, .refl s, he⟩

variable {s' : ReceiveState}

theorem reaches_mem_of_next (hstep : readIteration env s = .next s' none) (e : Event) :
    (∃ t, Reaches env s t ∧ e ∈ passEvents env t) ↔
      e ∈ passEvents env s ∨ ∃ t, Reaches env s' t ∧ e ∈ passEvents env t := by
  constructor
  · rintro ⟨t, ht, he⟩
    cases ht with
    | refl => exact .inl he
    | step h rest =>
      rw [hstep] at h
      cases h
      exact .inr ⟨t, rest, he⟩
  · rintro (he | ⟨t, ht, he⟩)
    · exact ⟨s, .refl s, he⟩
    · exact ⟨t, .step hstep ht, he⟩

theorem mem_readLoop_iff {fuel : ℕ} (hrun : readLoop env fuel s = some s') :
    ∃ es, s'.trace = s.trace ++ es ∧ ∀ e, e ≠ .disconnect →
      (e ∈ es ↔ ∃ t, Reaches env s t ∧ e ∈ passEvents env t) := by
  induction fuel generalizing s with
  | zero => cases hrun
  | succ fuel ih =>
    have htrace := readIteration_trace env s
    rw [readLoop] at hrun
    cases hflow : readIteration env s with
    | returned s1 | crashed s1 =>
      simp only [hflow, Option.some.injEq] at hrun
      subst hrun
      exact ⟨passEvents env s, by rw [← htrace, hflow]; rfl,
        fun e _ => (reaches_mem_of_last (by simp [hflow]) e).symm⟩
    | next s1 errcode =>
      have hs1 : s1.trace = s.trace ++ passEvents env s := by rw [← htrace, hflow]; rfl
      cases errcode with
      | some errcode =>
        simp only [hflow, Option.some.injEq] at hrun
        subst hrun
        obtain ⟨es, hes, hend⟩ := outcheck_trace s1 errcode
        refine ⟨passEvents env s ++ es, by rw [hes, hs1, append_assoc], ?_⟩
        intro e hne
        rw [reaches_mem_of_last (by simp [hflow]), mem_append]
        exact or_iff_left fun he => hne (hend e he)
      | none =>
        simp only [hflow] at hrun
        obtain ⟨es, hes, hmem⟩ := ih hrun
        refine ⟨passEvents env s ++ es, by rw [hes, hs1, append_assoc], ?_⟩
        intro e hne
        rw [mem_append, hmem e hne, reaches_mem_of_next hflow]

/-- Some fuel is enough for the events of all passes. -/
theorem callTrace_run (env : ReceiveEnv) (s : ReceiveState) :
    ∃ fuel s', readLoop env fuel s = some s' ∧ s'.trace = s.trace ++ callTrace env s := by
  obtain ⟨s', hs'⟩ := cbReadSocketSsh_terminates env s
  obtain ⟨es, hes, -⟩ := mem_readLoop_iff hs'
  refine ⟨_, s', hs', ?_⟩
  simp [callTrace, hs', hes]

theorem mem_callTrace_iff {e : Event} (hne : e ≠ .disconnect) :
    e ∈ callTrace env s ↔ ∃ t, Reaches env s t ∧ e ∈ passEvents env t := by
  obtain ⟨fuel, s', hrun, htrace⟩ := callTrace_run env s
  obtain ⟨es, hes, hmem⟩ := mem_readLoop_iff hrun
  rw [append_cancel_left (htrace.symm.trans hes)]
  exact hmem e hne

theorem callTrace_eq_append (env : ReceiveEnv) (s : ReceiveState) :
    ∃ rest, callTrace env s = passEvents env s ++ rest := by
  obtain ⟨fuel, s', hrun, htrace⟩ := callTrace_run env s
  have hpass := readIteration_trace env s
  suffices h : ∃ rest, s'.trace = s.trace ++ (passEvents env s ++ rest) by
    obtain ⟨rest, hrest⟩ := h
    exact ⟨rest, append_cancel_left (htrace.symm.trans hrest)⟩
  simp only [← append_assoc, ← hpass]
  cases fuel with
  | zero => cases hrun
  | succ fuel =>
    rw [readLoop] at hrun
    cases hflow : readIteration env s with
    | returned s1 | crashed s1 =>
      simp only [hflow, Option.some.injEq] at hrun
      exact ⟨[], by simp [Flow.state, hrun]⟩
    | next s1 errcode =>
      cases errcode with
      | some errcode =>
        simp only [hflow, Option.some.injEq] at hrun
        obtain ⟨es, hes, -⟩ := outcheck_trace s1 errcode
        exact ⟨es, hrun ▸ hes⟩
      | none =>
        simp only [hflow] at hrun
        obtain ⟨es, hes, -⟩ := mem_readLoop_iff hrun
        exact ⟨es, hes⟩

end Osns
