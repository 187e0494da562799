import Osns.Model.Receive

/-! Computation rules for waiting, for opening a message and for one pass through the
receive loop. -/

namespace Osns

open Result

variable {n : ℕ} {rd : Bytes} {chunks : List Bytes} {p p' : Packet} {tmpheader : Bytes} {env : ReceiveEnv}
  {s : ReceiveState} {maclen : ℕ}

theorem waitBytes_cases (n : ℕ) (rd : Bytes) (chunks : List Bytes) :
    (∃ rd' chunks', waitBytes n rd chunks = some (rd', chunks') ∧ n ≤ rd'.length ∧
      rd' ++ chunks'.flatten = rd ++ chunks.flatten) ∨
    waitBytes n rd chunks = none ∧ (rd ++ chunks.flatten).length < n := by
  fun_induction waitBytes n rd chunks with
  | case1 rd hn | case3 rd chunk chunks hn => exact .inl ⟨_, _, rfl, hn, rfl⟩
  | case2 rd hn => exact .inr ⟨rfl, by simpa using hn⟩
  | case4 rd chunk chunks hn ih => rwa [List.flatten_cons, ← List.append_assoc]

theorem waitBytes_some {rd' : Bytes} {chunks' : List Bytes}
    (h : waitBytes n rd chunks = some (rd', chunks')) :
    n ≤ rd'.length ∧ rd' ++ chunks'.flatten = rd ++ chunks.flatten := by
  rcases waitBytes_cases n rd chunks with ⟨_, _, heq, hspec⟩ | ⟨hnone, -⟩
  · cases heq.symm.trans h
    exact hspec
  · cases hnone.symm.trans h

theorem waitBytes_of_le (h : n ≤ (rd ++ chunks.flatten).length) :
    ∃ rd' chunks', waitBytes n rd chunks = some (rd', chunks') ∧ n ≤ rd'.length ∧
      rd' ++ chunks'.flatten = rd ++ chunks.flatten :=
  (waitBytes_cases n rd chunks).resolve_right fun hnone => Nat.not_lt_of_le h hnone.2

theorem waitBytes_of_lt (h : (rd ++ chunks.flatten).length < n) : waitBytes n rd chunks = none := by
  rcases waitBytes_cases n rd chunks with ⟨_, _, -, hle, heq⟩ | ⟨hnone, -⟩
  · rw [← heq, List.length_append] at h
    omega
  · exact hnone

section

variable (s : ReceiveState)

@[simp] theorem emit_trace (e : Event) : (s.emit e).trace = s.trace ++ [e] := rfl

@[simp] theorem emit_stream (e : Event) : (s.emit e).stream = s.stream := rfl

@[simp] theorem countPacket_trace : s.countPacket.trace = s.trace := rfl

@[simp] theorem setActor_trace (a : DecryptActor) :
    (s.setActor a).trace = s.trace := rfl

@[simp] theorem setActor_stream (a : DecryptActor) :
    (s.setActor a).stream = s.stream := rfl

end

variable {α : Type} {x : Except Fault α}

theorem atStage_eq_ok {stage : Stage} {a : α} : atStage stage x = .ok a ↔ x = .ok a := by
  rcases x with (_ | _) | a <;> simp [atStage]

theorem atStage_eq_error {stage : Stage} {e : Event} :
    atStage stage x = .error e ↔
      (x = .error .failed ∧ e = .failure stage) ∨ (x = .error .overrun ∧ e = .overrun) := by
  rcases x with (_ | _) | a <;> simp [atStage, eq_comm]

theorem inPlace_length {τ : Type} {buf out : Bytes} {off : ℕ} {f : Bytes → Bytes × τ} {t : τ}
    (h : inPlace buf off n f = .ok (out, t)) : out.length = buf.length := by
  simp only [inPlace, bind_eq_ok, inBounds_eq_ok, pure_eq_ok, Except.ok.injEq, Prod.mk.injEq] at h
  obtain ⟨data, -, buf', hstore, rfl, -⟩ := h
  exact Buffer.length_of_store hstore

theorem Generic.decryptPacket_length {S : Type} (g : GenericCrypto S) {h h' : GenericHandle S}
    (hok : (Generic.decryptor g).decryptPacket h p = .ok (h', p')) :
    p'.buffer.length = p.buffer.length ∧ p'.len = p.len ∧ p'.sequence = p.sequence := by
  cases hc : g.cipher with
  | none =>
    simp only [Generic.decryptor, hc, Generic.decryptPacketNone, Except.ok.injEq,
      Prod.mk.injEq] at hok
    obtain ⟨-, rfl⟩ := hok
    exact ⟨rfl, rfl, rfl⟩
  | some c =>
    simp only [Generic.decryptor, hc, Generic.decryptPacket, bind_eq_ok,
      pure_eq_ok, Except.ok.injEq, Prod.mk.injEq] at hok
    obtain ⟨⟨buffer, s⟩, hdec, -, rfl⟩ := hok
    unfold gcryCipherDecrypt at hdec
    split at hdec
    · exact ⟨inPlace_length hdec, rfl, rfl⟩
    · cases hdec

theorem Chacha20Poly1305.decryptPacket_length (g : ChachaPoly) {h h' : ChachaHandle}
    (hok : (Chacha20Poly1305.decryptor g).decryptPacket h p = .ok (h', p')) :
    p'.buffer.length = p.buffer.length ∧ p'.len = p.len ∧ p'.sequence = p.sequence := by
  simp only [Chacha20Poly1305.decryptor, Chacha20Poly1305.decryptPacket, bind_eq_ok,
    pure_eq_ok, Except.ok.injEq, Prod.mk.injEq] at hok
  obtain ⟨⟨buffer, s⟩, hdec, -, rfl⟩ := hok
  exact ⟨inPlace_length hdec, rfl, rfl⟩

theorem DecryptActor.decryptPacket_length (a : DecryptActor) {h h' : a.Handle}
    (hok : a.decryptor.decryptPacket h p = .ok (h', p')) :
    p'.buffer.length = p.buffer.length ∧ p'.len = p.len ∧ p'.sequence = p.sequence := by
  cases a with
  | generic g _ => exact Generic.decryptPacket_length g hok
  | chacha20 g _ => exact Chacha20Poly1305.decryptPacket_length g hok
  | fallback => cases hok

theorem openMessage_eq_ok {σ : Type} {d : Decryptor σ} {h h' : σ} :
    openMessage d h p tmpheader = .ok (h', p') ↔
      ∃ h1 buffer h2 p2 padding, d.verifyHmacPre h p = .ok h1 ∧
        Buffer.store p.buffer 0 tmpheader = some buffer ∧
        d.decryptPacket h1 { p with buffer } = .ok (h2, p2) ∧ p2.buffer[4]? = some padding ∧
        d.verifyHmacPost h2 { p2 with padding := padding.toNat } = .ok h' ∧
        p' = { p2 with padding := padding.toNat } := by
  simp only [openMessage, bind_eq_ok, atStage_eq_ok, inBounds_eq_ok, pure_eq_ok,
    Except.ok.injEq, Prod.mk.injEq]
  constructor
  · rintro ⟨h1, hpre, buffer, hstore, ⟨h2, p2⟩, hdec, padding, hpad, h3, hpost, rfl, rfl⟩
    exact ⟨h1, buffer, h2, p2, padding, hpre, hstore, hdec, hpad, hpost, rfl⟩
  · rintro ⟨h1, buffer, h2, p2, padding, hpre, hstore, hdec, hpad, hpost, rfl⟩
    exact ⟨h1, hpre, buffer, hstore, (h2, p2), hdec, padding, hpad, h', hpost, rfl, rfl⟩

variable {incoming : List Bytes}

theorem readIteration_of_wait (hidle : ¬ (0 < s.threads ∨ s.rd = []))
    (hwait : waitBytes s.actor.decryptor.cipherHeadersize s.rd s.incoming = some (rd, incoming)) :
    readIteration env s = readPacket env (s.enter rd incoming) := by
  simp [readIteration, hidle, hwait]

theorem readPacket_of_ok (env : ReceiveEnv) {h : s.actor.Handle}
    (hdec : s.actor.decryptor.decryptLength s.actor.handle s.newPacket
      s.actor.decryptor.cipherHeadersize = .ok (tmpheader, h, p)) :
    readPacket env s = takeMessage env (s.countPacket.setActor (s.actor.setHandle h))
      s.actor.decryptor.hmacMaclen p tmpheader := by
  simp [readPacket, hdec, atStage]

theorem takeMessage_of_starved (hlimit : messageSize tmpheader maclen < env.maxPacketSize)
    (hshort : s.stream.length < messageSize tmpheader maclen) :
    takeMessage env s maclen p tmpheader =
      .next { s with rd := s.stream, incoming := [] } (some env.waitError) := by
  simp [takeMessage, Nat.not_le.mpr hlimit, waitBytes_of_lt hshort]

theorem takeMessage_of_wait (hlimit : messageSize tmpheader maclen < env.maxPacketSize)
    (hwait : waitBytes (messageSize tmpheader maclen) s.rd s.incoming = some (rd, incoming)) :
    takeMessage env s maclen p tmpheader =
      readMessage env (s.leave (messageSize tmpheader maclen) rd incoming)
        { p with
            len := getUint32 tmpheader
            buffer := rd.take (messageSize tmpheader maclen) }
        tmpheader := by
  simp [takeMessage, Nat.not_le.mpr hlimit, hwait]

end Osns
