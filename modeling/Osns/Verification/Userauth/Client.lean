import Osns.Model.Userauth.Client

/-! When the client takes itself for authenticated. -/

namespace Osns

open List ClientState

/-! ## Failure messages -/

theorem authMethod_spec (name : Bytes) : authMethod name ≠ {} ∧ (authMethod name).none = false := by
  unfold authMethod
  split_ifs <;> decide

theorem AuthMethods.or_ne {a : AuthMethods} (h : a ≠ {}) (b : AuthMethods) : a.or b ≠ {} := by
  contrapose! h
  simp only [AuthMethods.or, AuthMethods.mk.injEq, Bool.or_eq_false_iff] at h
  obtain ⟨h₁, h₂, h₃, h₄, h₅⟩ := h
  rw [AuthMethods.mk.injEq]
  exact ⟨h₁.1, h₂.1, h₃.1, h₄.1, h₅.1⟩

theorem findMethods_spec (name bs : Bytes) :
    findMethods name bs ≠ {} ∧ (findMethods name bs).none = false := by
  induction bs generalizing name with
  | nil => exact authMethod_spec name
  | cons b bs ih =>
    rw [findMethods]
    split
    · have hname := authMethod_spec name
      have hrest := ih []
      refine ⟨AuthMethods.or_ne hname.1 _, ?_⟩
      rw [AuthMethods.or, hname.2, hrest.2]
      rfl
    · exact ih (name ++ [b])

/-- The length check of `handle_auth_failure`. -/
def FailureWellFormed (payload : Payload) : Prop :=
  6 < payload.buffer.length ∧ 0 < getUint32 (payload.buffer.drop 1) ∧
    payload.buffer.length = u32 (6 + getUint32 (payload.buffer.drop 1))

instance (payload : Payload) : Decidable (FailureWellFormed payload) :=
  inferInstanceAs (Decidable (_ ∧ _ ∧ _))

variable {payload : Payload}

theorem handleAuthFailure_of_wellFormed (h : FailureWellFormed payload)
    (required : AuthMethods) :
    (handleAuthFailure payload required).2 ≠ {} ∧
      (handleAuthFailure payload required).2.none = false := by
  unfold FailureWellFormed at h
  rw [handleAuthFailure, if_pos h]
  exact findMethods_spec [] _

theorem handleAuthFailure_of_malformed (h : ¬ FailureWellFormed payload)
    (required : AuthMethods) : handleAuthFailure payload required = (false, required) := by
  unfold FailureWellFormed at h
  rw [handleAuthFailure, if_neg h]

/-! ## What a method keeps -/

def ClientState.Succeeded (s : ClientState) : Prop :=
  ∃ e ∈ s.history, ∃ payload, e.reply = some payload ∧ payload.type = msgUserauthSuccess

/-- No method is required any more only after success. -/
structure ClientState.Sound (s : ClientState) : Prop where
  cleared : s.required = {} → s.Succeeded
  listed : s.required.none = false

variable {s : ClientState}

theorem ClientState.Sound.record (h : s.Sound) (inbox : Inbox) (sent : ℕ)
    (es : List Exchanged) : { s with inbox, sent, history := s.history ++ es }.Sound := by
  refine ⟨fun hempty => ?_, h.listed⟩
  obtain ⟨e, he, hsuccess⟩ := h.cleared hempty
  exact ⟨e, mem_append_left _ he, hsuccess⟩

/-- A part of a run: it keeps soundness, and leaves the mask of methods done to its caller. -/
structure Keeps (s s' : ClientState) : Prop where
  sound : s.Sound → s'.Sound
  done : s'.done = s.done

theorem Keeps.refl (s : ClientState) : Keeps s s := ⟨id, rfl⟩

theorem Keeps.trans {s' s'' : ClientState} (h : Keeps s s') (h' : Keeps s' s'') : Keeps s s'' :=
  ⟨h'.sound ∘ h.sound, h'.done.trans h.done⟩

section Methods

variable (env : ClientEnv) {s s' : ClientState} {request : Request} {accepted : ℤ → Bool}
  {select : Payload → Bool} {outcome : Outcome}

variable {env} in
theorem ClientState.exchange_cases (h : s.exchange env request accepted select = (outcome, s')) :
    (outcome = .unsent ∧ ∃ written : List Exchanged, (∀ e ∈ written, e.reply = none) ∧
        s' = { s with sent := s.sent + 1, history := s.history ++ written }) ∨
      ∃ reply, outcome = reply.elim .silent .reply ∧ (∀ payload ∈ reply, select payload = true) ∧
        s' = { s with
          inbox := (s.inbox.getSshPayload select).2
          sent := s.sent + 1
          history := s.history ++ [⟨s.sent, request, reply⟩] } := by
  unfold exchange at h
  split at h
  · refine .inr ⟨(s.inbox.getSshPayload select).1, ?_⟩
    have hselect : ∀ payload ∈ (s.inbox.getSshPayload select).1, select payload = true :=
      fun payload hfound => find?_some hfound
    cases hreply : (s.inbox.getSshPayload select).1 with
    | none =>
      simp only [hreply, Prod.mk.injEq] at h
      exact ⟨h.1.symm, by simp, h.2.symm⟩
    | some payload =>
      rw [hreply] at hselect
      simp only [hreply, Prod.mk.injEq] at h
      exact ⟨h.1.symm, hselect, h.2.symm⟩
  · cases h
    refine .inl ⟨rfl, _, fun e he => ?_, rfl⟩
    split at he
    · rw [mem_singleton.mp he]
    · cases he

variable {env} in
/-- A reply that is returned has been selected and is in the history. -/
theorem ClientState.exchange_spec (h : s.exchange env request accepted select = (outcome, s')) :
    Keeps s s' ∧ ∀ payload, outcome = .reply payload →
      select payload = true ∧ ∃ e ∈ s'.history, e.reply = some payload := by
  rcases exchange_cases h with ⟨rfl, written, -, rfl⟩ | ⟨reply, rfl, hselect, rfl⟩
  · exact ⟨⟨fun hs => hs.record _ _ _, rfl⟩, by simp⟩
  · refine ⟨⟨fun hs => hs.record _ _ _, rfl⟩, ?_⟩
    intro payload hpayload
    cases reply with
    | none => cases hpayload
    | some found =>
      cases hpayload
      exact ⟨hselect payload rfl, _, mem_append_right _ (mem_singleton_self _), rfl⟩

theorem ClientState.handleReply_keeps
    (h : ∃ e ∈ s.history, e.reply = some payload) (result : Bool) :
    Keeps s (s.handleReply payload result).2 := by
  unfold handleReply
  split
  · next hsuccess =>
    obtain ⟨e, he, hreply⟩ := h
    exact ⟨fun _ => ⟨fun _ => ⟨e, he, payload, hreply, hsuccess⟩, rfl⟩, rfl⟩
  · split
    · by_cases hwell : FailureWellFormed payload
      · have hmethods := handleAuthFailure_of_wellFormed hwell s.required
        exact ⟨fun _ => ⟨fun hempty => absurd hempty hmethods.1, hmethods.2⟩, rfl⟩
      · rw [handleAuthFailure_of_malformed hwell]
        exact Keeps.refl s
    · exact Keeps.refl s

theorem sendUserauthPasswordRequest_keeps (pwlist : List Pword) (result : Bool)
    (s : ClientState) : Keeps s (sendUserauthPasswordRequest env pwlist result s).2 := by
  induction pwlist generalizing result s with
  | nil => exact Keeps.refl s
  | cons pword pwlist ih =>
    rw [sendUserauthPasswordRequest]
    rcases hex : s.exchange env (.password pword.user pword.pw) (0 < ·) selectUserauthReply with
      ⟨outcome, s'⟩
    obtain ⟨hkeeps, hreply⟩ := exchange_spec hex
    cases outcome with
    | unsent => exact hkeeps.trans (ih result s')
    | silent => exact hkeeps
    | reply payload =>
      have hhandled := handleReply_keeps (hreply payload rfl).2 result
      exact (hkeeps.trans hhandled).trans (ih _ _)

/-- A relation between the states around a part of a run and its result, which requests and replies obey. -/
structure Obeys (R : ClientState → Bool → ClientState → Prop) : Prop where
  skip : ∀ s, R s false s
  trans : ∀ {s s' s'' result}, R s false s' → R s' result s'' → R s result s''
  request : ∀ {s s' request accepted select outcome},
    s.exchange env request accepted select = (outcome, s') →
    (∀ payload, outcome = .reply payload → payload.type ≠ msgUserauthSuccess) → R s false s'
  reply : ∀ {s s' request accepted select payload},
    s.exchange env request accepted select = (.reply payload, s') →
    R s (s'.handleReply payload false).1 (s'.handleReply payload false).2

theorem keeps_obeys : Obeys env fun s _ s' => Keeps s s' where
  skip := Keeps.refl
  trans := Keeps.trans
  request h _ := (exchange_spec h).1
  reply h := by
    obtain ⟨hkeeps, hreply⟩ := exchange_spec h
    exact hkeeps.trans (handleReply_keeps (hreply _ rfl).2 false)

variable {env} {R : ClientState → Bool → ClientState → Prop}

section

variable (h : Obeys env R)

include h

theorem Obeys.answered (request : Request) (accepted : ℤ → Bool) (select : Payload → Bool) (s : ClientState)
    {result : Bool × ClientState}
    (hresult : result = match s.exchange env request accepted select with
      | (.unsent, s) | (.silent, s) => (false, s)
      | (.reply payload, s) => s.handleReply payload false) : R s result.1 result.2 := by
  rw [hresult]
  rcases hex : s.exchange env request accepted select with ⟨outcome, s'⟩
  cases outcome with
  | unsent | silent => exact h.request hex (by simp)
  | reply payload => exact h.reply hex

theorem Obeys.pkSignature (user : Bytes) (pkey : PublicKey) (sign : Bytes → Option Bytes) (s : ClientState) :
    R s (sshSendPkSignature env user pkey sign s).1 (sshSendPkSignature env user pkey sign s).2 := by
  unfold sshSendPkSignature
  split
  · exact h.skip s
  · exact h.answered _ _ _ s rfl

theorem Obeys.hbSignature (pkey : PublicKey) (sign : Bytes → Option Bytes) (s : ClientState) :
    R s (sshSendHbSignature env pkey sign s).1 (sshSendHbSignature env pkey sign s).2 := by
  unfold sshSendHbSignature
  split
  · exact h.skip s
  · exact h.answered _ _ _ s rfl

theorem Obeys.pubkey (user : Bytes) (pkey : PublicKey) (s : ClientState) :
    R s false (sendUserauthPubkey env user pkey s).2 := by
  unfold sendUserauthPubkey
  rcases hex : s.exchange env (.publickey user pkey none) (0 < ·) selectUserauthPubkeyReply with
    ⟨outcome, s'⟩
  have hrequest := h.request hex (by
    intro payload hreply hsuccess
    have hselect := ((exchange_spec hex).2 payload hreply).1
    rw [selectUserauthPubkeyReply, hsuccess] at hselect
    exact absurd hselect (by decide))
  cases outcome with
  | unsent | silent => exact hrequest
  | reply payload =>
    simp only
    split <;> exact hrequest

theorem Obeys.userIdentity (identity : Identity) (s : ClientState) :
    R s (tryUserIdentity env identity s).1 (tryUserIdentity env identity s).2 := by
  unfold tryUserIdentity
  cases identity.pkey with
  | none => exact h.skip s
  | some pkey =>
    have hfirst := h.pubkey (identity.user.getD env.pwName) pkey s
    rcases hsend : sendUserauthPubkey env (identity.user.getD env.pwName) pkey s with
      ⟨result, s'⟩
    rw [hsend] at hfirst
    cases result with
    | false => simpa only [hsend] using hfirst
    | true =>
      simp only [hsend]
      cases identity.sign with
      | none => exact hfirst
      | some sign => exact h.trans hfirst (h.pkSignature _ pkey sign s')

theorem Obeys.hostIdentity (identity : Identity) (s : ClientState) :
    R s (tryHostIdentity env identity s).1 (tryHostIdentity env identity s).2 := by
  unfold tryHostIdentity
  split
  · exact h.hbSignature _ _ s
  · exact h.skip s

theorem Obeys.firstIdentity {attempt : Identity → ClientState → Bool × ClientState}
    (hattempt : ∀ identity s, R s (attempt identity s).1 (attempt identity s).2)
    (identities : List Identity) (s : ClientState) :
    R s (firstIdentity attempt identities s).1.isSome (firstIdentity attempt identities s).2 := by
  induction identities generalizing s with
  | nil => exact h.skip s
  | cons identity identities ih =>
    have hfirst := hattempt identity s
    rw [Osns.firstIdentity]
    rcases hresult : attempt identity s with ⟨result, s'⟩
    rw [hresult] at hfirst
    cases result with
    | false => exact h.trans hfirst (ih s')
    | true => exact hfirst

end

end Methods

/-! ## The loop -/

def ClientState.untried (s : ClientState) : ℕ :=
  (if s.done.publickey then 0 else 1) + (if s.done.password then 0 else 1) +
    if s.done.hostbased then 0 else 1

/-- What a pass leads to: a sound state, with one method less to try when there is another
pass. -/
def ClientState.Continues (s : ClientState) : Loop.Step ClientState ClientState → Prop
  | .next s' => s'.Sound ∧ s'.untried < s.untried
  | .done s' => s'.Sound

theorem ClientState.continues_again {s' : ClientState} (hs : s'.Sound)
    (hless : s'.untried < s.untried) : s.Continues s'.again := by
  unfold again
  split_ifs
  · exact hs
  · exact ⟨hs, hless⟩
  · exact hs

theorem AuthMethods.eq_empty {methods : AuthMethods} (hnone : methods.none = false)
    (hsupported : methods.supported = true) (hpublickey : ¬ methods.publickey = true)
    (hpassword : ¬ methods.password = true) (hhostbased : ¬ methods.hostbased = true) :
    methods = {} := by
  simp only [AuthMethods.supported, Bool.not_eq_true'] at hsupported
  simp only [Bool.not_eq_true] at hpublickey hpassword hhostbased
  rw [AuthMethods.mk.injEq]
  exact ⟨hnone, hpublickey, hpassword, hhostbased, hsupported⟩

/-- A pass ends the loop right away or behind a method that has failed, or it looks at the mask again:
behind a method that has been accepted, and which is marked, or because there is none. -/
theorem tryUserauth_cases {env : ClientEnv} {R : ClientState → Bool → ClientState → Prop}
    (h : Obeys env R) (hpassword : R s (sendUserauthPasswordRequest env (readPrivatePwlist env) false s).1
      (sendUserauthPasswordRequest env (readPrivatePwlist env) false s).2) :
    (∃ s', (s' = s ∨ R s false s') ∧ tryUserauth env s = .done s') ∨
      (∃ s' t : ClientState, R s true s' ∧ tryUserauth env s = t.again ∧
        (t.history = s'.history ∧ t.sent = s'.sent ∧ t.required = s'.required) ∧
        (s'.done = s.done → t.untried < s.untried)) ∨
      tryUserauth env s = s.again ∧ s.required.publickey ≠ true ∧ s.required.password ≠ true ∧
        s.required.hostbased ≠ true := by
  unfold tryUserauth
  split_ifs with hpublickey hdone hfound hpass hdone hempty hhostbased hdone hfound
  · exact .inl ⟨s, .inl rfl, rfl⟩
  · have hsend := h.firstIdentity h.userIdentity env.userKeys s
    rcases hresult : sendUserauthPubkeyRequest env s with ⟨identity, s'⟩
    rw [sendUserauthPubkeyRequest] at hresult
    rw [hresult] at hsend
    cases identity with
    | none => exact .inl ⟨s', .inr hsend, rfl⟩
    | some identity =>
      refine .inr (.inl ⟨s', _, hsend, rfl, ⟨rfl, rfl, rfl⟩, fun hsame => ?_⟩)
      simp only [untried, hsame, hdone, Bool.false_eq_true, if_true, if_false]
      omega
  · exact .inl ⟨s, .inl rfl, rfl⟩
  · exact .inl ⟨s, .inl rfl, rfl⟩
  · exact .inl ⟨s, .inl rfl, rfl⟩
  · rcases hresult : sendUserauthPasswordRequest env (readPrivatePwlist env) false s with ⟨result, s'⟩
    rw [hresult] at hpassword
    cases result with
    | false => exact .inl ⟨s', .inr hpassword, rfl⟩
    | true =>
      refine .inr (.inl ⟨s', _, hpassword, rfl, ⟨rfl, rfl, rfl⟩, fun hsame => ?_⟩)
      simp only [untried, hsame, hdone, Bool.false_eq_true, if_true, if_false]
      omega
  · exact .inl ⟨s, .inl rfl, rfl⟩
  · have hsend := h.firstIdentity h.hostIdentity env.hostKeys s
    rcases hresult : sendUserauthHostbasedRequest env s with ⟨identity, s'⟩
    rw [sendUserauthHostbasedRequest] at hresult
    rw [hresult] at hsend
    cases identity with
    | none => exact .inl ⟨s', .inr hsend, rfl⟩
    | some identity =>
      refine .inr (.inl ⟨s', _, hsend, rfl, ⟨rfl, rfl, rfl⟩, fun hsame => ?_⟩)
      simp only [untried, hsame, hdone, Bool.false_eq_true, if_true, if_false]
      omega
  · exact .inl ⟨s, .inl rfl, rfl⟩
  · exact .inr (.inr ⟨rfl, hpublickey, hpass, hhostbased⟩)

variable (env : ClientEnv)

theorem tryUserauth_spec (hs : s.Sound) : s.Continues (tryUserauth env s) := by
  rcases tryUserauth_cases (keeps_obeys env) (sendUserauthPasswordRequest_keeps env _ false s) with
    ⟨s', hs', hpass⟩ | ⟨s', t, hkeeps, hpass, ⟨hhistory, -, hrequired⟩, hless⟩ |
    ⟨hpass, hpublickey, hpassword, hhostbased⟩
  · rw [hpass]
    rcases hs' with rfl | hkeeps
    · exact hs
    · exact hkeeps.sound hs
  · rw [hpass]
    refine continues_again ⟨fun hempty => ?_, ?_⟩ (hless hkeeps.done)
    · rw [ClientState.Succeeded, hhistory]
      exact (hkeeps.sound hs).cleared (hrequired ▸ hempty)
    · rw [hrequired]
      exact (hkeeps.sound hs).listed
  · rw [hpass]
    unfold again
    split_ifs with hrequired hsupported
    · exact hs
    · exact absurd (AuthMethods.eq_empty hs.listed hsupported hpublickey hpassword hhostbased)
        hrequired
    · exact hs

/-! ## Whole runs -/

/-- A result that can be relied on: zero only after success, and otherwise minus one. -/
def Trusted (result : ℤ) (s : ClientState) : Prop :=
  (result = 0 → s.Succeeded) ∧ (result ≠ 0 → result = -1)

theorem trusted_failed (s : ClientState) : Trusted (-1) s :=
  ⟨fun h => absurd h (by decide), fun _ => rfl⟩

theorem ClientState.Sound.trusted (h : s.Sound) : Trusted s.finish.1 s.finish.2 := by
  unfold finish
  split
  · next hempty => exact ⟨fun _ => h.cleared hempty, fun h => absurd rfl h⟩
  · exact trusted_failed s

variable (inbox : Inbox)

def noneReply : Option Payload :=
  if env.serviceAccepted = true ∧ 0 < env.sends 0 then
    (inbox.getSshPayload selectUserauthReply).1
  else none

/-- The server answers the request `none` with a failure message of a wrong length. -/
def MalformedNone : Prop :=
  ∃ payload, noneReply env inbox = some payload ∧ payload.type = msgUserauthFailure ∧
    ¬ FailureWellFormed payload

def ClientState.afterNone (payload : Payload) : ClientState :=
  { init inbox with
    inbox := (inbox.getSshPayload selectUserauthReply).2
    sent := 1
    history := [{ number := 0, request := .none env.pwName, reply := some payload }] }

section Runs

variable {env : ClientEnv} {inbox : Inbox} {payload : Payload}

variable (env inbox payload) in
theorem afterNone_succeeded_iff :
    (afterNone env inbox payload).Succeeded ↔ payload.type = msgUserauthSuccess := by
  simp [ClientState.Succeeded, afterNone]

theorem sendUserauthNoneRequest_of_silent (h : noneReply env inbox = none) :
    env.serviceAccepted = true → ∃ s, sendUserauthNoneRequest env (.init inbox) = (false, s) := by
  intro haccepted
  by_cases hsend : 0 < env.sends 0
  · simp only [noneReply, haccepted, hsend, and_self, if_true] at h
    simp [sendUserauthNoneRequest, exchange, init, hsend, h]
  · simp [sendUserauthNoneRequest, exchange, init, hsend]

theorem sendUserauthNoneRequest_of_reply (h : noneReply env inbox = some payload) :
    env.serviceAccepted = true ∧ sendUserauthNoneRequest env (.init inbox) =
      if payload.type = msgUserauthSuccess then (true, .afterNone env inbox payload)
      else if payload.type = msgUserauthFailure then
        (true, { afterNone env inbox payload with
          required := (handleAuthFailure payload {}).2 })
      else (false, .afterNone env inbox payload) := by
  unfold noneReply at h
  split at h
  · next hsent =>
    refine ⟨hsent.1, ?_⟩
    simp only [sendUserauthNoneRequest, exchange, init, hsent.2,
      decide_true, if_true, h]
    rfl
  · cases h

theorem startSshUserauthClient_of_sound {s : ClientState} (haccepted : env.serviceAccepted = true)
    (hnone : sendUserauthNoneRequest env (.init inbox) = (true, s)) (hs : s.Sound) :
    ∃ result s', startSshUserauthClient env inbox = some (result, s') ∧ Trusted result s' := by
  simp only [startSshUserauthClient, haccepted, if_true, hnone]
  split
  · exact ⟨_, _, rfl, hs.trusted⟩
  · have huntried : s.untried < 4 := by
      unfold untried
      split_ifs <;> omega
    obtain ⟨s', hrun, hs'⟩ : ∃ s', Loop.run (tryUserauth env) 4 s = some s' ∧ s'.Sound := by
      refine Loop.run_spec untried ?_ hs huntried
      intro s hs
      have hpass := tryUserauth_spec env hs
      cases htry : tryUserauth env s <;> rwa [htry] at hpass
    rw [hrun]
    exact ⟨_, _, rfl, hs'.trusted⟩

theorem startSshUserauthClient_of_silent (h : noneReply env inbox = none) :
    ∃ s, startSshUserauthClient env inbox = some (-1, s) := by
  by_cases haccepted : env.serviceAccepted = true
  · obtain ⟨s, hnone⟩ := sendUserauthNoneRequest_of_silent h haccepted
    exact ⟨s, by simp [startSshUserauthClient, haccepted, hnone]⟩
  · exact ⟨.init inbox, by simp [startSshUserauthClient, haccepted]⟩

theorem startSshUserauthClient_cases (env : ClientEnv) (inbox : Inbox) :
    ∃ result s, startSshUserauthClient env inbox = some (result, s) ∧
      (Trusted result s ∧ ¬ MalformedNone env inbox ∨
        result = 0 ∧ ¬ s.Succeeded ∧ MalformedNone env inbox) := by
  cases hreply : noneReply env inbox with
  | none =>
    obtain ⟨s, hrun⟩ := startSshUserauthClient_of_silent hreply
    exact ⟨-1, s, hrun, .inl ⟨trusted_failed s, by simp [MalformedNone, hreply]⟩⟩
  | some payload =>
    obtain ⟨haccepted, hnone⟩ := sendUserauthNoneRequest_of_reply hreply
    simp only [MalformedNone, hreply, Option.some_inj, exists_eq_left']
    split_ifs at hnone with hsuccess hfailure
    · obtain ⟨result, s, hrun, htrusted⟩ := startSshUserauthClient_of_sound haccepted hnone
        ⟨fun _ => (afterNone_succeeded_iff env inbox payload).mpr hsuccess, rfl⟩
      refine ⟨result, s, hrun, .inl ⟨htrusted, ?_⟩⟩
      rw [hsuccess]
      exact fun h => absurd h.1 (by decide)
    · by_cases hwell : FailureWellFormed payload
      · obtain ⟨hmethods, hlisted⟩ := handleAuthFailure_of_wellFormed hwell {}
        obtain ⟨result, s, hrun, htrusted⟩ := startSshUserauthClient_of_sound haccepted hnone
          ⟨fun hempty => absurd hempty hmethods, hlisted⟩
        exact ⟨result, s, hrun, .inl ⟨htrusted, fun h => h.2 hwell⟩⟩
      · rw [handleAuthFailure_of_malformed hwell] at hnone
        refine ⟨0, (afterNone env inbox payload).finish.2, ?_,
          .inr ⟨rfl, fun h => hsuccess ?_, hfailure, hwell⟩⟩
        · simp only [startSshUserauthClient, haccepted, if_true, hnone, true_or]
          rfl
        · exact (afterNone_succeeded_iff env inbox payload).mp h
    · exact ⟨-1, .afterNone env inbox payload, by simp [startSshUserauthClient, haccepted, hnone],
        .inl ⟨trusted_failed _, fun h => hfailure h.1⟩⟩

/-- Only a malformed answer to the request `none` makes the client take itself for
authenticated without success. -/
theorem startSshUserauthClient_trusted_iff (env : ClientEnv) (inbox : Inbox) :
    ∃ result s, startSshUserauthClient env inbox = some (result, s) ∧
      (Trusted result s ↔ ¬ MalformedNone env inbox) := by
  obtain ⟨result, s, hrun, ⟨htrusted, hnone⟩ | ⟨hzero, hnot, hnone⟩⟩ :=
    startSshUserauthClient_cases env inbox
  · exact ⟨result, s, hrun, iff_of_true htrusted hnone⟩
  · exact ⟨result, s, hrun, iff_of_false (fun h => hnot (h.1 hzero)) (not_not_intro hnone)⟩

end Runs

/-! ## After success -/

/-- Success is the answer to the last request that has been made. -/
def ClientState.Stops (s : ClientState) : Prop :=
  ∀ e ∈ s.history, (∃ payload, e.reply = some payload ∧ payload.type = msgUserauthSuccess) →
    e.number + 1 = s.sent

/-- What a method leads to before success: there is none yet, or it has come last, the method reports it
and nothing more is required. -/
def Concludes (s : ClientState) (result : Bool) (s' : ClientState) : Prop :=
  ¬ s.Succeeded → ¬ s'.Succeeded ∨ result = true ∧ s'.required = {} ∧ s'.Stops

section Success

variable {env : ClientEnv} {s s' : ClientState}

theorem ClientState.stops_of_not_succeeded (h : ¬ s.Succeeded) : s.Stops :=
  fun e he hsuccess => absurd ⟨e, he, hsuccess⟩ h

theorem ClientState.exchange_stops {request : Request} {accepted : ℤ → Bool} {select : Payload → Bool}
    {outcome : Outcome} (h : s.exchange env request accepted select = (outcome, s'))
    (hs : ¬ s.Succeeded) :
    s'.required = s.required ∧ s'.Stops ∧
      (s'.Succeeded → ∃ payload, outcome = .reply payload ∧ payload.type = msgUserauthSuccess) := by
  rcases exchange_cases h with ⟨rfl, written, hwritten, rfl⟩ | ⟨reply, rfl, -, rfl⟩
  · have hnot : ¬ ClientState.Succeeded { s with sent := s.sent + 1, history := s.history ++ written } := by
      rintro ⟨e, he, payload, hreply, htype⟩
      rcases mem_append.mp he with he | he
      · exact hs ⟨e, he, payload, hreply, htype⟩
      · cases (hwritten e he).symm.trans hreply
    exact ⟨rfl, stops_of_not_succeeded hnot, fun h => absurd h hnot⟩
  · have hlast : ∀ e ∈ s.history ++ [⟨s.sent, request, reply⟩],
        (∃ payload, e.reply = some payload ∧ payload.type = msgUserauthSuccess) →
          e = ⟨s.sent, request, reply⟩ := by
      intro e he hsuccess
      rcases mem_append.mp he with he | he
      · exact absurd ⟨e, he, hsuccess⟩ hs
      · exact mem_singleton.mp he
    refine ⟨rfl, fun e he hsuccess => by rw [hlast e he hsuccess], ?_⟩
    rintro ⟨e, he, payload, hpayload, htype⟩
    cases hlast e he ⟨payload, hpayload, htype⟩
    cases hpayload
    exact ⟨payload, rfl, htype⟩

theorem concludes_obeys (env : ClientEnv) : Obeys env Concludes where
  skip _ hs := .inl hs
  trans h h' hs := by
    rcases h hs with hs' | ⟨hfalse, -⟩
    · exact h' hs'
    · cases hfalse
  request h hreply hs := by
    refine .inl fun hsuccess => ?_
    obtain ⟨payload, houtcome, htype⟩ := (exchange_stops h hs).2.2 hsuccess
    exact hreply payload houtcome htype
  reply {s s' _ _ _ payload} h hs := by
    obtain ⟨-, hstops, hsuccess⟩ := exchange_stops h hs
    by_cases htype : payload.type = msgUserauthSuccess
    · rw [handleReply, if_pos htype]
      exact .inr ⟨rfl, rfl, hstops⟩
    · -- nothing but the mask changes
      have hhistory : (s'.handleReply payload false).2.history = s'.history := by
        rw [handleReply, if_neg htype]
        split <;> rfl
      refine .inl fun h' => ?_
      rw [ClientState.Succeeded, hhistory] at h'
      obtain ⟨found, houtcome, hfound⟩ := hsuccess h'
      cases houtcome
      exact htype hfound

/-- The loop over the credentials has no second one to send. -/
theorem sendUserauthPasswordRequest_concludes (env : ClientEnv) (s : ClientState) :
    Concludes s (sendUserauthPasswordRequest env (readPrivatePwlist env) false s).1
      (sendUserauthPasswordRequest env (readPrivatePwlist env) false s).2 := by
  unfold readPrivatePwlist
  cases env.credentials with
  | none => exact (concludes_obeys env).skip s
  | some pword => exact (concludes_obeys env).answered _ _ _ s rfl

/-- What a pass leads to: success has not come before the next one, and it is the last thing to come. -/
def PassStops : Loop.Step ClientState ClientState → Prop
  | .next s => ¬ s.Succeeded
  | .done s => s.Stops

theorem Concludes.again {result : Bool} {t : ClientState} (h : Concludes s result s') (hs : ¬ s.Succeeded)
    (ht : t.history = s'.history ∧ t.sent = s'.sent ∧ t.required = s'.required) : PassStops t.again := by
  obtain ⟨hhistory, hsent, hrequired⟩ := ht
  rcases h hs with hs' | ⟨-, hempty, hstops⟩
  · have ht : ¬ t.Succeeded := by rwa [ClientState.Succeeded, hhistory]
    unfold ClientState.again
    split_ifs
    · exact ClientState.stops_of_not_succeeded ht
    · exact ht
    · exact ClientState.stops_of_not_succeeded ht
  · rw [ClientState.again, if_pos (hrequired.trans hempty), PassStops, ClientState.Stops, hhistory, hsent]
    exact hstops

theorem Concludes.failed (h : Concludes s false s') (hs : ¬ s.Succeeded) : s'.Stops := by
  rcases h hs with hs' | ⟨hfalse, -⟩
  · exact stops_of_not_succeeded hs'
  · cases hfalse

theorem tryUserauth_stops (hs : ¬ s.Succeeded) : PassStops (tryUserauth env s) := by
  rcases tryUserauth_cases (concludes_obeys env) (sendUserauthPasswordRequest_concludes env s) with
    ⟨s', hs', hpass⟩ | ⟨s', t, hsend, hpass, hsame, -⟩ | ⟨hpass, -⟩
  · rw [hpass]
    rcases hs' with rfl | hsend
    · exact stops_of_not_succeeded hs
    · exact hsend.failed hs
  · rw [hpass]
    exact hsend.again hs hsame
  · rw [hpass]
    have hskip : Concludes s true s := fun _ => .inl hs
    exact hskip.again hs ⟨rfl, rfl, rfl⟩

theorem sendUserauthNoneRequest_concludes (env : ClientEnv) (hs : s.required = {}) :
    Concludes s (sendUserauthNoneRequest env s).1 (sendUserauthNoneRequest env s).2 := by
  intro hnot
  unfold sendUserauthNoneRequest
  rcases hex : s.exchange env (.none env.pwName) (0 < ·) selectUserauthReply with ⟨outcome, s'⟩
  obtain ⟨hrequired, hstops, hsuccess⟩ := exchange_stops hex hnot
  cases outcome with
  | unsent | silent => exact (concludes_obeys env).request hex (by simp) hnot
  | reply payload =>
    have hother : payload.type ≠ msgUserauthSuccess → ¬ s'.Succeeded := by
      intro htype h
      obtain ⟨found, houtcome, hfound⟩ := hsuccess h
      cases houtcome
      exact htype hfound
    simp only
    split_ifs with htype hfailure
    · exact .inr ⟨rfl, hrequired.trans hs, hstops⟩
    · exact .inl (hother htype)
    · exact .inl (hother htype)

theorem ClientState.Stops.of_finish {result : ℤ} (h : s.Stops) (hfinish : s.finish = (result, s')) :
    s'.Stops := by
  unfold finish at hfinish
  split at hfinish
  · cases hfinish
    exact h
  · cases hfinish
    exact h

end Success

/-- A run ends whatever the server sends, and nothing is sent after success has been received. -/
theorem startSshUserauthClient_stops (env : ClientEnv) (inbox : Inbox) :
    ∃ result s, startSshUserauthClient env inbox = some (result, s) ∧ s.Stops := by
  obtain ⟨result, s, hrun, -⟩ := startSshUserauthClient_cases env inbox
  refine ⟨result, s, hrun, ?_⟩
  have hinit : ¬ (init inbox).Succeeded := by simp [ClientState.Succeeded, init]
  have hnone : Concludes (.init inbox) _ _ := sendUserauthNoneRequest_concludes env rfl
  unfold startSshUserauthClient at hrun
  split at hrun
  · rcases hsend : sendUserauthNoneRequest env (.init inbox) with ⟨ok, first⟩
    rw [hsend] at hrun hnone
    cases ok with
    | false =>
      cases hrun
      exact hnone.failed hinit
    | true =>
      rcases hnone hinit with hfirst | ⟨-, hempty, hstops⟩
      · simp only at hrun
        split at hrun
        · exact (stops_of_not_succeeded hfirst).of_finish (Option.some.inj hrun)
        · obtain ⟨last, hloop, hlast⟩ := Option.map_eq_some_iff.mp hrun
          have hstops : last.Stops := by
            refine Loop.run_invariant (P := fun s => ¬ s.Succeeded) ?_ hfirst hloop
            intro s hs
            have hpass : PassStops (tryUserauth env s) := tryUserauth_stops hs
            cases htry : tryUserauth env s <;> rwa [htry] at hpass
          exact hstops.of_finish hlast
      · dsimp only at hrun
        rw [if_pos (Or.inl hempty)] at hrun
        exact hstops.of_finish (Option.some.inj hrun)
  · cases hrun
    exact stops_of_not_succeeded hinit

/-! ## A malformed failure -/

def plainClient : ClientEnv where
  serviceAccepted := true
  peerKnown := true
  sends _ := 1
  pwName := [117]
  hostname := [104]
  sessionId := []
  userKeysFound := false
  userKeys := []
  hostKeysFound := false
  hostKeys := []
  credentials := none

def shortFailure : Inbox where
  queue := []
  arrivals := [[{ type := msgUserauthFailure, sequence := 0, buffer := [51] }]]

theorem shortFailure_not_trusted :
    ∃ s, startSshUserauthClient plainClient shortFailure = some (0, s) ∧ ¬ Trusted 0 s := by
  obtain ⟨result, s, hrun, ⟨-, hnone⟩ | ⟨rfl, hnot, -⟩⟩ :=
    startSshUserauthClient_cases plainClient shortFailure
  · exact absurd ⟨_, rfl, rfl, by decide⟩ hnone
  · exact ⟨s, hrun, fun h => hnot (h.1 rfl)⟩

end Osns
