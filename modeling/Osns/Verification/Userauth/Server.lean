import Osns.Model.Userauth.Server

/-! When the server lets a client in. -/

namespace Osns

open List Option Result ServerState

/-! ## The queue -/

section Queue

variable (inbox : Inbox) (select : Payload → Bool)

theorem Inbox.size_arrive : inbox.arrive.size = inbox.size := by
  unfold Inbox.arrive Inbox.size
  cases inbox.arrivals with
  | nil => simp
  | cons now later =>
    simp only [head?_cons, getD_some, length_append, tail_cons, flatten_cons]
    omega

theorem Inbox.size_getSshPayload_le : (inbox.getSshPayload select).2.size ≤ inbox.size := by
  rw [← inbox.size_arrive]
  exact Nat.add_le_add_right (length_eraseP_le) _

variable {inbox select} in
theorem Inbox.size_getSshPayload_lt {payload : Payload}
    (h : (inbox.getSshPayload select).1 = some payload) :
    (inbox.getSshPayload select).2.size < inbox.size := by
  have hmem := mem_of_find?_eq_some h
  have hlen := length_eraseP_of_mem hmem (find?_some h)
  have hpos := length_pos_of_mem hmem
  rw [← inbox.size_arrive]
  refine Nat.add_lt_add_right ?_ _
  rw [Inbox.getSshPayload, hlen]
  omega

end Queue

/-! ## Granted access -/

def granting (trace : List ServerEvent) : Option SshString :=
  trace.foldl (fun user e => match e with | .request username => some username | _ => user) none

def AuthConfig.requires (config : AuthConfig) : AuthMethod → Bool
  | .password => config.password
  | .publickey => config.publickey
  | .hostbased => config.hostkey

variable (env : ServerEnv)

/-- Every configured method has been passed for the username of the last request. -/
def Passed (trace : List ServerEvent) : Prop :=
  ∃ username, granting trace = some username ∧
    ∀ method, env.config.requires method = true → .passed method username ∈ trace

def Justified (trace : List ServerEvent) : Prop :=
  ∀ before after, trace = before ++ .success :: after → Passed env before

theorem justified_nil : Justified env [] := by
  intro before after h
  simp at h

variable {e : ServerEvent}

theorem Justified.append {env : ServerEnv} {trace : List ServerEvent}
    (h : Justified env trace) (he : e = .success → Passed env trace) :
    Justified env (trace ++ [e]) := by
  intro before after heq
  rcases eq_nil_or_concat after with rfl | ⟨after, last, rfl⟩
  · obtain ⟨rfl, hlast⟩ := append_inj' heq rfl
    exact he (cons.inj hlast).1
  · rw [concat_eq_append, ← cons_append, ← append_assoc] at heq
    exact h before after (append_inj' heq rfl).1

/-! ## The invariant of a request -/

/-- The state while a request is served. Only the bit of the method password is ever cleared, and
then the method has been passed for the username of this request, unless other methods are
required as well. -/
structure Serving (s : ServerState) : Prop where
  justified : Justified env s.trace
  user : granting s.trace = some s.username
  publickey : s.required.publickey = env.config.publickey
  hostbased : s.required.hostbased = env.config.hostkey
  none : s.required.none = false
  unknown : s.required.unknown = false
  within : s.required.password = true → env.config.password = true
  password : s.required.password = env.config.password ∨ env.config.publickey = true ∨
    env.config.hostkey = true ∨ .passed .password s.username ∈ s.trace

section Requests

variable {env : ServerEnv} {s : ServerState}

/-- What a responder does: the invariant is kept, also up to undefined behaviour, and messages are
only taken from the queue. -/
def Serves (env : ServerEnv) (s : ServerState) : ServerResult → Prop
  | .ok (_, s') => Serving env s' ∧ s'.inbox.size ≤ s.inbox.size
  | .error s' => Serving env s'

/-- The mask is as it was, or the result is one that does not lead to the service. -/
def Settles (s : ServerState) : ServerResult → Prop
  | .ok (result, s') =>
    s'.required = s.required ∨ result ≠ 0 ∧ result ≠ serviceTypeConnection
  | .error _ => True

def Responds (env : ServerEnv) (s : ServerState) (result : ServerResult) : Prop :=
  Serves env s result ∧ Settles s result

theorem write_ne (e : ServerEvent) (len : ℕ) :
    (s.write env e len).1 ≠ 0 ∧ (s.write env e len).1 ≠ serviceTypeConnection := by
  unfold write serviceTypeConnection
  cases env.writes s.sent with
  | none =>
    simp only [elim_none]
    omega
  | some extra =>
    simp only [elim_some]
    omega

theorem settles_write (s₀ : ServerState) (e : ServerEvent) (len : ℕ) :
    Settles s₀ (.ok (s.write env e len)) :=
  .inr (write_ne e len)

variable (env s) in
theorem verified_kept (method : AuthMethod) (username : SshString) (pkey : PublicKey)
    (text : Bytes) (signature : SshString) :
    (s.verified env method username pkey text signature).2.inbox = s.inbox ∧
      (s.verified env method username pkey text signature).2.required = s.required := by
  unfold verified
  simp only
  split <;> exact ⟨rfl, rfl⟩

theorem Serves.of_le {s' : ServerState} {result : ServerResult} (h : Serves env s' result)
    (hle : s'.inbox.size ≤ s.inbox.size) : Serves env s result := by
  cases result with
  | error => exact h
  | ok result => exact ⟨h.1, h.2.trans hle⟩

variable (h : Serving env s)

include h

theorem Serving.passed (hempty : s.required = {}) : Passed env s.trace := by
  have hpublickey : env.config.publickey = false := by rw [← h.publickey, hempty]
  have hhostkey : env.config.hostkey = false := by rw [← h.hostbased, hempty]
  refine ⟨s.username, h.user, ?_⟩
  intro method hmethod
  cases method with
  | publickey => exact absurd hmethod (by simp [AuthConfig.requires, hpublickey])
  | hostbased => exact absurd hmethod (by simp [AuthConfig.requires, hhostkey])
  | password =>
    rcases h.password with hsame | hconfig | hconfig | hpassed
    · rw [AuthConfig.requires, ← hsame, hempty] at hmethod
      cases hmethod
    · rw [hpublickey] at hconfig
      cases hconfig
    · rw [hhostkey] at hconfig
      cases hconfig
    · exact hpassed

theorem Serving.emit (he : ∀ username, e ≠ .request username)
    (hsuccess : e = .success → Passed env s.trace) : Serving env (s.emit e) := by
  refine { h with
    justified := h.justified.append hsuccess
    user := ?_
    password := h.password.imp_right (.imp_right (.imp_right (mem_append_left _))) }
  have huser := h.user
  unfold granting at huser ⊢
  rw [ServerState.emit, foldl_append, huser]
  cases e with
  | request username => exact absurd rfl (he username)
  | _ => rfl

theorem Serving.setInbox (inbox : Inbox) : Serving env { s with inbox } :=
  { h with }

theorem Serving.write (he : ∀ username, e ≠ .request username)
    (hsuccess : e = .success → Passed env s.trace) (len : ℕ) :
    Serving env (s.write env e len).2 :=
  { h.emit he hsuccess with }

theorem respondUserauthRequest_serves (success : Bool) (s₀ : ServerState) :
    Serves env s (respondUserauthRequest env s success) ∧
      Settles s₀ (respondUserauthRequest env s success) := by
  unfold respondUserauthRequest sendUserauthRequestReply
  split
  · next hgrant =>
    exact ⟨⟨h.write (by simp) (fun _ => h.passed hgrant.2) 1, Nat.le_refl _⟩, settles_write ..⟩
  · simp only
    split
    · exact ⟨h, True.intro⟩
    · refine ⟨⟨?_, Nat.le_refl _⟩, settles_write ..⟩
      exact h.write (by simp) (by simp) (6 + (writeRequiredAuthMethods s.required).length)

theorem Serving.clearPassword :
    Serving env ({ s with required.password := false }.emit (.passed .password s.username)) :=
  { h.emit (e := .passed .password s.username) (by simp) (by simp) with
    within := fun hset => absurd hset (by simp [ServerState.emit])
    password := .inr (.inr (.inr (mem_append_right _ (mem_singleton_self _)))) }

theorem Serving.verified (method : AuthMethod) (pkey : PublicKey)
    (text : Bytes) (signature : SshString) :
    Serving env (s.verified env method s.username pkey text signature).2 := by
  have hverify : Serving env (s.emit (.verify pkey text signature)) := h.emit (by simp) (by simp)
  unfold ServerState.verified
  simp only
  split
  · exact hverify.emit (by simp) (by simp)
  · exact hverify

theorem verified_serves (method : AuthMethod) (pkey : PublicKey) (text : Bytes)
    (signature : SshString) :
    Responds env s (.ok (s.verified env method s.username pkey text signature)) := by
  obtain ⟨hinbox, hrequired⟩ := verified_kept env s method s.username pkey text signature
  exact ⟨⟨h.verified method pkey text signature, Nat.le_of_eq (congrArg Inbox.size hinbox)⟩,
    .inl hrequired⟩

theorem serves_self (result : ℤ) : Responds env s (.ok (result, s)) :=
  ⟨⟨h, Nat.le_refl _⟩, .inl rfl⟩

theorem responds_orCrash {α : Type} (x : Except Fault α) {f : α → ServerResult}
    (hf : ∀ a, Responds env s (f a)) : Responds env s (s.orCrash x >>= f) := by
  cases x with
  | error => exact ⟨h, True.intro⟩
  | ok a => exact hf a

theorem respondUserauthPasswordRequest_serves (data : SshString) :
    Responds env s (respondUserauthPasswordRequest env s s.username data) := by
  unfold respondUserauthPasswordRequest
  split
  · split
    · exact respondUserauthRequest_serves h false s
    · refine responds_orCrash h _ fun password => ?_
      cases password with
      | none => exact respondUserauthRequest_serves h false s
      | some password =>
        dsimp only
        split
        · exact respondUserauthRequest_serves h.clearPassword true s
        · exact respondUserauthRequest_serves h false s
  · exact respondUserauthRequest_serves h true s

theorem respondUserauthHostbasedRequest_serves (service data : SshString) :
    Responds env s (respondUserauthHostbasedRequest env s s.username service data) := by
  refine responds_orCrash h _ fun request => ?_
  cases request with
  | none => exact serves_self h _
  | some request => exact responds_orCrash h _ fun text => verified_serves h ..

theorem respondPubkeySignature_serves (service : SshString)
    (pkey : PublicKey) (payload : Payload) :
    Responds env s (respondPubkeySignature env s s.username service pkey payload) := by
  unfold respondPubkeySignature
  split
  · refine responds_orCrash h _ fun signature => ?_
    cases signature with
    | none => exact serves_self h _
    | some signature => exact responds_orCrash h _ fun text => verified_serves h ..
  · exact serves_self h _

theorem awaitPubkeySignature_serves (service : SshString)
    (pkey : PublicKey) :
    Responds env s (awaitPubkeySignature env s s.username service pkey) := by
  have hle := s.inbox.size_getSshPayload_le selectUserauthPubkeyReply
  unfold awaitPubkeySignature
  rcases hget : s.inbox.getSshPayload selectUserauthPubkeyReply with ⟨payload, inbox⟩
  rw [hget] at hle
  cases payload with
  | none => exact ⟨⟨h.setInbox inbox, hle⟩, .inl rfl⟩
  | some payload =>
    have hrespond := respondPubkeySignature_serves (h.setInbox inbox) service pkey payload
    exact ⟨hrespond.1.of_le hle, hrespond.2⟩

theorem respondUserauthPublickeyRequest_serves (service data : SshString) :
    Responds env s (respondUserauthPublickeyRequest env s s.username service data) := by
  refine responds_orCrash h _ fun pkey => ?_
  cases pkey with
  | none => exact serves_self h _
  | some pkey =>
    have hwrite : Serving env (s.write env (.pkOk pkey)
        (writeUserauthPubkeyOkMessage pkey).length).2 := h.write (by simp) (by simp) _
    dsimp only
    split
    · exact awaitPubkeySignature_serves hwrite service pkey
    · exact serves_self hwrite _

end Requests

/-! ## One pass -/

/-- The state at the head of the loop, where the next request may have another username. -/
structure AtHead (s : ServerState) : Prop where
  justified : Justified env s.trace
  publickey : s.required.publickey = env.config.publickey
  hostbased : s.required.hostbased = env.config.hostkey
  none : s.required.none = false
  unknown : s.required.unknown = false
  within : s.required.password = true → env.config.password = true
  password : s.required.password = env.config.password ∨ env.config.publickey = true ∨
    env.config.hostkey = true

def Ends : ServerResult → Prop
  | .ok (result, s) => Justified env s.trace ∧ (result = serviceTypeConnection → Passed env s.trace)
  | .error s => Justified env s.trace

section Passes

variable {env : ServerEnv} {s : ServerState}

theorem AtHead.request (h : AtHead env s) (username service method : SshString) :
    Serving env ({ s with username, service, method }.emit (.request username)) :=
  { h with
    justified := h.justified.append (by simp)
    user := by simp [granting, emit, foldl_append]
    password := h.password.imp_right (.imp_right .inl) }

/-- Some method is still required at the head of the loop; if it is not the password, it is one
that is never passed. -/
theorem Serving.atHead (h : Serving env s) (hrequired : s.required ≠ {}) : AtHead env s := by
  refine { h with password := ?_ }
  by_cases hpassword : s.required.password = true
  · exact .inl (hpassword.trans (h.within hpassword).symm)
  by_contra hnot
  simp only [not_or, Bool.not_eq_true] at hnot hpassword
  apply hrequired
  rw [AuthMethods.mk.injEq]
  exact ⟨h.none, h.publickey.trans hnot.2.1, hpassword, h.hostbased.trans hnot.2.2, h.unknown⟩

theorem ends_giveUp (h : Justified env s.trace) : Ends env (.ok s.giveUp) :=
  ⟨h.append (by simp), fun hresult => absurd hresult (by decide)⟩

variable {s' : ServerState}

theorem respondUserauthRequest_ne_connection {success : Bool} {result : ℤ}
    (h : respondUserauthRequest env s success = .ok (result, s')) :
    result ≠ serviceTypeConnection := by
  unfold respondUserauthRequest sendUserauthRequestReply at h
  simp only at h
  split_ifs at h
  · obtain ⟨rfl, -⟩ := Prod.mk.inj (Except.ok.inj h)
    exact (write_ne .success 1).2
  · obtain ⟨rfl, -⟩ := Prod.mk.inj (Except.ok.inj h)
    exact (write_ne (.failure s.required success) _).2

theorem ends_respondUserauthRequest (h : Serving env s) (success : Bool) :
    Ends env (respondUserauthRequest env s success) := by
  have hserves := (respondUserauthRequest_serves h success s).1
  cases hrespond : respondUserauthRequest env s success with
  | error s' =>
    rw [hrespond] at hserves
    exact hserves.justified
  | ok r =>
    rw [hrespond] at hserves
    exact ⟨hserves.1.justified,
      fun hresult => absurd hresult (respondUserauthRequest_ne_connection hrespond)⟩

theorem ends_conclude (h : Serving env s) (hempty : s.required = {}) (result : ℤ) :
    Ends env (s.conclude result) := by
  unfold conclude
  split
  · cases s.service.compareC connectionName with
    | error => exact h.justified
    | ok same => cases same <;> exact ⟨h.justified, fun _ => h.passed hempty⟩
  · exact ⟨h.justified, fun _ => h.passed hempty⟩

def ServesMethod (env : ServerEnv) (s : ServerState) :
    Except ServerState (Option (ℤ × ServerState)) → Prop
  | .ok (some result) => Serves env s (.ok result)
  | .ok none => True
  | .error s' => Serving env s'

def SettlesMethod (s : ServerState) : Except ServerState (Option (ℤ × ServerState)) → Prop
  | .ok (some result) => Settles s (.ok result)
  | _ => True

theorem Serves.choice (h : Serving env s) (test : Except Fault Bool) {result : ServerResult}
    {other : Except ServerState (Option (ℤ × ServerState))}
    (hresult : Responds env s result)
    (hother : ServesMethod env s other ∧ SettlesMethod s other) :
    ServesMethod env s (do if ← s.orCrash test then return some (← result) else other) ∧
      SettlesMethod s (do if ← s.orCrash test then return some (← result) else other) := by
  cases test with
  | error => exact ⟨h, True.intro⟩
  | ok same =>
    cases same with
    | false => exact hother
    | true => cases result <;> exact hresult

theorem respondMethod_serves (h : Serving env s) (data : SshString) :
    ServesMethod env s (respondMethod env s data) ∧ SettlesMethod s (respondMethod env s data) :=
  Serves.choice h _ (respondUserauthRequest_serves h false s)
    (Serves.choice h _ (respondUserauthPasswordRequest_serves h data)
      (Serves.choice h _ (respondUserauthPublickeyRequest_serves h s.service data)
        (Serves.choice h _ (respondUserauthHostbasedRequest_serves h s.service data)
          ⟨True.intro, True.intro⟩)))

/-- What a pass leads to: the head of the loop with fewer than `n` messages, or the end. -/
def Passes (env : ServerEnv) (n : ℕ) : Loop.Step ServerState ServerResult → Prop
  | .next s' => AtHead env s' ∧ s'.inbox.size < n
  | .done result => Ends env result

/-- What a pass leads to: a head of the loop with methods left, or an end without the service. -/
def Bars : Loop.Step ServerState ServerResult → Prop
  | .next s => s.required ≠ {}
  | .done result => ∀ s, result ≠ .ok (serviceTypeConnection, s)

theorem giveUp_ne (s' : ServerState) :
    (.ok s.giveUp : ServerResult) ≠ .ok (serviceTypeConnection, s') := by
  intro h
  have hresult : (-1 : ℤ) = serviceTypeConnection := congrArg Prod.fst (Except.ok.inj h)
  exact absurd hresult (by decide)

theorem answerRequest_passes (h : Serving env s) {n : ℕ} (hlt : s.inbox.size < n)
    (data : SshString) :
    Passes env n (answerRequest env s data) ∧ (s.required ≠ {} → Bars (answerRequest env s data)) := by
  unfold answerRequest
  split
  · exact ⟨ends_respondUserauthRequest h false,
      fun _ s' hrespond => respondUserauthRequest_ne_connection hrespond rfl⟩
  · have hserves := respondMethod_serves h data
    cases hrespond : respondMethod env s data with
    | error s' =>
      rw [hrespond] at hserves
      exact ⟨hserves.1.justified, fun _ => nofun⟩
    | ok result =>
      rw [hrespond] at hserves
      cases result with
      | none => exact ⟨ends_giveUp h.justified, fun _ => giveUp_ne⟩
      | some result =>
        obtain ⟨⟨hserving, hle⟩, hsettles⟩ := hserves
        simp only
        split
        · next hempty =>
          refine ⟨ends_conclude hserving hempty _, fun hrequired => ?_⟩
          rcases hsettles with hsame | ⟨hzero, hservice⟩
          · exact absurd (hsame.symm.trans hempty) hrequired
          · intro s' hend
            rw [conclude, if_neg hzero] at hend
            exact hservice (congrArg Prod.fst (Except.ok.inj hend))
        · next hleft => exact ⟨⟨hserving.atHead hleft, Nat.lt_of_le_of_lt hle hlt⟩, fun _ => hleft⟩

theorem readAuthRequest_eq {payload : Payload} {data : SshString}
    (h : readAuthRequest s payload = .ok (some (s', data))) :
    ∃ username service method, s' = { s with username, service, method } := by
  unfold readAuthRequest at h
  simp only [bind_eq_ok] at h
  obtain ⟨-, -, ⟨username, _⟩, -, ⟨service, _⟩, -, ⟨method, mb⟩, -, h⟩ := h
  split at h
  · cases h
  · cases h
    exact ⟨username, service, method, rfl⟩

theorem AtHead.takeMessage (h : AtHead env s) : AtHead env s.takeMessage.2 := { h with }

theorem untilUserauthFinished_passes (h : AtHead env s) :
    Passes env s.inbox.size (untilUserauthFinished env s) ∧
      (s.required ≠ {} → Bars (untilUserauthFinished env s)) := by
  have hhead := h.takeMessage
  have hkept : s.takeMessage.2.required = s.required := rfl
  unfold untilUserauthFinished
  rcases htake : s.takeMessage with ⟨payload, s'⟩
  rw [htake] at hhead hkept
  cases payload with
  | none => exact ⟨ends_giveUp hhead.justified, fun _ => giveUp_ne⟩
  | some payload =>
    obtain ⟨hfilter, hs'⟩ := Prod.mk.inj htake
    have hlt : s'.inbox.size < s.inbox.size :=
      hs' ▸ Inbox.size_getSshPayload_lt (filter_eq_some_iff.mp hfilter).1
    simp only
    cases hread : readAuthRequest s' payload with
    | error => exact ⟨hhead.justified, fun _ => nofun⟩
    | ok request =>
      cases request with
      | none => exact ⟨ends_giveUp hhead.justified, fun _ => giveUp_ne⟩
      | some request =>
        obtain ⟨username, service, method, heq⟩ := readAuthRequest_eq hread
        simp only [heq, ← hkept]
        exact answerRequest_passes (hhead.request username service method) hlt request.2

theorem loop_ends {R : Prop} (h : AtHead env s) (hrequired : R → s.required ≠ {}) :
    ∃ result, Loop.run (untilUserauthFinished env) (s.inbox.size + 1) s = some result ∧
      Ends env result ∧ (R → ∀ s', result ≠ .ok (serviceTypeConnection, s')) := by
  refine Loop.run_spec (P := fun s => AtHead env s ∧ (R → s.required ≠ {}))
    (fun s => s.inbox.size) ?_ ⟨h, hrequired⟩ (Nat.lt_succ_self _)
  intro s hs
  have hpasses := untilUserauthFinished_passes hs.1
  cases hbody : untilUserauthFinished env s with
  | next s' =>
    rw [hbody] at hpasses
    exact ⟨⟨hpasses.1.1, fun hr => hpasses.2 (hs.2 hr)⟩, hpasses.1.2⟩
  | done result =>
    rw [hbody] at hpasses
    exact ⟨hpasses.1, fun hr => hpasses.2 (hs.2 hr)⟩

theorem atHead_init (env : ServerEnv) (inbox : Inbox) : AtHead env (.init env inbox) where
  justified := justified_nil env
  publickey := rfl
  hostbased := rfl
  none := rfl
  unknown := rfl
  within := id
  password := .inl rfl

theorem AtHead.write (h : AtHead env s) (he : e ≠ .success) (len : ℕ) :
    AtHead env (s.write env e len).2 :=
  { h with justified := h.justified.append fun hsuccess => absurd hsuccess he }

/-- The server returns, and not with the connection service when methods are configured. -/
theorem startSshUserauthServer_returns (env : ServerEnv) (inbox : Inbox) :
    ∃ result, startSshUserauthServer env inbox = some result ∧ Ends env result ∧
      (getRequiredUserauthMethods env.config ≠ {} →
        ∀ s', result ≠ .ok (serviceTypeConnection, s')) := by
  have hhead := (atHead_init env inbox).takeMessage
  have hkept : (init env inbox).takeMessage.2.required
      = getRequiredUserauthMethods env.config := rfl
  unfold startSshUserauthServer
  rcases htake : (init env inbox).takeMessage with ⟨payload, s⟩
  rw [htake] at hhead hkept
  cases payload with
  | none => exact ⟨_, rfl, ends_giveUp hhead.justified, fun _ => giveUp_ne⟩
  | some payload =>
    simp only
    cases readService payload with
    | error => exact ⟨_, rfl, hhead.justified, fun _ => nofun⟩
    | ok service =>
      cases service with
      | none => exact ⟨_, rfl, ends_giveUp hhead.justified, fun _ => giveUp_ne⟩
      | some service =>
        simp only
        cases service.compareC userauthName with
        | error => exact ⟨_, rfl, hhead.justified, fun _ => nofun⟩
        | ok same =>
          cases same with
          | false => exact ⟨_, rfl, ends_giveUp hhead.justified, fun _ => giveUp_ne⟩
          | true =>
            have hwrite := hhead.write (e := .serviceAccept) (by simp) (5 + userauthName.length)
            simp only
            split
            · exact ⟨_, rfl, ends_giveUp hwrite.justified, fun _ => giveUp_ne⟩
            · exact loop_ends hwrite fun hr => hkept ▸ hr

/-- Success is sent, and the connection service entered, only for a client that has passed every
configured method for the username of its last request. -/
theorem startSshUserauthServer_ends (env : ServerEnv) (inbox : Inbox) :
    ∃ result, startSshUserauthServer env inbox = some result ∧ Ends env result := by
  obtain ⟨result, hstart, hends, -⟩ := startSshUserauthServer_returns env inbox
  exact ⟨result, hstart, hends⟩

end Passes

end Osns
