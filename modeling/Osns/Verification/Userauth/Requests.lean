import Osns.Model.Userauth.Server
import Osns.Verification.Message.Keys

/-! What becomes of a client's signed requests at a server of the same code. -/

namespace Osns

open List Result

/-! ## Signed requests -/

/-- The methods with a signature. The method hostbased names the host and the user of the client. -/
inductive SignedMethod
  | publickey
  | hostbased (hostname clientUser : Bytes)

/-- A request, and what the private key makes of a text. -/
structure SignedRequest where
  sessionId : Bytes
  username : Bytes
  service : Bytes
  pkey : PublicKey
  sign : Bytes → Bytes
  method : SignedMethod

namespace SignedRequest

variable (r : SignedRequest)

def signedText : Bytes :=
  match r.method with
  | .publickey => msgWritePkSignature r.sessionId r.username r.service r.pkey (some none)
  | .hostbased hostname clientUser =>
    msgWriteHbSignature r.sessionId r.username r.service r.pkey hostname clientUser

def signature : Bytes := r.sign r.signedText

/-- The messages that the client sends. With the method publickey the first one has no signature. -/
def messages : List Bytes :=
  match r.method with
  | .publickey =>
    [msgWriteUserauthPubkeyMessage r.username r.service r.pkey none,
      msgWriteUserauthPubkeyMessage r.username r.service r.pkey (some (some r.signature))]
  | .hostbased hostname clientUser =>
    [msgWriteUserauthHostbasedMessage r.username r.service r.pkey hostname clientUser
      (some (some r.signature))]

end SignedRequest

/-- A request whose messages have a length that a payload can have. -/
structure SentRequest extends SignedRequest where
  fits : ∀ message ∈ toSignedRequest.messages, message.length < 2 ^ 32

/-- One of the messages leads to a successful verification of the signature for the signed text.
The rest of the messages may already wait in the queue of the server. -/
def SentRequest.Accepted (r : SentRequest) (env : ServerEnv) (s : ServerState) : Prop :=
  ∃ payload : Payload, payload.buffer ∈ r.messages ∧ ∃ s₁ data s₂ signature seen,
    readAuthRequest s payload = .ok (some (s₁, data)) ∧
    respondMethod env s₁ data = .ok (some (0, s₂)) ∧
    signature.Holds r.signature ∧ s₂.trace = s₁.trace ++ seen ∧
    .verify r.pkey r.signedText signature ∈ seen

/-! ## Algorithms and keys -/

theorem getPkalgo_blob (algo : Pkalgo) (tail : Bytes) :
    getPkalgo (msgWritePkalgo algo ++ tail) = none := by
  have hzero : (msgWritePkalgo algo ++ tail).head? = some 0 := by cases algo <;> rfl
  have hnames : ∀ algo : Pkalgo, algo.name.head? ≠ some 0 := by
    intro algo
    cases algo <;> decide
  rw [getPkalgo, find?_eq_none]
  intro algo _ heq
  apply hnames algo
  rw [of_decide_eq_true heq, hzero]

section Keys

variable {mb : MsgReader} {pkey : PublicKey} {tail : Bytes}

/-- The server expects the name of the algorithm where the writers have put the length of the whole
key. -/
theorem msgReadPkeySsh_sshString (lib : MsgLib) (algo : Pkalgo)
    (h : mb.At (msgWritePkey pkey .sshString ++ tail)) :
    ∃ mb', msgReadPkeySsh lib mb algo = .ok (none, mb') ∧ mb'.error.isSome := by
  obtain ⟨name, mb', hread, hname, -⟩ := h.msgReadSshString .init
  have hfound : getPkalgoString name = .ok none := by
    rw [getPkalgoString_of_holds hname, getPkalgo_blob]
  refine ⟨{ mb' with error := some .einval }, ?_, rfl⟩
  rw [msgReadPkeySsh, h.error, if_neg (by simp), hread]
  simp only [ok_bind, hfound, hname.bytes]
  rw [if_neg (by simp)]
  split <;> rfl

theorem msgReadPksignature_of_error (h : mb.error.isSome) :
    msgReadPksignature mb = .ok (none, .init, mb) := by
  rw [msgReadPksignature, MsgReader.msgReadSshString_of_error h]
  rfl

theorem readPubkeyOffer_eq_none (env : ServerEnv) {flag : UInt8} {data : Bytes}
    (hdata : data = [flag] ++ (msgWritePkalgo pkey.algo ++ (msgWritePkey pkey .sshString ++ tail)))
    (hfits : data.length < 2 ^ 32) :
    readPubkeyOffer env { len := data.length, ptr := some data } = .ok none := by
  have hstart := MsgReader.at_setMsgBufferString data hfits
  nth_rewrite 3 [hdata] at hstart
  obtain ⟨mb₁, hread₁, hat₁⟩ := hstart.msgReadByte
  obtain ⟨algo, mb₂, hread₂, halgo, hat₂⟩ := hat₁.msgReadSshString .init
  obtain ⟨mb₃, hread₃, herror⟩ := msgReadPkeySsh_sshString env.lib pkey.algo hat₂
  rw [readPubkeyOffer, hread₁]
  simp only [ok_bind]
  split
  · rfl
  · rw [hread₂]
    simp only [ok_bind, getPkalgoString_of_holds halgo, getPkalgo_name, hread₃, herror]
    split <;> rfl

theorem readHostbasedRequest_eq_none (env : ServerEnv) {data : Bytes}
    (hdata : data = msgWritePkalgo pkey.algo ++ (msgWritePkey pkey .sshString ++ tail))
    (hfits : data.length < 2 ^ 32) :
    readHostbasedRequest env { len := data.length, ptr := some data } = .ok none := by
  have hstart := MsgReader.at_setMsgBufferString data hfits
  nth_rewrite 3 [hdata] at hstart
  obtain ⟨algo, mb₁, hread₁, halgo, hat₁⟩ := hstart.msgReadSshString .init
  obtain ⟨mb₂, hread₂, herror⟩ := msgReadPkeySsh_sshString env.lib pkey.algo hat₁
  rw [readHostbasedRequest, hread₁]
  simp only [ok_bind, getPkalgoString_of_holds halgo, getPkalgo_name, hread₂,
    MsgReader.msgReadSshString_of_error herror, msgReadPksignature_of_error herror]
  split <;> rfl

end Keys

/-! ## The answers -/

section Answers

variable (env : ServerEnv) (s : ServerState)

theorem readAuthRequest_userauthRequest {payload : Payload} {user name method data : Bytes}
    (hbuffer : payload.buffer = userauthRequest user name method ++ data)
    (hfits : payload.buffer.length < 2 ^ 32) :
    ∃ username service chosen,
      readAuthRequest s payload = .ok (some ({ s with username, service, method := chosen },
        { len := data.length, ptr := some data })) ∧
      username.Holds user ∧ service.Holds name ∧ chosen.Holds method := by
  have hstart : (MsgReader.setMsgBufferPayload payload).At payload.buffer :=
    ⟨drop_zero, (Nat.zero_add _).symm, hfits, rfl⟩
  simp only [hbuffer, userauthRequest, append_assoc] at hstart
  obtain ⟨mb₁, hread₁, hat₁⟩ := hstart.msgReadByte
  obtain ⟨username, mb₂, hread₂, husername, hat₂⟩ := hat₁.msgReadSshString s.username
  obtain ⟨service, mb₃, hread₃, hservice, hat₃⟩ := hat₂.msgReadSshString s.service
  obtain ⟨chosen, mb₄, hread₄, hchosen, hat₄⟩ := hat₃.msgReadSshString s.method
  refine ⟨username, service, chosen, ?_, husername, hservice, hchosen⟩
  rw [readAuthRequest, hread₁]
  simp only [ok_bind, hread₂, hread₃, hread₄, hat₄.error, hat₄.rest]
  rfl

variable {data : SshString}

theorem respondMethod_publickey (hmethod : s.method.Holds publickeyName)
    (hread : readPubkeyOffer env data = .ok none) :
    respondMethod env s data = .ok (some (-1, s)) := by
  simp only [respondMethod, hmethod.compareC, ServerState.orCrash, ok_bind]
  rw [if_neg (by decide), if_neg (by decide), if_pos (by decide), respondUserauthPublickeyRequest,
    hread]
  rfl

theorem respondMethod_hostbased (hmethod : s.method.Holds hostbasedName)
    (hread : readHostbasedRequest env data = .ok none) :
    respondMethod env s data = .ok (some (-1, s)) := by
  simp only [respondMethod, hmethod.compareC, ServerState.orCrash, ok_bind]
  rw [if_neg (by decide), if_neg (by decide), if_neg (by decide), if_pos (by decide),
    respondUserauthHostbasedRequest, hread]
  rfl

/-- The request is read with these names, and its method fails without a trace. -/
def Refuses (env : ServerEnv) (s : ServerState) (payload : Payload) (user name : Bytes) : Prop :=
  ∃ username service method data,
    readAuthRequest s payload = .ok (some ({ s with username, service, method }, data)) ∧
    username.Holds user ∧ service.Holds name ∧
    respondMethod env { s with username, service, method } data =
      .ok (some (-1, { s with username, service, method }))

variable {payload : Payload} {user name tail : Bytes} {pkey : PublicKey}

theorem refuses_of {method data : Bytes}
    (hbuffer : payload.buffer = userauthRequest user name method ++ data)
    (hfits : payload.buffer.length < 2 ^ 32)
    (hanswer : ∀ s : ServerState, s.method.Holds method → data.length < 2 ^ 32 →
      respondMethod env s { len := data.length, ptr := some data } = .ok (some (-1, s))) :
    Refuses env s payload user name := by
  obtain ⟨username, service, chosen, hread, husername, hservice, hchosen⟩ :=
    readAuthRequest_userauthRequest s hbuffer hfits
  rw [hbuffer, length_append] at hfits
  exact ⟨username, service, chosen, _, hread, husername, hservice, hanswer _ hchosen (by omega)⟩

theorem refuses_publickey {flag : UInt8}
    (hbuffer : payload.buffer = userauthRequest user name publickeyName ++
      ([flag] ++ (msgWritePkalgo pkey.algo ++ (msgWritePkey pkey .sshString ++ tail))))
    (hfits : payload.buffer.length < 2 ^ 32) : Refuses env s payload user name := by
  apply refuses_of env s hbuffer hfits
  intro s hmethod hdata
  exact respondMethod_publickey env s hmethod (readPubkeyOffer_eq_none env rfl hdata)

theorem SentRequest.refuses (r : SentRequest) (h : payload.buffer ∈ r.messages) :
    Refuses env s payload r.username r.service := by
  have hfits := r.fits _ h
  unfold SignedRequest.messages at h
  split at h
  · rcases mem_pair.mp h with hbuffer | hbuffer
    all_goals
      rw [msgWriteUserauthPubkeyMessage] at hbuffer
      simp only [append_assoc] at hbuffer
      exact refuses_publickey env s hbuffer hfits
  · have hbuffer := mem_singleton.mp h
    rw [msgWriteUserauthHostbasedMessage] at hbuffer
    simp only [append_assoc] at hbuffer
    refine refuses_of env s hbuffer hfits fun s hmethod hdata => ?_
    exact respondMethod_hostbased env s hmethod (readHostbasedRequest_eq_none env rfl hdata)

theorem SentRequest.not_accepted_of_refuses (r : SentRequest)
    (h : ∀ payload : Payload, payload.buffer ∈ r.messages →
      Refuses env s payload r.username r.service) : ¬ r.Accepted env s := by
  rintro ⟨payload, hmem, s₁, data, s₂, signature, seen, hread, hrespond, -, -, -⟩
  obtain ⟨username, service, method, data', hread', -, -, hrespond'⟩ := h payload hmem
  rw [hread', Except.ok.injEq, Option.some.injEq, Prod.mk.injEq] at hread
  obtain ⟨rfl, rfl⟩ := hread
  rw [hrespond'] at hrespond
  simp at hrespond

/-- No server accepts a signed request of this code, whatever its state. -/
theorem SentRequest.never_accepted (r : SentRequest) : ¬ r.Accepted env s := by
  apply r.not_accepted_of_refuses
  intro payload hmem
  exact r.refuses env s hmem

end Answers

/-! ## A key with its signature scheme -/

def plainEnv : ServerEnv where
  config := { password := false, publickey := true, hostkey := false }
  sessionId := [7]
  writes := fun _ => some 0
  checkUsernamePassword := fun _ _ => 0
  canSign := fun _ => true
  verify := fun _ text signature => signature.text.toOption = some text
  lib := plainLib

/-- A user with an elliptic curve key asks for the connection service. -/
def plainRequest : SentRequest where
  sessionId := [7]
  username := [117]
  service := connectionName
  pkey := { algo := .ed25519, param := .ecc [1, 2] }
  sign := id
  method := .publickey
  fits := by decide +kernel

def plainState : ServerState :=
  .init plainEnv
    { queue := plainRequest.messages.tail.map fun buffer =>
        { type := msgUserauthRequest, sequence := 1, buffer }
      arrivals := [] }

/-- The signature is good for the signed text and for no other, and yet the request fails. -/
theorem plainRequest_refused :
    (∀ signature : SshString, signature.Holds plainRequest.signature →
      ∀ text, plainEnv.verify plainRequest.pkey text signature ↔ text = plainRequest.signedText) ∧
    ¬ plainRequest.Accepted plainEnv plainState := by
  constructor
  · intro signature hsignature text
    simp only [plainEnv, hsignature.text, Except.toOption, decide_eq_true_eq, Option.some.injEq]
    exact eq_comm
  · apply SentRequest.not_accepted_of_refuses
    intro payload hmem
    exact plainRequest.refuses plainEnv plainState hmem

end Osns
