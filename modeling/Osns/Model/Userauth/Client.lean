import Osns.Library.Loop
import Osns.Model.Userauth.Message

/-! The client side of user authentication, after `start_ssh_userauth_client` and the senders in
`userauth`. -/

namespace Osns

/-- A public key identity of the local user or host: the remote user it is for, its public key and
what its private key signs, as far as they can be read. -/
structure Identity where
  user : Option Bytes
  pkey : Option PublicKey
  sign : Option (Bytes → Option Bytes)

structure Pword where
  user : Bytes
  pw : Bytes

/-- What a run depends on besides the messages of the server. `sends` has the results of
`write_ssh_packet` in turn, and `credentials` what `~/.auth/cred` has. -/
structure ClientEnv where
  serviceAccepted : Bool
  peerKnown : Bool
  sends : ℕ → ℤ
  pwName : Bytes
  hostname : Bytes
  sessionId : Bytes
  userKeysFound : Bool
  userKeys : List Identity
  hostKeysFound : Bool
  hostKeys : List Identity
  credentials : Option Pword

inductive Request
  | none (user : Bytes)
  | password (user pw : Bytes)
  | publickey (user : Bytes) (pkey : PublicKey) (signature : Option Bytes)
  | hostbased (user : Bytes) (pkey : PublicKey) (hostname clientUser signature : Bytes)

/-- A request that has been written, the number of those that have been made before it, and the message
that has been received for it. -/
structure Exchanged where
  number : ℕ
  request : Request
  reply : Option Payload

/-- `struct ssh_auth_s` with the queue, the number of requests so far and their history. -/
structure ClientState where
  required : AuthMethods
  done : AuthMethods
  sUsername : Bytes
  inbox : Inbox
  sent : ℕ
  history : List Exchanged
  userIdentity : Option Identity
  remoteUser : Option Bytes

/-- `init_ssh_auth`. -/
def ClientState.init (inbox : Inbox) : ClientState where
  required := {}
  done := {}
  sUsername := []
  inbox
  sent := 0
  history := []
  userIdentity := none
  remoteUser := none

/-! ## One request -/

def selectUserauthReply (payload : Payload) : Bool :=
  payload.type = msgUserauthSuccess ∨ payload.type = msgUserauthFailure

inductive Outcome
  | unsent
  | silent
  | reply (payload : Payload)

variable (env : ClientEnv) (s : ClientState)

/-- Sending a request and waiting for a reply with `receive_message_common`; `accepted` is the
caller's test of the result of sending, which may be wrong about a request that has been written. -/
def ClientState.exchange (request : Request) (accepted : ℤ → Bool) (select : Payload → Bool) :
    Outcome × ClientState :=
  if accepted (env.sends s.sent) then
    let (reply, inbox) := s.inbox.getSshPayload select
    let s := { s with
      inbox, sent := s.sent + 1, history := s.history ++ [{ number := s.sent, request, reply }] }
    match reply with
    | some payload => (.reply payload, s)
    | none => (.silent, s)
  else
    let written := if 0 < env.sends s.sent then [{ number := s.sent, request, reply := none }] else []
    (.unsent, { s with sent := s.sent + 1, history := s.history ++ written })

/-- What the senders do with a reply; `result` is their result so far. -/
def ClientState.handleReply (payload : Payload) (result : Bool) : Bool × ClientState :=
  if payload.type = msgUserauthSuccess then (true, { s with required := {} })
  else if payload.type = msgUserauthFailure then
    let (result, required) := handleAuthFailure payload s.required
    (result, { s with required })
  else (result, s)

/-! ## The methods -/

/-- Success leaves the mask as it is, and a failure is overridden. -/
def sendUserauthNoneRequest : Bool × ClientState :=
  match s.exchange env (.none env.pwName) (0 < ·) selectUserauthReply with
  | (.unsent, s) | (.silent, s) => (false, s)
  | (.reply payload, s) =>
    if payload.type = msgUserauthSuccess then (true, s)
    else if payload.type = msgUserauthFailure then
      (true, { s with required := (handleAuthFailure payload s.required).2 })
    else (false, s)

/-- There is one file with credentials. -/
def readPrivatePwlist : List Pword := env.credentials.toList

/-- The loop over the credentials goes on after success. -/
def sendUserauthPasswordRequest (env : ClientEnv) :
    List Pword → Bool → ClientState → Bool × ClientState
  | [], result, s => (result, s)
  | pword :: pwlist, result, s =>
    match s.exchange env (.password pword.user pword.pw) (0 < ·) selectUserauthReply with
    | (.unsent, s) => sendUserauthPasswordRequest env pwlist result s
    | (.silent, s) => (result, s)
    | (.reply payload, s) =>
      let (result, s) := s.handleReply payload result
      sendUserauthPasswordRequest env pwlist result s

/-- The request is signed with a pointer to a signature that is still empty. -/
def sshSendPkSignature (user : Bytes) (pkey : PublicKey) (sign : Bytes → Option Bytes)
    (s : ClientState) : Bool × ClientState :=
  match sign (msgWritePkSignature env.sessionId user connectionName pkey (some none)) with
  | none => (false, s)
  | some signature =>
    match s.exchange env (.publickey user pkey (some signature)) (0 < ·) selectUserauthReply with
    | (.unsent, s) | (.silent, s) => (false, s)
    | (.reply payload, s) => s.handleReply payload false

def sendUserauthPubkey (user : Bytes) (pkey : PublicKey) (s : ClientState) : Bool × ClientState :=
  match s.exchange env (.publickey user pkey none) (0 < ·) selectUserauthPubkeyReply with
  | (.unsent, s) | (.silent, s) => (false, s)
  | (.reply payload, s) =>
    if payload.type = msgUserauthPkOk then
      (payload.buffer = writeUserauthPubkeyOkMessage pkey, s)
    else (false, s)

/-- One identity: first the key alone, then with a signature. -/
def tryUserIdentity (identity : Identity) (s : ClientState) : Bool × ClientState :=
  match identity.pkey with
  | none => (false, s)
  | some pkey =>
    let user := identity.user.getD env.pwName
    match sendUserauthPubkey env user pkey s with
    | (false, s) => (false, s)
    | (true, s) =>
      match identity.sign with
      | none => (false, s)
      | some sign => sshSendPkSignature env user pkey sign s

/-- The test of the result of sending is for zero here. -/
def sshSendHbSignature (pkey : PublicKey) (sign : Bytes → Option Bytes) (s : ClientState) :
    Bool × ClientState :=
  match sign (msgWriteHbSignature env.sessionId s.sUsername connectionName pkey env.hostname
      env.pwName) with
  | none => (false, s)
  | some signature =>
    match s.exchange env (.hostbased s.sUsername pkey env.hostname env.pwName signature) (· = 0)
        selectUserauthReply with
    | (.unsent, s) | (.silent, s) => (false, s)
    | (.reply payload, s) => s.handleReply payload false

def tryHostIdentity (identity : Identity) (s : ClientState) : Bool × ClientState :=
  match identity.pkey, identity.sign with
  | some pkey, some sign => sshSendHbSignature env pkey sign s
  | _, _ => (false, s)

/-- The loops of `send_userauth_pubkey_request` and `send_userauth_hostbased_request`: the first
identity that is accepted. -/
def firstIdentity (attempt : Identity → ClientState → Bool × ClientState) :
    List Identity → ClientState → Option Identity × ClientState
  | [], s => (none, s)
  | identity :: identities, s =>
    match attempt identity s with
    | (true, s) => (some identity, s)
    | (false, s) => firstIdentity attempt identities s

def sendUserauthPubkeyRequest : Option Identity × ClientState :=
  firstIdentity (tryUserIdentity env) env.userKeys s

def sendUserauthHostbasedRequest : Option Identity × ClientState :=
  firstIdentity (tryHostIdentity env) env.hostKeys s

/-! ## The main loop -/

/-- `ssh_auth_method_supported`. -/
def AuthMethods.supported (methods : AuthMethods) : Bool := !methods.unknown

/-- The end of one pass at the label `tryuserauth`. -/
def ClientState.again : Loop.Step ClientState ClientState :=
  if s.required = {} then .done s
  else if s.required.supported then .next s
  else .done s

/-- One pass from the label `tryuserauth` on; `done` is a jump to `finish`. -/
def tryUserauth : Loop.Step ClientState ClientState :=
  if s.required.publickey then
    if s.done.publickey then .done s
    else if env.userKeysFound then
      match sendUserauthPubkeyRequest env s with
      | (none, s) => .done s
      | (some identity, s) =>
        { s with
          userIdentity := some identity
          sUsername := if s.sUsername = [] then identity.user.getD env.pwName else s.sUsername
          done.publickey := true }.again
    else .done s
  else if s.required.password then
    if s.done.password then .done s
    else if (readPrivatePwlist env).length = 0 then .done s
    else
      match sendUserauthPasswordRequest env (readPrivatePwlist env) false s with
      | (false, s) => .done s
      | (true, s) => { s with done.password := true }.again
  else if s.required.hostbased then
    if s.done.hostbased then .done s
    else if env.hostKeysFound then
      match sendUserauthHostbasedRequest env s with
      | (none, s) => .done s
      | (some _, s) => { s with done.hostbased := true }.again
    else .done s
  else s.again

/-- The label `finish`: the remote user is stored, and the result depends on the mask. -/
def ClientState.finish : ℤ × ClientState :=
  if s.required = {} then
    let name := if s.sUsername = [] then (s.userIdentity.bind Identity.user).getD [] else s.sUsername
    (0, { s with sUsername := name, remoteUser := some name })
  else (-1, s)

/-- Every pass but the last marks a method as done, so four passes are enough. -/
def startSshUserauthClient (inbox : Inbox) : Option (ℤ × ClientState) :=
  if env.serviceAccepted then
    match sendUserauthNoneRequest env (.init inbox) with
    | (false, s) => some (-1, s)
    | (true, s) =>
      if s.required = {} ∨ s.required.supported = false ∨ env.peerKnown = false then
        some s.finish
      else (Loop.run (tryUserauth env) 4 s).map ClientState.finish
  else some (-1, .init inbox)

end Osns
