import Osns.Library.Loop
import Osns.Library.Separated
import Osns.Model.Userauth.Message

/-! The server side of user authentication, after `start_ssh_userauth_server` and the responders in
`userauth`. -/

namespace Osns

/-- The bits `SSH_CONFIG_AUTH` of a session. -/
structure AuthConfig where
  password : Bool
  publickey : Bool
  hostkey : Bool

/-- The mask starts at zero. -/
def getRequiredUserauthMethods (config : AuthConfig) : AuthMethods where
  password := config.password
  publickey := config.publickey
  hostbased := config.hostkey

/-- What a run depends on besides the messages of the client. `writes` has the results of
`write_ssh_packet` in turn: an error, or how many bytes go along with the payload and its
five bytes of header. -/
structure ServerEnv where
  config : AuthConfig
  sessionId : Bytes
  writes : ℕ → Option ℕ
  checkUsernamePassword : SshString → Option SshString → ℤ
  canSign : Bytes → Bool
  verify : PublicKey → Bytes → SshString → Bool
  lib : MsgLib

inductive AuthMethod
  | password
  | publickey
  | hostbased
  deriving DecidableEq, Repr

/-- What can be seen of a run: requests that are taken, messages that are sent, signatures that are
verified and methods that are passed. -/
inductive ServerEvent
  | request (username : SshString)
  | serviceAccept
  | success
  | failure (methods : AuthMethods) (partialSuccess : Bool)
  | pkOk (pkey : PublicKey)
  | verify (pkey : PublicKey) (text : Bytes) (signature : SshString)
  | passed (method : AuthMethod) (username : SshString)
  | disconnect

/-- The mask, the queue, the strings that a request leaves to the next one, the number of packets
written and the events. -/
structure ServerState where
  required : AuthMethods
  inbox : Inbox
  username : SshString
  service : SshString
  method : SshString
  sent : ℕ
  trace : List ServerEvent

/-- A result, or the state in which undefined behaviour occurs. -/
abbrev ServerResult := Except ServerState (ℤ × ServerState)

def ServerState.emit (s : ServerState) (e : ServerEvent) : ServerState :=
  { s with trace := s.trace ++ [e] }

def ServerState.orCrash {α : Type} (s : ServerState) : Except Fault α → Except ServerState α
  | .ok a => .ok a
  | .error _ => .error s

variable (env : ServerEnv) (s : ServerState)

def ServerState.write (e : ServerEvent) (len : ℕ) : ℤ × ServerState :=
  let result : ℤ := (env.writes s.sent).elim (-1) fun extra => (len + 5 + extra : ℕ)
  (result, { s.emit e with sent := s.sent + 1 })

/-! ## Replies -/

def writeRequiredAuthMethods (methods : AuthMethods) : Bytes :=
  Separated.join comma
    ((if methods.publickey then [publickeyName] else []) ++
      (if methods.password then [passwordName] else []) ++
      if methods.hostbased then [hostbasedName] else [])

/-- A list without methods would be written to an array of length zero. -/
def sendUserauthRequestReply (methods : AuthMethods) (success : Bool) : ServerResult :=
  if success ∧ methods = {} then .ok (s.write env .success 1)
  else
    let namelist := writeRequiredAuthMethods methods
    if namelist = [] then .error s
    else .ok (s.write env (.failure methods success) (6 + namelist.length))

def respondUserauthRequest (success : Bool) : ServerResult :=
  sendUserauthRequestReply env s s.required success

/-! ## The methods -/

variable (data : SshString)

def readPassword : Except Fault (Option SshString) :=
  if 1 < data.len then do
    let buffer ← inBounds data.ptr
    let (n, password) ← readSshStringSized (buffer.drop 1) (data.len - 1)
    return if 4 < n then some password else none
  else return none

def respondUserauthPasswordRequest (username data : SshString) : ServerResult :=
  if s.required.password then
    if env.checkUsernamePassword username none = -1 then respondUserauthRequest env s false
    else do
      let password ← s.orCrash (readPassword data)
      match password with
      | none => respondUserauthRequest env s false
      | some password =>
        if env.checkUsernamePassword username (some password) = 0 then
          respondUserauthRequest env
            ({ s with required.password := false }.emit (.passed .password username)) true
        else respondUserauthRequest env s false
  else respondUserauthRequest env s true

/-- The key that a first publickey request offers, if it is acceptable. -/
def readPubkeyOffer : Except Fault (Option PublicKey) := do
  let mb := MsgReader.setMsgBufferString data
  let (boolean, mb) ← mb.msgReadByte
  if 0 < boolean.getD 0 then return none
  else
    let (algo, mb) ← mb.msgReadSshString .init
    match ← getPkalgoString algo with
    | none => return none
    | some pkalgo =>
      if env.canSign pkalgo.sshname then
        let (pkey, mb) ← msgReadPkeySsh env.lib mb pkalgo
        if mb.error.isSome then return none
        else
          -- Parameters that have not been read are null pointers for the writer.
          let pkey ← inBounds pkey
          return some pkey
      else return none

/-- The signature of a second publickey request. It is looked for where the algorithm stands. -/
def readPubkeySignature (pkalgo : Pkalgo) (username service : SshString) (payload : Payload) :
    Except Fault (Option SshString) := do
  let mb := MsgReader.setMsgBufferPayload payload
  let (_, mb) ← mb.msgReadByte
  let (username2, mb) ← mb.msgReadSshString .init
  let (service2, mb) ← mb.msgReadSshString .init
  let (method2, mb) ← mb.msgReadSshString .init
  if mb.error.isSome then return none
  else if !(← username2.compare username) then return none
  else if !(← service2.compare service) then return none
  else if !(← method2.compareC publickeyName) then return none
  else
    let (boolean, mb) ← mb.msgReadByte
    if boolean.getD 0 = 0 then return none
    else
      let (algo, signature, _) ← msgReadPksignature mb
      return if algo = some pkalgo then some signature else none

/-- A pointer to a string, as the writer of signatures takes it. -/
def SshString.signatureArg (s : SshString) : Except Fault (Option (Option Bytes)) :=
  match s.ptr with
  | none => return some none
  | some _ => do
    let bytes ← s.bytes
    return some (some bytes)

/-- The text is rebuilt with the received signature in it. -/
def verifyPkText (username service : SshString) (pkey : PublicKey) (signature : SshString) :
    Except Fault Bytes := do
  let user ← username.text
  let name ← service.text
  let arg ← signature.signatureArg
  return msgWritePkSignature env.sessionId user name pkey arg

/-- The result of a verification goes to the caller; there is no reply. -/
def ServerState.verified (method : AuthMethod) (username : SshString) (pkey : PublicKey)
    (text : Bytes) (signature : SshString) : ℤ × ServerState :=
  let s := s.emit (.verify pkey text signature)
  if env.verify pkey text signature then (0, s.emit (.passed method username)) else (-1, s)

/-- A second request with a signature for the offered key. -/
def respondPubkeySignature (username service : SshString) (pkey : PublicKey) (payload : Payload) :
    ServerResult := do
  if 5 ≤ payload.buffer.length ∧ payload.type = msgUserauthRequest then
    match ← s.orCrash (readPubkeySignature pkey.algo username service payload) with
    | none => return (-1, s)
    | some signature =>
      let text ← s.orCrash (verifyPkText env username service pkey signature)
      return s.verified env .publickey username pkey text signature
  else return (-1, s)

/-- The wait for the second request uses the function with which the client selects replies. -/
def awaitPubkeySignature (username service : SshString) (pkey : PublicKey) : ServerResult :=
  match s.inbox.getSshPayload selectUserauthPubkeyReply with
  | (none, inbox) => return (-1, { s with inbox })
  | (some payload, inbox) =>
    respondPubkeySignature env { s with inbox } username service pkey payload

def respondUserauthPublickeyRequest (username service data : SshString) : ServerResult := do
  match ← s.orCrash (readPubkeyOffer env data) with
  | none => return (-1, s)
  | some pkey =>
    let (result, s) := s.write env (.pkOk pkey) (writeUserauthPubkeyOkMessage pkey).length
    if 0 < result then awaitPubkeySignature env s username service pkey
    else return (-1, s)

/-- The fields of a hostbased request. -/
structure HostbasedData where
  pkey : PublicKey
  fqdn : SshString
  clientUser : SshString
  signature : SshString

def readHostbasedRequest : Except Fault (Option HostbasedData) := do
  let mb := MsgReader.setMsgBufferString data
  let (algo, mb) ← mb.msgReadSshString .init
  match ← getPkalgoString algo with
  | none => return none
  | some pkalgo =>
    if env.canSign pkalgo.sshname then
      let (pkey, mb) ← msgReadPkeySsh env.lib mb pkalgo
      let (fqdn, mb) ← mb.msgReadSshString .init
      let (clientUser, mb) ← mb.msgReadSshString .init
      let (found, signature, mb) ← msgReadPksignature mb
      if found ≠ some pkalgo then return none
      else if mb.error.isSome then return none
      else
        let pkey ← inBounds pkey
        return some { pkey, fqdn, clientUser, signature }
    else return none

def verifyHbText (username service : SshString) (request : HostbasedData) : Except Fault Bytes := do
  let user ← username.text
  let name ← service.text
  let fqdn ← request.fqdn.text
  let clientUser ← request.clientUser.text
  return msgWriteHbSignature env.sessionId user name request.pkey fqdn clientUser

def respondUserauthHostbasedRequest (username service data : SshString) : ServerResult := do
  match ← s.orCrash (readHostbasedRequest env data) with
  | none => return (-1, s)
  | some request =>
    let text ← s.orCrash (verifyHbText env username service request)
    return s.verified env .hostbased username request.pkey text request.signature

/-! ## The main loop -/

def userauthName : Bytes := ascii ['s', 's', 'h', '-', 'u', 's', 'e', 'r', 'a', 'u', 't', 'h']

/-- `SSH_SERVICE_TYPE_CONNECTION`. -/
def serviceTypeConnection : ℤ := 2

/-- The loop waits with this function as well, and not for `SSH_MSG_USERAUTH_REQUEST`. -/
def selectServiceRequestMessage (payload : Payload) : Bool := payload.type = msgServiceRequest

def ServerState.takeMessage : Option Payload × ServerState :=
  let (payload, inbox) := s.inbox.getSshPayload selectServiceRequestMessage
  (payload.filter fun payload => 5 ≤ payload.buffer.length, { s with inbox })

/-- The label `disconnect`. -/
def ServerState.giveUp : ℤ × ServerState := (-1, s.emit .disconnect)

/-- The fields of a request and the data of its method. A field that the message ends before keeps
the value of the previous request. -/
def readAuthRequest (payload : Payload) : Except Fault (Option (ServerState × SshString)) := do
  let mb := MsgReader.setMsgBufferPayload payload
  let (_, mb) ← mb.msgReadByte
  let (username, mb) ← mb.msgReadSshString s.username
  let (service, mb) ← mb.msgReadSshString s.service
  let (method, mb) ← mb.msgReadSshString s.method
  if mb.error.isSome then return none
  else return some ({ s with username, service, method }, mb.rest)

/-- The choice by the name of the method; none for a name that is not known. -/
def respondMethod : Except ServerState (Option (ℤ × ServerState)) := do
  if ← s.orCrash (s.method.compareC noneName) then
    return some (← respondUserauthRequest env s false)
  else if ← s.orCrash (s.method.compareC passwordName) then
    return some (← respondUserauthPasswordRequest env s s.username data)
  else if ← s.orCrash (s.method.compareC publickeyName) then
    return some (← respondUserauthPublickeyRequest env s s.username s.service data)
  else if ← s.orCrash (s.method.compareC hostbasedName) then
    return some (← respondUserauthHostbasedRequest env s s.username s.service data)
  else return none

/-- After the last method the service decides about the result. -/
def ServerState.conclude (result : ℤ) : ServerResult :=
  if result = 0 then do
    if ← s.orCrash (s.service.compareC connectionName) then return (serviceTypeConnection, s)
    else return (result, s)
  else return (result, s)

def answerRequest : Loop.Step ServerState ServerResult :=
  if env.checkUsernamePassword s.username none = -1 then
    .done (respondUserauthRequest env s false)
  else
    match respondMethod env s data with
    | .error s => .done (.error s)
    | .ok none => .done (.ok s.giveUp)
    | .ok (some (result, s)) => if s.required = {} then .done (s.conclude result) else .next s

/-- One pass from the label `untiluserauthfinished` on. -/
def untilUserauthFinished : Loop.Step ServerState ServerResult :=
  match s.takeMessage with
  | (none, s) => .done (.ok s.giveUp)
  | (some payload, s) =>
    match readAuthRequest s payload with
    | .error _ => .done (.error s)
    | .ok none => .done (.ok s.giveUp)
    | .ok (some (s, data)) => answerRequest env (s.emit (.request s.username)) data

/-- The service that a first message asks for, if it can be read. -/
def readService (payload : Payload) : Except Fault (Option SshString) := do
  let (n, service) ← readSshStringSized (payload.buffer.drop 1) (payload.buffer.length - 1)
  return if n < 5 then none else some service

def ServerState.init (inbox : Inbox) : ServerState where
  required := getRequiredUserauthMethods env.config
  inbox
  username := .init
  service := .init
  method := .init
  sent := 0
  trace := []

/-- Every pass takes a message, so their number bounds the number of passes. The reads through
`payload` before there is one are left out; their values are not used. -/
def startSshUserauthServer (inbox : Inbox) : Option ServerResult :=
  match (ServerState.init env inbox).takeMessage with
  | (none, s) => some (.ok s.giveUp)
  | (some payload, s) =>
    match readService payload with
    | .error _ => some (.error s)
    | .ok none => some (.ok s.giveUp)
    | .ok (some service) =>
      match service.compareC userauthName with
      | .error _ => some (.error s)
      | .ok false => some (.ok s.giveUp)
      | .ok true =>
        let (result, s) := s.write env .serviceAccept (5 + userauthName.length)
        if result = -1 then some (.ok s.giveUp)
        else Loop.run (untilUserauthFinished env) (s.inbox.size + 1) s

end Osns
