import Osns.Model.Compare
import Osns.Model.Pk

/-! The messages of user authentication, after `msg-userauth.c`, `userauth/utils.c`,
`userauth/pubkey.c` and `userauth/hostbased.c`, and waiting for them in `get_ssh_payload`. -/

namespace Osns

/-- The payload queue of a connection, and the messages that still arrive: one list for every
wait, with what the receiving thread queues until the wait ends. -/
structure Inbox where
  queue : List Payload
  arrivals : List (List Payload)

/-- The number of messages that can still be taken. -/
def Inbox.size (inbox : Inbox) : ℕ := inbox.queue.length + inbox.arrivals.flatten.length

/-- The queue at the end of the next wait. -/
def Inbox.arrive (inbox : Inbox) : Inbox where
  queue := inbox.queue ++ inbox.arrivals.head?.getD []
  arrivals := inbox.arrivals.tail

/-- The first message that the caller selects is taken from the queue; there is none when the
wait times out. -/
def Inbox.getSshPayload (inbox : Inbox) (select : Payload → Bool) : Option Payload × Inbox :=
  let inbox := inbox.arrive
  (inbox.queue.find? select, { inbox with queue := inbox.queue.eraseP select })

def msgServiceRequest : UInt8 := 5

def msgUserauthRequest : UInt8 := 50

def msgUserauthFailure : UInt8 := 51

def msgUserauthSuccess : UInt8 := 52

def msgUserauthPkOk : UInt8 := 60

/-- The bits `SSH_AUTH_METHOD`. -/
structure AuthMethods where
  none : Bool := false
  publickey : Bool := false
  password : Bool := false
  hostbased : Bool := false
  unknown : Bool := false
  deriving DecidableEq, Repr

/-- The bits that are set in one of two masks. -/
def AuthMethods.or (a b : AuthMethods) : AuthMethods where
  none := a.none || b.none
  publickey := a.publickey || b.publickey
  password := a.password || b.password
  hostbased := a.hostbased || b.hostbased
  unknown := a.unknown || b.unknown

def publickeyName : Bytes := ascii ['p', 'u', 'b', 'l', 'i', 'c', 'k', 'e', 'y']

def passwordName : Bytes := ascii ['p', 'a', 's', 's', 'w', 'o', 'r', 'd']

def hostbasedName : Bytes := ascii ['h', 'o', 's', 't', 'b', 'a', 's', 'e', 'd']

def noneName : Bytes := ascii ['n', 'o', 'n', 'e']

def connectionName : Bytes :=
  ascii ['s', 's', 'h', '-', 'c', 'o', 'n', 'n', 'e', 'c', 't', 'i', 'o', 'n']

/-! ## Failure messages -/

def authMethod (name : Bytes) : AuthMethods :=
  if name = publickeyName then { publickey := true }
  else if name = passwordName then { password := true }
  else if name = hostbasedName then { hostbased := true }
  else { unknown := true }

/-- The loop at the label `findmethod`, with the name up to the next comma. -/
def findMethods : Bytes → Bytes → AuthMethods
  | name, [] => authMethod name
  | name, b :: bs =>
    if b = comma then (authMethod name).or (findMethods [] bs) else findMethods (name ++ [b]) bs

def getRequiredAuthMethods (namelist : Bytes) : AuthMethods := findMethods [] (cString namelist)

/-- Whether a method has been passed, and the methods that can continue. A message of another
length is ignored. -/
def handleAuthFailure (payload : Payload) (required : AuthMethods) : Bool × AuthMethods :=
  let len := getUint32 (payload.buffer.drop 1)
  if 6 < payload.buffer.length ∧ 0 < len ∧ payload.buffer.length = u32 (6 + len) then
    (0 < payload.buffer.getD (5 + len) 0, getRequiredAuthMethods ((payload.buffer.drop 5).take len))
  else (false, required)

def selectUserauthPubkeyReply (payload : Payload) : Bool :=
  payload.type = msgUserauthPkOk ∨ payload.type = msgUserauthFailure

/-! ## Requests

What the writers put into buffers with room for it: their callers count the bytes in a first run
and add 64. -/

def userauthRequest (username service method : Bytes) : Bytes :=
  [msgUserauthRequest] ++ sshString username ++ sshString service ++ sshString method

/-- `signature` points to a string, which has no data yet when the request is signed. -/
def msgWriteUserauthPubkeyMessage (username service : Bytes) (pkey : PublicKey)
    (signature : Option (Option Bytes)) : Bytes :=
  userauthRequest username service publickeyName ++ [if signature.isSome then 1 else 0] ++
    msgWritePkalgo pkey.algo ++ msgWritePkey pkey .sshString ++
    msgWritePksignature pkey.algo signature

def writeUserauthPubkeyOkMessage (pkey : PublicKey) : Bytes :=
  [msgUserauthPkOk] ++ msgWritePkalgo pkey.algo ++ msgWritePkey pkey .sshString

def msgWriteUserauthHostbasedMessage (username service : Bytes) (pkey : PublicKey)
    (hostname clientUser : Bytes) (signature : Option (Option Bytes)) : Bytes :=
  userauthRequest username service hostbasedName ++ msgWritePkalgo pkey.algo ++
    msgWritePkey pkey .sshString ++ sshString hostname ++ sshString clientUser ++
    msgWritePksignature pkey.algo signature

def msgWriteUserauthPasswordMessage (user pw service : Bytes) : Bytes :=
  userauthRequest user service passwordName ++ [0] ++ sshString pw

/-! ## Signed texts -/

/-- The text that `create_pk_signature` signs and `verify_pk_signature` verifies. -/
def msgWritePkSignature (sessionId username service : Bytes) (pkey : PublicKey)
    (signature : Option (Option Bytes)) : Bytes :=
  sshString sessionId ++ msgWriteUserauthPubkeyMessage username service pkey signature

def msgWriteHbSignature (sessionId username service : Bytes) (pkey : PublicKey)
    (hostname clientUser : Bytes) : Bytes :=
  sshString sessionId ++
    msgWriteUserauthHostbasedMessage username service pkey hostname clientUser none

end Osns
