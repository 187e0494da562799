import Osns.Model.SshString

/-! The handlers of transport messages, after `ssh/receive/msg-transport.c` and
`ssh/extensions/extension.c`. -/

namespace Osns

/-- What a handler does with the signal of the setup, with its payload and with the connection. -/
inductive TransportEffect
  | lock | unlock | free | queue | disconnect | keyExchange
  /-- `payload->sequence` behind `free_payload`, which has set the pointer to null. -/
  | nullRead
  /-- A text is copied that is not there, and the handler does not go on. -/
  | crash
  deriving DecidableEq

/-- `SSH_TRANSPORT_TYPE_GREETER`, `SSH_TRANSPORT_TYPE_KEX` and the other values of the status. -/
inductive TransportType
  | greeter | kex | other

/-- What the handlers look at: flags of the session, of the setup and of the key exchange, the status
of the transport phase while it is the phase of the setup, and the result of a key exchange. -/
structure TransportSetup where
  server : Bool
  disconnect : Bool
  transport : Bool
  serviceConnection : Bool
  setupThread : Bool
  phase : Option TransportType
  kexinitS2C : Bool
  exchanged : Bool

/-! ## Extensions -/

inductive Extension
  | serverSigAlgs | delayCompression | noFlowControl | elevation | grSupport
  deriving DecidableEq

def Extension.name : Extension → Bytes
  | .serverSigAlgs => [115, 101, 114, 118, 101, 114, 45, 115, 105, 103, 45, 97, 108, 103, 115]
  | .delayCompression =>
    [100, 101, 108, 97, 121, 45, 99, 111, 109, 112, 114, 101, 115, 115, 105, 111, 110]
  | .noFlowControl => [110, 111, 45, 102, 108, 111, 119, 45, 99, 111, 110, 116, 114, 111, 108]
  | .elevation => [101, 108, 101, 118, 97, 116, 105, 111, 110]
  | .grSupport =>
    [103, 108, 111, 98, 97, 108, 95, 114, 101, 113, 117, 101, 115, 116, 58, 115, 117, 112, 112, 111,
      114, 116, 101, 100]

def availableExtensions : List Extension :=
  [.serverSigAlgs, .delayCompression, .noFlowControl, .elevation, .grSupport]

def findExtensionCode (name : SshString) : Except Fault (Option Extension) :=
  availableExtensions.findM? fun extension => name.compareC extension.name

/-- The names of the algorithms are copied. For the other extensions nothing is read: the configuration
has no bit for the compression. -/
def processExtension (data : SshString) : Option Extension → Except Fault Unit
  | some .serverSigAlgs => do
    let _ ← data.text
    return ()
  | _ => return ()

/-- The loop over the extensions, on what is left of the payload. -/
def processExtensions : ℕ → Bytes → Except Fault Unit
  | 0, _ => return ()
  | count + 1, rest => do
    let (n, name) := readSshString rest
    let (m, data) := readSshString (rest.drop n)
    let code ← findExtensionCode name
    processExtension data code
    processExtensions count ((rest.drop n).drop m)

/-- Without five bytes the count is read behind the payload, but no string is read then. -/
def processMsgExtInfo (payload : Bytes) : Except Fault Unit :=
  processExtensions (getUint32 (payload.drop 1)) (payload.drop 5)

/-! ## Handlers -/

variable (c : TransportSetup) (payload : Bytes)

/-- The signal is locked, and the payload freed when the connection is about to end. -/
def TransportSetup.locked (effects : List TransportEffect) : List TransportEffect :=
  .lock :: if c.disconnect then [.unlock, .free] else effects

/-- The description is copied when it seems to be in the payload. -/
def receiveMsgDisconnect : List TransportEffect :=
  let len := if 9 ≤ payload.length then getUint32 (payload.drop 5) else 0
  if 0 < len ∧ u32 (9 + len) ≤ payload.length ∧ Buffer.load payload 9 len = none then [.crash]
  else [.free, .disconnect]

def receiveMsgIgnore : List TransportEffect := [.free, .nullRead]

/-- The signal that is used here is that of the receiver. -/
def receiveMsgUnimplemented : List TransportEffect :=
  if 5 ≤ payload.length then [.free] else [.free, .disconnect]

/-- Of the text at most 64 bytes are copied, from behind the payload too. -/
def receiveMsgDebug : List TransportEffect :=
  if 6 < payload.length then [.free] else [.free, .disconnect]

def receiveMsgServiceRequest : List TransportEffect :=
  if c.server then c.locked (if c.transport then [.unlock, .queue] else []) else [.free, .disconnect]

def receiveMsgServiceAccept : List TransportEffect :=
  c.locked (if c.transport then [.unlock, .queue] else [.free, .disconnect])

def receiveMsgExtInfo : List TransportEffect :=
  .lock :: if c.disconnect then [.free, .unlock]
    else match processMsgExtInfo payload with
      | .ok _ => [.unlock, .free]
      | .error _ => [.unlock, .crash]

def receiveMsgKexinit : List TransportEffect :=
  c.locked <| match c.phase with
    | some .greeter => [.unlock, .queue]
    | some .kex => if c.kexinitS2C then [.unlock, .free, .disconnect] else [.unlock, .queue]
    | some .other => [.free]
    | none =>
      if c.transport then
        if c.setupThread then [.unlock, .queue]
        else [.unlock, .queue, .keyExchange] ++ if c.exchanged then [] else [.disconnect]
      else [.free]

/-- The handler of `SSH_MSG_NEWKEYS` and of `SSH_MSG_KEXDH_REPLY`. -/
def receiveMsgQueueShared : List TransportEffect :=
  c.locked <| match c.phase with
    | some .kex => [.unlock, .queue]
    | some _ => [.unlock, .free, .disconnect]
    | none => [.free, .disconnect]

def receiveMsgGlobalRequest : List TransportEffect :=
  c.locked (if c.serviceConnection then [.unlock, .queue] else [.free])

/-- The handler of `SSH_MSG_REQUEST_SUCCESS` and of `SSH_MSG_REQUEST_FAILURE`. -/
def receiveMsgRequestCommon : List TransportEffect :=
  c.locked (if c.serviceConnection then [.unlock, .queue] else [.free, .disconnect])

/-- The callbacks of `register_transport_cb`, by the type of the message. -/
def transportCb : ℕ → Option (List TransportEffect)
  | 1 => some (receiveMsgDisconnect payload)
  | 2 => some receiveMsgIgnore
  | 3 => some (receiveMsgUnimplemented payload)
  | 4 => some (receiveMsgDebug payload)
  | 5 => some (receiveMsgServiceRequest c)
  | 6 => some (receiveMsgServiceAccept c)
  | 7 => some (receiveMsgExtInfo c payload)
  | 20 => some (receiveMsgKexinit c)
  | 21 | 31 => some (receiveMsgQueueShared c)
  | 80 => some (receiveMsgGlobalRequest c)
  | 81 | 82 => some (receiveMsgRequestCommon c)
  | _ => none

end Osns
