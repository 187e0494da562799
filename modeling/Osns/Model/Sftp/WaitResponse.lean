import Osns.Model.Sftp.Receive

/-! Threads that wait for their replies in `wait_sftp_response`, and the threads that receive them.
What is done under one lock is one step, and so is every access to a request outside of a lock. -/

namespace Osns

/-! ## The waiting thread -/

/-- The field `error` of a reply; `other` is what waiting for the condition may give besides. -/
inductive WaitError
  | eintr
  | enotconn
  | eio
  | econnaborted
  | etimedout
  | other (errno : ℕ)
  deriving DecidableEq, Repr

/-- The ways out of `wait_sftp_response` on which the request is still to be removed. -/
inductive GiveUp
  | interrupted
  | broken
  | sequence
  | disconnected
  /-- Waiting for the condition has ended with an error. -/
  | expired (error : WaitError)
  deriving DecidableEq, Repr

inductive WaitPc
  | idle
  /-- The bytes have been sent. -/
  | sent
  /-- At `startcheckwait`. -/
  | checking
  /-- In `signal_condtimedwait`. -/
  | waiting
  /-- In front of `remove_request_hashtable`. -/
  | leaving (why : GiveUp)
  | returned (result : Bool)
  deriving DecidableEq, Repr

/-- A thread with its request: where it is, and the bits of the status and the error that only this
thread writes. -/
structure Requester where
  pc : WaitPc
  interrupt : Bool
  timedout : Bool
  disconnect : Bool
  error : Option WaitError
  deriving DecidableEq, Repr

/-- What the thread finds besides the status: `cb_interrupted`, `break_request`, a signal for the
sequence number of its request, and the flag for a disconnect. -/
structure Observed where
  interrupted : Bool
  broken : Bool
  sequence : Bool
  disconnected : Bool
  deriving DecidableEq, Repr

section Waiting

variable {κ : Type}

/-- From `startcheckwait` to the next wait or to the end. -/
def waitCheck (q : Requester) (r : SftpRequest κ) (o : Observed) : Requester × SftpRequest κ :=
  if r.status.finish then ({ q with pc := .returned true }, r)
  else if o.interrupted then
    if r.status.response then ({ q with pc := .waiting, interrupt := false }, r)
    else ({ q with pc := .leaving .interrupted, interrupt := true, error := some .eintr }, r)
  else if o.broken then
    ({ q with pc := .leaving .broken, disconnect := true, error := some .enotconn }, r)
  else if r.status.error then ({ q with pc := .returned false }, r)
  else if o.sequence then
    ({ q with pc := .leaving .sequence, error := some .eio }, { r with status.error := true })
  else if o.disconnected then
    ({ q with pc := .leaving .disconnected, disconnect := true, error := some .econnaborted }, r)
  else ({ q with pc := .waiting }, r)

/-- Behind `remove_request_hashtable`, where only an expired wait sets the status and the error. -/
def waitRemoved (q : Requester) (r : SftpRequest κ) (why : GiveUp) : Requester × SftpRequest κ :=
  match why with
  | .expired error =>
    if error = .etimedout then
      ({ q with pc := .returned false, timedout := true, error := some error }, r)
    else ({ q with pc := .returned false, error := some error }, { r with status.error := true })
  | _ => ({ q with pc := .returned false }, r)

end Waiting

/-! ## The receiving thread -/

/-- A message whose fields have been read: a reply of the session, or the version. -/
inductive SftpMessage
  | reply (version : SftpVersion) (header : SftpHeader)
  | version (len : ℕ) (moved : Bytes)

namespace SftpMessage

def id : SftpMessage → ℕ
  | .reply _ header => header.id
  | .version .. => initId

/-- No request is looked up for `SSH_FXP_EXTENDED`. -/
def ignored : SftpMessage → Bool
  | .reply _ header => replyType header.type = .extended
  | .version .. => false

def read : SftpMessage → SftpReply → Except Fault SftpRead
  | .reply v header, r => readReply v header r
  | .version len moved, r =>
    .ok {
      reply := { r with type := fxpVersion, size := len, data := some moved }
      received := true
      reads := [⟨0, 4⟩, ⟨4, 1⟩, ⟨5, len⟩] }

end SftpMessage

/-- What a receiving thread has done for the request that it has looked up: nothing, set the status,
or filled the reply. -/
inductive Work
  | found (m : SftpMessage)
  | marked (m : SftpMessage)
  | filled (received : Bool)

/-! ## Steps -/

/-- The requests and the table, the threads that wait for a reply, and the threads that receive, each
with the request it works for. -/
structure WaitState (κ ρ τ : Type) where
  sftp : SftpState κ ρ
  requester : ρ → Requester
  receiver : τ → Option (ρ × Work)

/-- The thread of a request takes the next step, or a receiving thread does. A wait may end at any
time, as that for a condition. -/
inductive WaitAction (κ ρ τ : Type)
  | send (p : ρ) (client : κ) (id : ℕ)
  | add (p : ρ)
  | check (p : ρ) (o : Observed)
  | wake (p : ρ)
  | expire (p : ρ) (error : WaitError)
  | remove (p : ρ)
  | receive (t : τ) (client : κ) (m : SftpMessage)
  | mark (t : τ)
  | fill (t : τ)
  | signal (t : τ)

namespace WaitState

variable {κ ρ τ : Type} [DecidableEq ρ] [DecidableEq τ] (s : WaitState κ ρ τ)

def setRequester (p : ρ) (q : Requester) : WaitState κ ρ τ :=
  { s with requester := Function.update s.requester p q }

/-- The thread of a request goes on. -/
def go (p : ρ) (pc : WaitPc) : WaitState κ ρ τ := s.setRequester p { s.requester p with pc }

/-- The thread of a request goes on and has changed the request. -/
def update (p : ρ) (result : Requester × SftpRequest κ) : WaitState κ ρ τ :=
  { s.setRequester p result.1 with sftp := s.sftp.setRequest p result.2 }

def work (s : WaitState κ ρ τ) (t : τ) (work : Option (ρ × Work)) (sftp : SftpState κ ρ) :
    WaitState κ ρ τ :=
  { s with sftp, receiver := Function.update s.receiver t work }

/-- `get_sftp_request` up to the status. The version is signalled through a null pointer when there
is no request for it. -/
def receive (t : τ) (client : κ) (m : SftpMessage) : Option (WaitState κ ρ τ) :=
  if (s.receiver t).isSome then none
  else if m.ignored then some s
  else
    match s.sftp.lookupRequestHashtable client m.id, m with
    | (some p, sftp), m => some (s.work t (some (p, .found m)) sftp)
    | (none, _), .reply .. => some s
    | (none, _), .version .. => none

def mark (t : τ) : Option (WaitState κ ρ τ) :=
  match s.receiver t with
  | some (p, .found m) =>
    let r := s.sftp.request p
    some (s.work t (some (p, .marked m))
      (s.sftp.setRequest p { r with status.waiting := false, status.response := true }))
  | _ => none

def fill (t : τ) : Option (WaitState κ ρ τ) :=
  match s.receiver t with
  | some (p, .marked m) =>
    let r := s.sftp.request p
    match m.read r.reply with
    | .ok read =>
      some (s.work t (some (p, .filled read.received))
        (s.sftp.setRequest p { r with reply := read.reply }))
    | .error _ => none
  | _ => none

def signal (t : τ) : Option (WaitState κ ρ τ) :=
  match s.receiver t with
  | some (p, .filled received) =>
    some (s.work t none (if received then s.sftp.signalSftpReceivedId p
      else s.sftp.signalSftpReceivedIdError p))
  | _ => none

end WaitState

/-- A request is used for one call. There is no next state after undefined behaviour. -/
def waitStep {κ ρ τ : Type} [DecidableEq ρ] [DecidableEq τ] (s : WaitState κ ρ τ) :
    WaitAction κ ρ τ → Option (WaitState κ ρ τ)
  | .send p client id =>
    if (s.requester p).pc = .idle then
      some (s.update p (⟨.sent, false, false, false, none⟩, initSftpRequest client id))
    else none
  | .add p =>
    if (s.requester p).pc = .sent then
      some { s.go p .checking with sftp := s.sftp.addRequestHashtable p }
    else none
  | .check p o =>
    if (s.requester p).pc = .checking then
      some (s.update p (waitCheck (s.requester p) (s.sftp.request p) o))
    else none
  | .wake p => if (s.requester p).pc = .waiting then some (s.go p .checking) else none
  | .expire p error =>
    if (s.requester p).pc = .waiting then some (s.go p (.leaving (.expired error))) else none
  | .remove p =>
    match (s.requester p).pc with
    | .leaving why =>
      some ({ s with sftp := s.sftp.removeRequestHashtable p }.update p
        (waitRemoved (s.requester p) (s.sftp.request p) why))
    | _ => none
  | .receive t client m => s.receive t client m
  | .mark t => s.mark t
  | .fill t => s.fill t
  | .signal t => s.signal t

end Osns
