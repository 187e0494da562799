import Osns.Verification.Userauth.Requests
import Osns.Verification.Userauth.Server

/-! A client that passes every configured method is not admitted by the server. -/

namespace Osns

/-! ## Clients -/

/-- What a client has for one method. -/
inductive ClientRequest
  | password (pw : Bytes)
  | signed (r : SentRequest)

namespace ClientRequest

def method : ClientRequest → AuthMethod
  | .password _ => .password
  | .signed r =>
    match r.method with
    | .publickey => .publickey
    | .hostbased _ _ => .hostbased

/-- The messages of type `SSH_MSG_USERAUTH_REQUEST`. -/
def messages (username : Bytes) : ClientRequest → List Bytes
  | .password pw => [msgWriteUserauthPasswordMessage username pw connectionName]
  | .signed r => r.messages

/-- The password is right, or the signature is one of the session, the user and the service under
a key that the server accepts. -/
def Passes (env : ServerEnv) (username : Bytes) : ClientRequest → Prop
  | .password pw =>
    (msgWriteUserauthPasswordMessage username pw connectionName).length < 2 ^ 32 ∧
      ∀ user password : SshString, user.Holds username → password.Holds pw →
        env.checkUsernamePassword user (some password) = 0
  | .signed r =>
    r.sessionId = env.sessionId ∧ r.username = username ∧ r.service = connectionName ∧
      env.canSign r.pkey.algo.sshname ∧
      ∀ signature : SshString, signature.Holds r.signature →
        env.verify r.pkey r.signedText signature

end ClientRequest

def serviceRequest : Bytes := [msgServiceRequest] ++ sshString userauthName

def Inbox.messages (inbox : Inbox) : List Payload := inbox.queue ++ inbox.arrivals.flatten

/-- A client with a known username that passes every configured method once, in any order, at a
server whose packets are sent. Its messages arrive in their order, at any time. -/
structure PassingClient (env : ServerEnv) where
  username : Bytes
  requests : List ClientRequest
  inbox : Inbox
  some_request : requests ≠ []
  configured : ∀ method, method ∈ requests.map ClientRequest.method ↔ env.config.requires method
  once : (requests.map ClientRequest.method).Nodup
  known : ∀ user : SshString, user.Holds username → env.checkUsernamePassword user none ≠ -1
  passes : ∀ request ∈ requests, request.Passes env username
  writes : ∀ n, (env.writes n).isSome
  malloc : ∀ n, env.lib.malloc n
  arrives : inbox.messages.map Payload.buffer =
    serviceRequest :: requests.flatMap (ClientRequest.messages username)
  typed : ∀ payload ∈ inbox.messages, payload.buffer.head? = some payload.type

/-- The server takes all the messages and enters the connection service. -/
def PassingClient.Admitted {env : ServerEnv} (client : PassingClient env) : Prop :=
  ∃ s, startSshUserauthServer env client.inbox = some (.ok (serviceTypeConnection, s)) ∧
    s.inbox.size = 0

/-! ## Admission -/

namespace PassingClient

variable {env : ServerEnv} (client : PassingClient env)

include client in
theorem some_required : getRequiredUserauthMethods env.config ≠ {} := by
  obtain ⟨request, hmem⟩ := List.exists_mem_of_ne_nil _ client.some_request
  have hconfig := (client.configured request.method).mp (List.mem_map_of_mem hmem)
  intro hempty
  have hpassword : env.config.password = false := congrArg AuthMethods.password hempty
  have hpublickey : env.config.publickey = false := congrArg AuthMethods.publickey hempty
  have hhostkey : env.config.hostkey = false := congrArg AuthMethods.hostbased hempty
  cases hmethod : request.method <;> simp_all [AuthConfig.requires]

/-- A client that passes every configured method is never admitted. -/
theorem never_admitted : ¬ client.Admitted := by
  rintro ⟨s, hstart, -⟩
  obtain ⟨result, hreturns, -, hne⟩ := startSshUserauthServer_returns env client.inbox
  exact hne client.some_required s (Option.some.inj (hreturns.symm.trans hstart))

end PassingClient

/-- A server that asks for a password and accepts every one. -/
def passwordEnv : ServerEnv where
  config := { password := true, publickey := false, hostkey := false }
  sessionId := []
  writes _ := some 0
  checkUsernamePassword _ _ := 0
  canSign _ := false
  verify _ _ _ := false
  lib := plainLib

def passwordClient : PassingClient passwordEnv where
  username := [117]
  requests := [.password [112]]
  inbox := {
    queue := [
      { type := msgServiceRequest, sequence := 3, buffer := serviceRequest },
      { type := msgUserauthRequest, sequence := 4,
        buffer := msgWriteUserauthPasswordMessage [117] [112] connectionName }]
    arrivals := [] }
  some_request := List.cons_ne_nil _ _
  configured method := by cases method <;> decide
  once := by decide
  known _ _ := show (0 : ℤ) ≠ -1 by decide
  passes request hmem := by
    rw [List.mem_singleton.mp hmem]
    exact ⟨by decide +kernel, fun _ _ _ _ => rfl⟩
  writes _ := rfl
  malloc _ := rfl
  arrives := rfl
  typed payload hmem := by
    rcases List.mem_cons.mp hmem with rfl | hmem
    · rfl
    · rw [List.mem_singleton.mp hmem]
      rfl

/-- The server disconnects and leaves the right password in the queue. -/
theorem passwordClient_not_admitted :
    (∃ s, startSshUserauthServer passwordEnv passwordClient.inbox = some (.ok (-1, s)) ∧
      s.inbox.size = 1) ∧ ¬ passwordClient.Admitted := by
  have haway : ∃ s, startSshUserauthServer passwordEnv passwordClient.inbox =
      some (.ok (-1, s)) ∧ s.inbox.size = 1 := ⟨_, rfl, rfl⟩
  refine ⟨haway, ?_⟩
  rintro ⟨s, hstart, -⟩
  obtain ⟨s', hend, -⟩ := haway
  rw [hend] at hstart
  have hresult : (-1 : ℤ) = serviceTypeConnection :=
    congrArg Prod.fst (Except.ok.inj (Option.some.inj hstart))
  exact absurd hresult (by decide)

end Osns
