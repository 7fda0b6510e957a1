import Qcp.ClientVersions
import Qcp.ServerMsg
import Qcp.Socket
import Qcp.Transport
/-!
# Exchange — the messages of the control channel, and what each side makes of them

What a client sends (`clientMessage`), what a server answers (`serverRespond`), and the configuration each side works
with afterwards (`exchange`).  `toTaggedData_ok` and `ensureController_ok` say what a level lets through, and
`parts_of_answer` what a server needs for an answer.
-/
namespace Qcp

open Bare (Bytes Text)
open Layers (Dict)

/-! ## Credentials -/

/-- A side's key pair: its certificate, the public key where it can be had, and the host name. -/
structure Credentials where
  certificate : Bytes
  rawPublicKey : Except Text Bytes
  hostname : Text

namespace Credentials

/-- The credentials type for a level. -/
def typeTagFor (compat : Compatibility) (configuredType : Option CredentialsType) : CredentialsType :=
  match configuredType with
  | some .x509 => .x509
  | some .rawPublicKey => .rawPublicKey
  -- unset, or automatic:
  | none | some .any => if compat.supports .cmsgSmsg2 then .rawPublicKey else .x509

def rawPublicKeyText : Text := "RawPublicKey credentials configured, but not supported by remote".toList

/-- The credentials as they are sent. -/
def toTaggedData (c : Credentials) (compat : Compatibility) (configuredType : Option CredentialsType) :
    Except Text TaggedData :=
  match typeTagFor compat configuredType with
  | .any => .error "internal error: entered unreachable code".toList
  | .x509 => .ok ⟨CredentialsType.x509.toRepr, .bytes c.certificate⟩
  | .rawPublicKey =>
    if compat.supports .cmsgSmsg2 then
      c.rawPublicKey.map fun key => ⟨CredentialsType.rawPublicKey.toRepr, .bytes key⟩
    else .error rawPublicKeyText

/-- The code that cannot be reached is not. -/
theorem typeTagFor_ne_any (compat : Compatibility) (t : Option CredentialsType) : typeTagFor compat t ≠ .any := by
  have h : (if compat.supports .cmsgSmsg2 then CredentialsType.rawPublicKey else .x509) ≠ .any := by
    split <;> decide
  rcases t with _ | t
  · exact h
  · cases t with
    | any => exact h
    | x509 => exact CredentialsType.noConfusion
    | rawPublicKey => exact CredentialsType.noConfusion

/-- What is sent are bytes, and a raw public key only to a peer that can take it. -/
theorem toTaggedData_ok (c : Credentials) (compat : Compatibility) (t : Option CredentialsType) (td : TaggedData)
    (h : c.toTaggedData compat t = .ok td) : (∃ bs, td.data = .bytes bs) ∧
      (td.tag = CredentialsType.x509.toRepr ∨
        td.tag = CredentialsType.rawPublicKey.toRepr ∧ compat.supports .cmsgSmsg2 = true) := by
  unfold toTaggedData at h
  split at h
  · cases h
  · cases h; exact ⟨⟨_, rfl⟩, Or.inl rfl⟩
  · split at h
    · rename_i hs
      cases hk : c.rawPublicKey with
      | error e => rw [hk] at h; cases h
      | ok key => rw [hk] at h; cases h; exact ⟨⟨_, rfl⟩, Or.inr ⟨rfl, hs⟩⟩
    · cases h

end Credentials

/-! ## The client's message -/

/-- The controller needs a peer that knows it. -/
def ensureController (congestion : CongestionController) (compat : Compatibility) : Except Text Unit :=
  if congestion = .newReno ∧ compat.supports .newReno = false then .error newRenoText else .ok ()

theorem ensureController_ok (congestion : CongestionController) (compat : Compatibility) (u : Unit)
    (h : ensureController congestion compat = .ok u) (hn : congestion = .newReno) :
    compat.supports .newReno = true := by
  unfold ensureController at h
  split at h
  · cases h
  · rename_i hc
    exact Bool.eq_true_of_not_eq_false fun hf => hc ⟨hn, hf⟩

/-- What `client_send_message` sends. -/
def clientMessage (compat : Compatibility) (credentials : Credentials) (connectionType : ConnectionType)
    (remoteConfig : Bool) (config : ConfigurationOptional) (direction : Direction) : Except Text ClientMessage := do
  let congestion := config.congestion.getD Configuration.systemDefault.congestion
  ensureController congestion compat
  let taggedCreds ← credentials.toTaggedData compat config.tlsAuthType
  match ClientMessage.new compat taggedCreds connectionType remoteConfig config with
  | none => .error "assertion failed: cert.data.is_bytes()".toList
  | some message => return message.setDirection direction

/-- The preferences a manager is read for, or none if it cannot be read. -/
def Manager.preferences (E : EngRepr) (manager : Manager) : ConfigurationOptional :=
  match manager.getOptional E with
  | .ok o => o
  | .error _ => .empty

/-! ## The server's answer -/

/-- What a machine makes of sockets: whether one may be bound, and what comes of one that is to have these buffers to
send and to receive.  That is its port, with a warning if the buffers are too small. -/
structure Sockets where
  os : SocketAddr → Except IoError Unit
  configure : UdpSocket → Option UInt64 → Option UInt64 → Except Text (UInt16 × Option Text)

def Sockets.bind (S : Sockets) (connectionType : ConnectionType) (config : Configuration) (mode : ThroughputMode) :
    Except Text (UInt16 × Option Text) := do
  let socket ← (bindRangeForFamily S.os connectionType config.port).mapError IoError.text
  let wantedSend := if mode = .rx then none else some config.udpBuffer
  let wantedRecv := if mode = .tx then none else some config.udpBuffer
  S.configure socket wantedSend wantedRecv

/-- What an endpoint is made with: the TLS configuration may be refused as well. -/
structure Platform where
  build : Build
  sockets : Sockets
  tls : Credentials → TaggedData → Configuration → Compatibility → Except Text Unit

/-- Either side's `create_endpoint`. -/
def createEndpoint (P : Platform) (credentials : Credentials) (peer : TaggedData) (connectionType : ConnectionType)
    (config : Configuration) (mode : ThroughputMode) (compat : Compatibility) :
    Except Fault (UInt16 × Option Text) := do
  (P.tls credentials peer config compat).mapError .error
  let _ ← config.createConfig P.build mode compat
  (P.sockets.bind connectionType config mode).mapError .error

/-- How a server leaves phase 3: it sends a failure, or gives up without a word, or panics, or answers. -/
inductive ServerReply where
  | refuse (failure : ServerFailure)
  | abort (e : Text)
  | panic (message : Text)
  | answer (config : Configuration) (message : ServerMessage)

/-- What `server_send_message` sends. -/
def serverMessage (compat : Compatibility) (port : UInt16) (credentials : Credentials) (config : Configuration)
    (warning : Text) : Except Text ServerMessage := do
  let taggedCreds ← credentials.toTaggedData compat (some config.tlsAuthType)
  match ServerMessage.new compat config port taggedCreds credentials.hostname warning with
  | none => .error "assertion failed: credentials.data.is_bytes()".toList
  | some message => return message

/-- The text of a negotiation error. -/
def NegotiateError.text (describe : NegotiateError → Text) : NegotiateError → Text
  | .congestion => congestionText
  | .port theirs self => portText theirs self
  | e => describe e

/-- Phase 3 of the server, from the client's message on. -/
def serverRespond (E : EngRepr) (P : Platform) (describe : NegotiateError → Text) (generate : Except Text Credentials)
    (compat : Compatibility) (manager : Manager) (message : ClientMessageV2) : ServerReply :=
  match combineBandwidthConfigurations E manager message with
  | .error e => .refuse (.negotiationFailed (e.text describe))
  | .ok config =>
    match generate with
    | .error e => .abort e
    | .ok credentials =>
      match createEndpoint P credentials message.credentials message.connectionType config message.direction.serverMode
        compat with
      | .error (.error e) => .refuse (.endpointFailed e)
      | .error (.panic t) => .panic t
      | .ok (port, warning) =>
        match serverMessage compat port credentials config (warning.getD []) with
        | .error e => .abort e
        | .ok reply => .answer config reply

section Answer

variable {E : EngRepr} {P : Platform} {describe : NegotiateError → Text} {generate : Except Text Credentials}
  {compat : Compatibility} {manager : Manager} {message : ClientMessageV2} {config : Configuration}
    {reply : ServerMessage}

theorem serverMessage_ok {port : UInt16} {credentials : Credentials} {warning : Text}
    (h : serverMessage compat port credentials config warning = .ok reply) :
    ∃ td, credentials.toTaggedData compat (some config.tlsAuthType) = .ok td ∧
      ServerMessage.new compat config port td credentials.hostname warning = some reply := by
  obtain ⟨td, htd, h⟩ := (Configuration.bind_eq_ok _ _ _).1 h
  refine ⟨td, htd, ?_⟩
  split at h
  · cases h
  · rename_i hnew
    cases h
    exact hnew

/-- **What a server needs for an answer**: all that it tries on the way has to succeed. -/
theorem parts_of_answer (h : serverRespond E P describe generate compat manager message = .answer config reply) :
    combineBandwidthConfigurations E manager message = .ok config ∧ ∃ credentials port warning,
      generate = .ok credentials ∧ createEndpoint P credentials message.credentials message.connectionType config
        message.direction.serverMode compat = .ok (port, warning) ∧
      serverMessage compat port credentials config (warning.getD []) = .ok reply := by
  unfold serverRespond at h
  split at h
  · cases h
  rename_i settled hc
  cases generate with
  | error e => cases h
  | ok credentials =>
    simp only at h
    split at h
    · cases h
    · cases h
    rename_i port warning hend
    split at h
    · cases h
    rename_i answer hm
    cases h
    exact ⟨hc, credentials, port, warning, rfl, hend, hm⟩

end Answer

/-! ## Both sides -/

/-- **The control exchange**: the server's configuration and the client's, when both sides come to one. -/
def exchange (E : EngRepr) (P : Platform) (describe : NegotiateError → Text) (generate : Except Text Credentials)
    (clientCompat serverCompat : Compatibility) (clientManager serverManager : Manager) (credentials : Credentials)
    (connectionType : ConnectionType) (remoteConfig : Bool) (direction : Direction) :
    Option (Configuration × Configuration) := do
  let message ← (clientMessage clientCompat credentials connectionType remoteConfig (clientManager.preferences E)
    direction).toOption
  let message2 ← message.toV2
  match serverRespond E P describe generate serverCompat serverManager message2 with
  | .answer config reply =>
    let reply2 ← reply.toV2
    let final ← (reply2.learned E clientManager).toOption
    return (config, final)
  | _ => none

end Qcp
