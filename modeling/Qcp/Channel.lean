import Qcp.Exchange
import Qcp.Wire
/-!
# Channel — the two sides of the control channel

The server says its banner, both sides greet, the client states what it wants and the server answers: `runClient` and
`runServer`.  Each side comes to a level of its own out of what the other advertised (`processCompatibilityLevels`).
`clientSendMessage_eq` and `serverReply_eq` say that what is sent is what `clientMessage` and `serverRespond` make.
-/
namespace Qcp

open Bare (Bytes Text Codec)
open Proc (Task View)

/-- A failure as it is told to a person. -/
def ServerFailure.display : ServerFailure → Text
  | malformed => "Malformed".toList
  | negotiationFailed t => "Negotiation Failed: ".toList ++ t
  | endpointFailed t => "Endpoint Failed: ".toList ++ t
  | unknown t => "Unknown error: ".toList ++ t

namespace ControlChannel

variable {H : Host}

def bannerText : Text := "qcp-server-2\n".toList

/-- It is as long as the other. -/
def oldBanner : Text := "qcp-server-1\n".toList

def bannerLen : Nat := (Codec.encText bannerText).length

def send {α : Type} (F : Form α) (message : α) : Act H Unit := do
  toWriterFramed F message
  Act.flush

def sendError (failure : ServerFailure) : Act H Unit := send ServerMessage.form (.failure failure)

/-- The level both sides work at, as one side sees it. -/
def processCompatibilityLevels (theirs : UInt16) : Compatibility :=
  chooseCompatibilityLevel ourCompatibilityNumeric theirs

/-- The level a side advertises. -/
def advertised (forceCompat : Option Compatibility) : UInt16 := (forceCompat.getD ourCompatibilityLevel).toU16

/-! ## The client -/

/-- `&b[0..b.len() - 1]`, which has to end where a character does. -/
def chopByte (b : Text) : Option Text :=
  match b.getLast? with
  | none => none
  | some c => if c.utf8Size = 1 then some b.dropLast else none

def waitForBanner : Act H Unit := do
  -- the first byte may take any time to come, the rest may not
  let first ← Act.ofExcept .io (← Task.read 1)
  let rest ← Act.ofExcept .io (← Task.read (bannerLen - 1))
  match Codec.decText bannerLen (first ++ rest) with
  | none => Task.fail (.other "garbage server banner".toList)
  | some b =>
    if b = bannerText then pure ()
    else if b = oldBanner then
      Task.fail (.other "unsupported protocol version (upgrade server to qcp 0.3.0 or later)".toList)
    else
      match chopByte b with
      | none => Task.fail (.panicked "byte index is not a char boundary".toList)
      | some shown => Task.fail (.other ("unsupported protocol version (unrecognised server banner `".toList ++ shown ++
          "'; may be too new for me?)".toList))

def clientExchangeGreetings (remoteDebug : Bool) (forceCompat : Option Compatibility) :
    Act H (ServerGreeting × Compatibility) := do
  send ClientGreeting.form ⟨advertised forceCompat, remoteDebug, 0⟩
  let reply ← fromReaderFramed ServerGreeting.form
  return (reply, processCompatibilityLevels reply.compatibility)

def clientSendMessage (compat : Compatibility) (credentials : Credentials) (connectionType : ConnectionType)
    (remoteConfig : Bool) (config : ConfigurationOptional) (direction : Direction) : Act H Unit := do
  let congestion := config.congestion.getD Configuration.systemDefault.congestion
  Act.ofExcept .other (ensureController congestion compat)
  let taggedCreds ← Act.ofExcept .other (credentials.toTaggedData compat config.tlsAuthType)
  match ClientMessage.new compat taggedCreds connectionType remoteConfig config with
  | none => Task.fail (.panicked "assertion failed: cert.data.is_bytes()".toList)
  | some message => send ClientMessage.form (message.setDirection direction)

def clientReadServerMessage : Act H ServerMessageV2 := do
  match ← fromReaderFramed ServerMessage.form with
  | .v1 m => return m.toV2
  | .v2 m => return m
  | .failure f => Task.fail (.other ("server sent failure message: ".toList ++ f.display))
  | .toFollow => Task.fail (.other "remote or logic error: unpacked unexpected ServerMessage::ToFollow".toList)

/-- The client's side, to where it has the server's message. -/
def runClient (E : EngRepr) (credentials : Credentials) (connectionType : ConnectionType) (manager : Manager)
    (remoteDebug remoteConfig : Bool) (direction : Direction) (forceCompat : Option Compatibility) :
    Act H (Compatibility × ServerMessageV2) := do
  waitForBanner
  let (_, compat) ← clientExchangeGreetings remoteDebug forceCompat
  clientSendMessage compat credentials connectionType remoteConfig (manager.preferences E) direction
  let message ← clientReadServerMessage
  return (compat, message)

/-! ## The server -/

def serverExchangeGreetings (forceCompat : Option Compatibility) : Act H (ClientGreeting × Compatibility) := do
  send ServerGreeting.form ⟨advertised forceCompat, 0⟩
  let reply ← fromReaderFramed ClientGreeting.form
  return (reply, processCompatibilityLevels reply.compatibility)

def serverReadClientMessage : Act H ClientMessageV2 := do
  match ← (fromReaderFramed ClientMessage.form : Act H ClientMessage).attempt with
  | .error _ =>
    sendError .malformed
    Task.fail (.other "In server mode, this program expects to receive a binary data packet on stdin".toList)
  | .ok .toFollow =>
    sendError .malformed
    Task.fail (.other "remote or logic error: unpacked unexpected ClientMessage::ToFollow".toList)
  | .ok (.v1 m) => return m.toV2
  | .ok (.v2 m) => return m

def serverSendMessage (compat : Compatibility) (port : UInt16) (credentials : Credentials) (config : Configuration)
    (warning : Text) : Act H Unit := do
  let taggedCreds ← Act.ofExcept .other (credentials.toTaggedData compat (some config.tlsAuthType))
  match ServerMessage.new compat config port taggedCreds credentials.hostname warning with
  | none => Task.fail (.panicked "assertion failed: credentials.data.is_bytes()".toList)
  | some message =>
    send ServerMessage.form message
    Act.flush

/-- What a server does with the client's message. -/
def serverReply (E : EngRepr) (P : Platform) (describe : NegotiateError → Text) (generate : Except Text Credentials)
    (compat : Compatibility) (manager : Manager) (message : ClientMessageV2) : Act H Configuration :=
  match combineBandwidthConfigurations E manager message with
  | .error e => do
    sendError (.negotiationFailed (e.text describe))
    Task.fail (.other ("Config negotiation failed: ".toList ++ e.text describe))
  | .ok config => do
    let credentials ← Act.ofExcept .other generate
    match createEndpoint P credentials message.credentials message.connectionType config message.direction.serverMode
      compat with
    | .error (.error e) => do
      sendError (.endpointFailed e)
      Task.fail (.other ("failed to create server endpoint: ".toList ++ e))
    | .error (.panic t) => Task.fail (.panicked t)
    | .ok (port, warning) => do
      serverSendMessage compat port credentials config (warning.getD [])
      return config

def runServerInner (E : EngRepr) (P : Platform) (describe : NegotiateError → Text) (generate : Except Text Credentials)
    (compat : Compatibility) (manager : Manager) : Act H Configuration := do
  let message ← serverReadClientMessage
  serverReply E P describe generate compat manager message

/-- The server's side; what it logs is set up once the client has greeted. -/
def runServer (E : EngRepr) (P : Platform) (describe : NegotiateError → Text) (generate : Except Text Credentials)
    (setupTracing : Bool → Except Text Unit) (manager : Manager) (forceCompat : Option Compatibility) :
    Act H (Compatibility × Configuration) := do
  Act.ofExcept .io (← Task.send (.banner bannerText))
  let (greeting, compat) ← serverExchangeGreetings forceCompat
  Act.ofExcept .other (setupTracing greeting.debug)
  let config ← runServerInner E P describe generate compat manager
  return (compat, config)

end ControlChannel

/-! ## What is sent -/

theorem ClientMessage.new_of_bytes {compat : Compatibility} {td : TaggedData} {bs : Bytes} (h : td.data = .bytes bs)
    (ct : ConnectionType) (rc : Bool) (config : ConfigurationOptional) : ClientMessage.new compat td ct rc config =
      some (if compat.supports .cmsgSmsg2 then .v2 ((ClientMessageV2.new td ct).applyConfigAttributes rc config)
        else .v1 (ClientMessageV1.new bs ct rc config)) := by
  unfold ClientMessage.new
  rw [h, apply_ite some]

theorem ServerMessage.new_isSome {td : TaggedData} {bs : Bytes} (h : td.data = .bytes bs) (compat : Compatibility)
    (config : Configuration) (port : UInt16) (name warning : Text) :
    ∃ m, ServerMessage.new compat config port td name warning = some m := by
  unfold ServerMessage.new
  rw [h]
  simp only
  split <;> exact ⟨_, rfl⟩

/-- The client's assertion holds, and what it sends is its message. -/
theorem ControlChannel.clientSendMessage_eq {H : Host} (compat : Compatibility) (credentials : Credentials)
    (ct : ConnectionType) (rc : Bool) (config : ConfigurationOptional) (direction : Direction) :
    (clientSendMessage compat credentials ct rc config direction : Act H Unit) =
      match clientMessage compat credentials ct rc config direction with
      | .ok m => send ClientMessage.form m
      | .error e => Task.fail (.other e) := by
  unfold clientSendMessage clientMessage
  simp only
  cases ensureController (config.congestion.getD Configuration.systemDefault.congestion) compat with
  | error e => rfl
  | ok u =>
    cases ht : credentials.toTaggedData compat config.tlsAuthType with
    | error e => rfl
    | ok td =>
      obtain ⟨⟨bs, hbs⟩, -⟩ := credentials.toTaggedData_ok compat config.tlsAuthType td ht
      show (match ClientMessage.new compat td ct rc config with
        | none => _
        | some message => _) = (match (match ClientMessage.new compat td ct rc config with
        | none => _
        | some message => _ : Except Text ClientMessage) with
        | .ok m => _
        | .error e => _)
      rw [ClientMessage.new_of_bytes hbs]
      rfl

/-- The server's assertion holds, and what it sends is its message. -/
theorem ControlChannel.serverSendMessage_eq {H : Host} (compat : Compatibility) (port : UInt16)
    (credentials : Credentials) (config : Configuration) (warning : Text) :
    (serverSendMessage compat port credentials config warning : Act H Unit) =
      match serverMessage compat port credentials config warning with
      | .ok m => do
        send ServerMessage.form m
        Act.flush
      | .error e => Task.fail (.other e) := by
  unfold serverSendMessage serverMessage
  cases ht : credentials.toTaggedData compat (some config.tlsAuthType) with
  | error e => rfl
  | ok td =>
    obtain ⟨⟨bs, hbs⟩, -⟩ := credentials.toTaggedData_ok compat _ td ht
    obtain ⟨m, hm⟩ := ServerMessage.new_isSome hbs compat config port credentials.hostname warning
    show (match ServerMessage.new compat config port td credentials.hostname warning with
      | none => _
      | some message => _) = (match (match ServerMessage.new compat config port td credentials.hostname warning with
      | none => _
      | some message => _ : Except Text ServerMessage) with
      | .ok m => _
      | .error e => _)
    rw [hm]
    rfl

/-- What the server says in refusing. -/
def ServerFailure.refusal : ServerFailure → Text
  | negotiationFailed t => "Config negotiation failed: ".toList ++ t
  | endpointFailed t => "failed to create server endpoint: ".toList ++ t
  | _ => []

/-- **The server does what it is to do with the client's message.** -/
theorem ControlChannel.serverReply_eq {H : Host} (E : EngRepr) (P : Platform) (describe : NegotiateError → Text)
    (generate : Except Text Credentials) (compat : Compatibility) (manager : Manager) (message : ClientMessageV2) :
    (serverReply E P describe generate compat manager message : Act H Configuration) =
      match serverRespond E P describe generate compat manager message with
      | .refuse f => do
        sendError f
        Task.fail (.other f.refusal)
      | .abort e => Task.fail (.other e)
      | .panic t => Task.fail (.panicked t)
      | .answer config m => do
        (do send ServerMessage.form m; Act.flush)
        return config := by
  unfold serverReply serverRespond
  cases combineBandwidthConfigurations E manager message with
  | error e => rfl
  | ok config =>
    cases generate with
    | error e => rfl
    | ok credentials =>
      simp only
      show (match createEndpoint P credentials message.credentials message.connectionType config
        message.direction.serverMode compat with
        | .error (.error e) => _
        | .error (.panic t) => _
        | .ok (port, warning) => _) = (match (match createEndpoint P credentials message.credentials
        message.connectionType config message.direction.serverMode compat with
        | .error (.error e) => _
        | .error (.panic t) => _
        | .ok (port, warning) => _ : ServerReply) with
        | .refuse f => _
        | .abort e => _
        | .panic t => _
        | .answer config m => _)
      rcases createEndpoint P credentials message.credentials message.connectionType config message.direction.serverMode
        compat with (_ | _) | p
      · rfl
      · rfl
      · simp only [serverSendMessage_eq]
        cases serverMessage compat p.1 credentials config (p.2.getD []) <;> rfl

/-! ## Possible runs -/

section Possible

open Proc (Local Gives)

variable {H : Host} {s : Local H.sig}

theorem ControlChannel.bannerText_decodes : Codec.decText bannerLen (Codec.encText bannerText) = some bannerText :=
  Codec.decText_encText _ _ (Nat.le_refl _)

theorem Gives.channelSend {α : Type} {F : Form α} {a : α} (hf : F.Fits a) (hs : s.sendLost = false) :
    Gives (ControlChannel.send F a : Act H Unit) s () (s.push (.sent (F.msg a))) :=
  Gives.then (Gives.writer hf hs) Gives.flushed

/-- A state in which the banner was read as well. -/
def hearBanner (s : Local H.sig) : Local H.sig :=
  (s.push (.took ((Codec.encText ControlChannel.bannerText).take 1))).push
    (.took ((Codec.encText ControlChannel.bannerText).drop 1))

@[simp] theorem hearBanner_sendLost (s : Local H.sig) : (hearBanner s).sendLost = s.sendLost := rfl
@[simp] theorem hearBanner_recvLost (s : Local H.sig) : (hearBanner s).recvLost = s.recvLost := rfl
@[simp] theorem out_hearBanner (s : Local H.sig) : (hearBanner s).out = s.out := by
  simp [hearBanner, Proc.Event.wrote]
@[simp] theorem got_hearBanner (s : Local H.sig) : (hearBanner s).got = s.got := by
  simp [hearBanner, Proc.Event.got?]
@[simp] theorem taken_hearBanner (s : Local H.sig) :
    (hearBanner s).taken = s.taken ++ Codec.encText ControlChannel.bannerText := by
  rw [hearBanner, Local.taken_push, Local.taken_push, List.append_assoc]
  exact congrArg (s.taken ++ ·) (List.take_append_drop 1 _)

theorem Gives.waitForBanner (hs : s.recvLost = false) :
    Gives (ControlChannel.waitForBanner : Act H Unit) s () (hearBanner s) := by
  refine Gives.then (Gives.read (S := H.sig) ((Codec.encText ControlChannel.bannerText).take 1) hs (by decide))
    (Gives.then (Gives.pure _ _) ?_)
  refine Gives.then (Gives.read (S := H.sig) ((Codec.encText ControlChannel.bannerText).drop 1) hs (by decide))
    (Gives.then (Gives.pure _ _) ?_)
  simp only [List.take_append_drop, ControlChannel.bannerText_decodes, if_true]
  exact Gives.pure () _

end Possible

end Qcp
