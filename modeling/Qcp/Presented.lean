import Qcp.Announced
import Qcp.Assembled
import Qcp.Endpoint
/-!
# Presented — the credentials that are announced are the ones presented

A client announces credentials of the type its preferences ask for, before it has heard of the server; what it
presents is of the type its configuration asks for once the server's message is merged in.  A server goes by one
configuration for both.  `tlsAuthType_of_learned` says that the message changes nothing of the type, and
`credentials_consistent` what that makes of the two ends of a control channel.
-/
namespace Qcp

open Bare (Bytes Text Codec)
open Proc (Pair Steps Task View Local Ok Gives)
open Frame (frame)
open ControlChannel
open Layers (Dict Layered)

/-! ## The type that is asked for -/

theorem Field.getOpt_of_get_or {α : Type} (f : Field α) (look dflt : Dict Key Value) (a : α)
    (h : f.get (fun k => (look k).or (dflt k)) = .ok a) : ∃ s, f.getOpt look = .ok s := by
  cases hl : look f.key with
  | none => exact ⟨none, (f.getOpt_none_iff look).2 hl⟩
  | some v =>
    refine ⟨some a, (f.getOpt_some_iff look a).2 ⟨v, hl, ?_⟩⟩
    unfold Field.get at h
    simp only [hl, Option.some_or] at h
    split at h
    · cases h
    · rename_i b hb
      cases h
      exact hb

/-- **What can be read over the system default has preferences to be read.** -/
theorem preferences_of_get (E : EngRepr) (look dflt : Dict Key Value) (c : Configuration)
    (h : Configuration.Reads E (fun k => (look k).or (dflt k)) c) :
    ∃ o, ConfigurationOptional.Reads E look o := by
  obtain ⟨_, h1⟩ := Field.getOpt_of_get_or _ look dflt _ h.rx
  obtain ⟨_, h2⟩ := Field.getOpt_of_get_or _ look dflt _ h.tx
  obtain ⟨_, h3⟩ := Field.getOpt_of_get_or _ look dflt _ h.rtt
  obtain ⟨_, h4⟩ := Field.getOpt_of_get_or _ look dflt _ h.congestion
  obtain ⟨_, h5⟩ := Field.getOpt_of_get_or _ look dflt _ h.initialCongestionWindow
  obtain ⟨_, h6⟩ := Field.getOpt_of_get_or _ look dflt _ h.port
  obtain ⟨_, h7⟩ := Field.getOpt_of_get_or _ look dflt _ h.timeout
  obtain ⟨_, h8⟩ := Field.getOpt_of_get_or _ look dflt _ h.udpBuffer
  obtain ⟨_, h9⟩ := Field.getOpt_of_get_or _ look dflt _ h.initialMtu
  obtain ⟨_, h10⟩ := Field.getOpt_of_get_or _ look dflt _ h.minMtu
  obtain ⟨_, h11⟩ := Field.getOpt_of_get_or _ look dflt _ h.maxMtu
  obtain ⟨_, h12⟩ := Field.getOpt_of_get_or _ look dflt _ h.remotePort
  obtain ⟨_, h13⟩ := Field.getOpt_of_get_or _ look dflt _ h.tlsAuthType
  obtain ⟨_, h14⟩ := Field.getOpt_of_get_or _ look dflt _ h.ioBufferSize
  exact ⟨⟨_, _, _, _, _, _, _, _, _, _, _, _, _, _⟩, h1, h2, h3, h4, h5, h6, h7, h8, h9, h10, h11, h12, h13, h14⟩

/-- **The server's message has no say in the type**: it is the client's own preference. -/
theorem tlsAuthType_of_learned {E : EngRepr} {m : ServerMessageV2} {manager : Manager} {own c : Configuration}
    (hown : (manager.applySystemDefault E).get E = .ok own) (hc : m.learned E manager = .ok c) :
    c.tlsAuthType = (manager.preferences E).tlsAuthType.getD .any := by
  obtain ⟨data⟩ := manager
  cases data with
  | error e => cases hown
  | ok l =>
    cases hd : m.data with
    | error e =>
      unfold ServerMessageV2.learned ServerMessageV2.mergedInto at hc
      rw [hd] at hc
      cases hc
    | ok dict =>
      have hr := (learned_eq_ok_iff E m l dict hd c).1 hc
      have hro := (Configuration.extract_eq_ok_iff E _ _).1 hown
      have hlook : (l.join .dflt (Configuration.systemDefault.toDict E)).look =
          fun k => (l.look k).or (Configuration.systemDefault.toDict E k) := by
        funext k
        exact Layered.look_join_default ..
      rw [hlook] at hro
      obtain ⟨o, ho⟩ := preferences_of_get E _ _ _ hro
      have hpref : Manager.preferences E ⟨.ok l⟩ = o := by
        unfold Manager.preferences
        have hg : Manager.getOptional E ⟨.ok l⟩ = .ok o := (ConfigurationOptional.extract_eq_ok_iff E _ _).2 ho
        rw [hg]
      -- the message has nothing under that key
      have hkey : dict .tlsAuthType = none :=
        ServerMessageV2.foldlM_addAttribute_other (by decide) (by decide) (by decide) _ _ _ hd
      have hsame : learnedLook E dict l.look .tlsAuthType =
          (l.look .tlsAuthType).or (Configuration.systemDefault.toDict E .tlsAuthType) := by
        unfold learnedLook
        rw [hkey, Option.none_or]
      have hget := (Field.get_congr Field.tlsAuthType _
        (fun k => (l.look k).or (Configuration.systemDefault.toDict E k)) hsame).symm.trans hr.tlsAuthType
      rw [Field.get_or Field.tlsAuthType _ _ _ ho.tlsAuthType] at hget
      rw [hpref]
      cases ht : o.tlsAuthType with
      | none =>
        rw [ht] at hget
        exact Except.ok.inj (hget.symm.trans (reads_systemDefault E).tlsAuthType)
      | some t =>
        rw [ht] at hget
        exact (Except.ok.inj hget).symm

/-- A type that is not set is the automatic one. -/
theorem toTaggedData_getD (c : Credentials) (compat : Compatibility) (t : Option CredentialsType) :
    c.toTaggedData compat (some (t.getD .any)) = c.toTaggedData compat t := by
  cases t <;> rfl

/-! ## What either side has done -/

/-- A client that has the server's message. -/
structure ClientExchanged (H : Host) (credentials : Credentials) (ct : ConnectionType) (rc : Bool)
    (config : ConfigurationOptional) (direction : Direction) (compat : Compatibility) (m : ClientMessage)
    (sm : ServerMessage) (v : View H.sig) : Prop where
  message : clientMessage compat credentials ct rc config direction = .ok m
  fits : ClientMessage.form.Fits m
  tried : ∃ g, v.tried = [.clientGreeting g, .clientMessage m]
  sent : ∃ g, v.sent = [.clientGreeting g, .clientMessage m]
  got : ∃ g, v.got = [.serverGreeting g, .serverMessage sm]
  taken : ∃ bs gb mb g, v.taken = bs ++ frame gb ++ frame mb ∧ bs.length = bannerLen ∧ ServerGreeting.form.Reads gb g ∧
    ServerMessage.form.Reads mb sm

/-- A server that has answered, from its banner on. -/
structure ServerExchanged (H : Host) (E : EngRepr) (P : Platform) (describe : NegotiateError → Text)
    (generate : Except Text Credentials) (manager : Manager) (compat : Compatibility) (config : Configuration)
    (m : ClientMessage) (sm : ServerMessage) (v : View H.sig) : Prop where
  answers : ∃ m2, m.toV2 = some m2 ∧ serverRespond E P describe generate compat manager m2 = .answer config sm
  fits : ServerMessage.form.Fits sm
  tried : ∃ g, v.tried = [.banner bannerText, .serverGreeting g, .serverMessage sm]
  sent : ∃ g, v.sent = [.banner bannerText, .serverGreeting g, .serverMessage sm]
  got : ∃ g, v.got = [.clientGreeting g, .clientMessage m]
  taken : ∃ gb mb g, v.taken = frame gb ++ frame mb ∧ ClientGreeting.form.Reads gb g ∧ ClientMessage.form.Reads mb m

/-- A server that has read the client's message. -/
structure ReadBy {H : Host} (v : View H.sig) (m : ClientMessage) (v' : View H.sig) : Prop where
  tried : v'.tried = v.tried
  sent : v'.sent = v.sent
  got : v'.got = v.got ++ [.clientMessage m]
  taken : ∃ mb, v'.taken = v.taken ++ frame mb ∧ ClientMessage.form.Reads mb m

/-- And one that has answered it. -/
structure AnsweredBy (H : Host) (E : EngRepr) (P : Platform) (describe : NegotiateError → Text)
    (generate : Except Text Credentials) (compat : Compatibility) (manager : Manager) (v : View H.sig)
    (config : Configuration) (m : ClientMessage) (sm : ServerMessage) (v' : View H.sig) : Prop where
  answers : ∃ m2, m.toV2 = some m2 ∧ serverRespond E P describe generate compat manager m2 = .answer config sm
  fits : ServerMessage.form.Fits sm
  tried : v'.tried = v.tried ++ [.serverMessage sm]
  sent : v'.sent = v.sent ++ [.serverMessage sm]
  got : v'.got = v.got ++ [.clientMessage m]
  taken : ∃ mb, v'.taken = v.taken ++ frame mb ∧ ClientMessage.form.Reads mb m

section Rules

variable {H : Host}

/-- A message that was sent is short enough. -/
theorem Ok.channelSends {α : Type} {F : Form α} {a : α} {v : View H.sig} {Q : Unit → View H.sig → Prop}
    (h : F.Fits a → Q () { v with tried := v.tried ++ [F.msg a], sent := v.sent ++ [F.msg a] }) :
    Ok (fun _ => True) Q (ControlChannel.send F a : Act H Unit) v :=
  Ok.then (Ok.writer trivial (fun _ _ => trivial) fun hf => Ok.flushed trivial (h hf))

theorem Ok.clientExchanges (E : EngRepr) (credentials : Credentials) (ct : ConnectionType) (manager : Manager)
    (remoteDebug remoteConfig : Bool) (direction : Direction) (forceCompat : Option Compatibility) (w : World) :
    Ok (fun _ => True) (fun r v => ∃ m sm, ClientExchanged H credentials ct remoteConfig (manager.preferences E)
    direction
        r.1 m sm v ∧ sm.toV2 = some r.2)
      (ControlChannel.runClient E credentials ct manager remoteDebug remoteConfig direction forceCompat : Act H _)
      (View.init w) := by
  apply Ok.then
  apply Ok.waitForBanner (fun _ _ => trivial)
  intro bs hbs
  apply Ok.then
  apply Ok.then
  apply Ok.channelSends
  intro _
  apply Ok.then
  apply Ok.reader (fun _ _ => trivial) (fun _ _ _ _ _ => trivial)
  intro gb g _ hgl hgd
  apply Ok.pure trivial
  show Ok _ _ (ControlChannel.clientSendMessage (processCompatibilityLevels g.compatibility) credentials ct remoteConfig
    (manager.preferences E) direction >>= _) _
  rw [ControlChannel.clientSendMessage_eq]
  cases hm : clientMessage (processCompatibilityLevels g.compatibility) credentials ct remoteConfig
    (manager.preferences E) direction with
  | error e => exact Ok.then (Ok.fail trivial)
  | ok m =>
    apply Ok.then
    apply Ok.channelSends
    intro hf
    apply Ok.then
    apply Ok.then
    apply Ok.reader (fun _ _ => trivial) (fun _ _ _ _ _ => trivial)
    intro mb sm _ hml hmd
    have done : ClientExchanged H credentials ct remoteConfig (manager.preferences E) direction
        (processCompatibilityLevels g.compatibility) m sm
        ⟨w, [.clientGreeting ⟨advertised forceCompat, remoteDebug, 0⟩, .clientMessage m],
          [.clientGreeting ⟨advertised forceCompat, remoteDebug, 0⟩, .clientMessage m],
          [.serverGreeting g, .serverMessage sm], bs ++ frame gb ++ frame mb, [], false⟩ :=
      ⟨hm, hf, ⟨_, rfl⟩, ⟨_, rfl⟩, ⟨_, rfl⟩, bs, gb, mb, g, rfl, hbs, ⟨hgl, hgd⟩, hml, hmd⟩
    cases sm with
    | v1 sm => exact Ok.pure trivial (Ok.pure trivial ⟨m, .v1 sm, done, rfl⟩)
    | v2 sm => exact Ok.pure trivial (Ok.pure trivial ⟨m, .v2 sm, done, rfl⟩)
    | failure f => exact Ok.fail trivial
    | toFollow => exact Ok.fail trivial

/-- A server sends a failure, and gives up. -/
theorem Ok.refuses {α : Type} {Q : α → View H.sig → Prop} (f : ServerFailure) (e : Err) (v : View H.sig) :
    Ok (fun _ => True) Q (do ControlChannel.sendError f; Task.fail e : Act H α) v := by
  apply Ok.then
  apply Ok.channelSends
  intro _
  exact Ok.fail trivial

theorem Ok.serverReplies {E : EngRepr} {P : Platform} {describe : NegotiateError → Text}
    {generate : Except Text Credentials} {compat : Compatibility} {manager : Manager} {v v' : View H.sig}
    {m : ClientMessage} (m2 : ClientMessageV2) (hm : m.toV2 = some m2) (hread : ReadBy v m v') :
    Ok (fun _ => True) (fun config v'' => ∃ m sm, AnsweredBy H E P describe generate compat manager v config m sm v'')
      (ControlChannel.serverReply E P describe generate compat manager m2 : Act H _) v' := by
  rw [ControlChannel.serverReply_eq]
  cases hr : serverRespond E P describe generate compat manager m2 with
  | refuse f => exact Ok.refuses _ _ _
  | abort e => exact Ok.fail trivial
  | panic t => exact Ok.fail trivial
  | answer config sm =>
    apply Ok.then
    apply Ok.then
    apply Ok.channelSends
    intro hf
    apply Ok.flushed trivial
    apply Ok.pure trivial
    exact ⟨m, sm, ⟨m2, hm, hr⟩, hf, congrArg (· ++ _) hread.tried, congrArg (· ++ _) hread.sent, hread.got, hread.taken⟩

theorem Ok.serverAnswers (E : EngRepr) (P : Platform) (describe : NegotiateError → Text)
    (generate : Except Text Credentials) (compat : Compatibility) (manager : Manager) (v : View H.sig) :
    Ok (fun _ => True) (fun config v' => ∃ m sm, AnsweredBy H E P describe generate compat manager v config m sm v')
      (ControlChannel.runServerInner E P describe generate compat manager : Act H _) v := by
  apply Ok.then
  apply Ok.then
  refine Ok.attempt (J := fun _ => True) (Q := fun m v' => ReadBy v m v') ?_ (fun _ _ => trivial) ?_ ?_
  · apply Ok.reader (fun _ _ => trivial) (fun _ _ _ _ _ => trivial)
    intro mb m _ hml hmd
    exact ⟨rfl, rfl, rfl, mb, rfl, hml, hmd⟩
  · intro m v' _ hread
    cases m with
    | toFollow => exact Ok.refuses _ _ _
    | v1 m => exact Ok.pure trivial (Ok.serverReplies _ rfl hread)
    | v2 m => exact Ok.pure trivial (Ok.serverReplies _ rfl hread)
  · intro e v' _
    exact Ok.refuses _ _ _

theorem Ok.serverExchanges (E : EngRepr) (P : Platform) (describe : NegotiateError → Text)
    (generate : Except Text Credentials) (setupTracing : Bool → Except Text Unit) (manager : Manager)
    (forceCompat : Option Compatibility) (w : World) :
    Ok (fun _ => True) (fun r v => ∃ m sm, ServerExchanged H E P describe generate manager r.1 r.2 m sm v)
      (ControlChannel.runServer E P describe generate setupTracing manager forceCompat : Act H _) (View.init w) := by
  apply Ok.then
  refine Ok.send trivial trivial ?_ trivial fun f => Ok.then (Ok.ofExcept trivial fun a ha => by cases ha)
  apply Ok.then
  apply Ok.ofExcept trivial
  intro _ _
  apply Ok.then
  apply Ok.then
  apply Ok.channelSends
  intro _
  apply Ok.then
  apply Ok.reader (fun _ _ => trivial) (fun _ _ _ _ _ => trivial)
  intro gb g _ hgl hgd
  apply Ok.pure trivial
  apply Ok.then
  apply Ok.ofExcept trivial
  intro _ _
  apply Ok.then
  refine (Ok.serverAnswers E P describe generate _ manager _).mono (fun _ h => h) fun config v _ hv =>
    Ok.pure trivial ?_
  obtain ⟨m, sm, hanswered⟩ := hv
  obtain ⟨mb, htaken, hread⟩ := hanswered.taken
  exact ⟨m, sm, hanswered.answers, hanswered.fits, ⟨_, hanswered.tried⟩, ⟨_, hanswered.sent⟩,
    ⟨_, hanswered.got⟩, gb, mb, g, htaken, ⟨hgl, hgd⟩, hread⟩

end Rules

/-! ## The client's mode -/

/-- What is checked of a configuration, as far as possible. -/
def Manager.validateConfiguration (E : EngRepr) (manager : Manager) : Except (ConfigError ⊕ ValidationError) Unit := do
  let config ← (manager.get E).mapError .inl
  config.tryValidate.mapError .inr

/-- The client's mode, to where the control channel has done its work: what there is of a configuration is validated
over the system default before anything else. -/
def Cli.runClient {H : Host} (E : EngRepr) (explain : ConfigError ⊕ ValidationError → Text) (credentials : Credentials)
    (connectionType : ConnectionType) (manager : Manager) (remoteDebug remoteConfig : Bool) (direction : Direction)
    (forceCompat : Option Compatibility) : Act H (Configuration × Compatibility × ServerMessageV2) := do
  Act.ofExcept (fun e => .other (explain e)) ((manager.applySystemDefault E).validateConfiguration E)
  let (compat, message) ← ControlChannel.runClient E credentials connectionType manager remoteDebug remoteConfig
    direction forceCompat
  let config ← Act.ofExcept (fun _ => .other assemblingText) (message.learned E manager)
  return (config, compat, message)

theorem Ok.cliRunClient {H : Host} (E : EngRepr) (explain : ConfigError ⊕ ValidationError → Text)
    (credentials : Credentials)
    (ct : ConnectionType) (manager : Manager) (remoteDebug remoteConfig : Bool) (direction : Direction)
    (forceCompat : Option Compatibility) (w : World) :
    Ok (fun _ => True) (fun r v => ∃ m sm, ClientExchanged H credentials ct remoteConfig (manager.preferences E)
    direction
        r.2.1 m sm v ∧ sm.toV2 = some r.2.2 ∧ r.1.tlsAuthType = (manager.preferences E).tlsAuthType.getD .any)
      (Cli.runClient E explain credentials ct manager remoteDebug remoteConfig direction forceCompat : Act H _)
      (View.init w) := by
  apply Ok.then
  apply Ok.ofExcept trivial
  intro _ hvalid
  obtain ⟨own, hown, -⟩ := (Configuration.bind_eq_ok _ _ _).1 hvalid
  have hget := (mapError_eq_ok _ _ _).1 hown
  apply Ok.then
  refine (Ok.clientExchanges E credentials ct manager remoteDebug remoteConfig direction forceCompat w).mono
    (fun _ h => h) fun r v _ hr => ?_
  obtain ⟨m, sm, hdone, hsm⟩ := hr
  apply Ok.then
  apply Ok.ofExcept trivial
  intro config hconfig
  exact Ok.pure trivial ⟨m, sm, hdone, hsm, tlsAuthType_of_learned hget hconfig⟩

/-! ## Each side -/

/-- What a side announces it presents, and it accepts what its peer has announced. -/
structure Consistent (own peer : Option TaggedData) (tls : TlsConfig) : Prop where
  presents : own = some tls.identity.tagged
  accepts : ∃ identity : Identity, peer = some identity.tagged ∧ tls.verifier = identity.verifier

section Sides

variable {G H : Host} {E : EngRepr} {C : Crypto} {credentials : Credentials} {ct : ConnectionType} {rc : Bool}
  {direction : Direction} {compat : Compatibility} {m : ClientMessage} {sm : ServerMessage}

theorem ClientExchanged.consistent {o : ConfigurationOptional} {v : View G.sig} {config : Configuration}
    {message : ServerMessageV2} {tls : TlsConfig} (h : ClientExchanged G credentials ct rc o direction compat m sm v)
    (hsm : sm.toV2 = some message) (htype : config.tlsAuthType = o.tlsAuthType.getD .any)
    (htls : C.endpointConfig credentials message.credentials compat config false = .ok tls) :
    Consistent m.credentials sm.credentials tls := by
  obtain ⟨td, -, htd, -, hm, -⟩ := clientMessage_ok h.message
  obtain ⟨⟨identity, hpeer, hverifier⟩, hown⟩ := Crypto.fits_of_endpointConfig htls
  rw [htype, toTaggedData_getD] at hown
  constructor
  · rw [hm, hown td htd]
  · refine ⟨identity, ?_, hverifier⟩
    unfold ServerMessage.credentials
    rw [hsm, Option.map_some, hpeer]

/-- The server has made its endpoint with the credentials it announced. -/
theorem ServerExchanged.consistent {build : Build} {sockets : Sockets}
    {describe : NegotiateError → Text} {generate : Except Text Credentials} {manager : Manager} {config : Configuration}
    {v : View H.sig}
    (h : ServerExchanged H E (C.platform true build sockets) describe generate manager compat config m sm v) :
    ∃ ours m2 tls, generate = .ok ours ∧ m.toV2 = some m2 ∧
      C.endpointConfig ours m2.credentials compat config true = .ok tls ∧
      Consistent sm.credentials m.credentials tls := by
  obtain ⟨m2, hm, hanswer⟩ := h.answers
  obtain ⟨-, ours, port, warning, hours, hend, hmessage⟩ := parts_of_answer hanswer
  obtain ⟨_, htls, -⟩ := (Configuration.bind_eq_ok _ _ _).1 hend
  obtain ⟨tls, htls⟩ : ∃ tls, C.endpointConfig ours m2.credentials compat config true = .ok tls := by
    cases he : C.endpointConfig ours m2.credentials compat config true with
    | error e =>
      have hp : (C.endpointConfig ours m2.credentials compat config true).map (fun _ => ()) = .ok _ :=
        (mapError_eq_ok _ _ _).1 htls
      rw [he] at hp
      cases hp
    | ok tls => exact ⟨tls, rfl⟩
  refine ⟨ours, m2, tls, hours, hm, htls, ?_⟩
  obtain ⟨td, -, htd, -, hsm, -⟩ := serverMessage_says hmessage
  obtain ⟨⟨identity, hpeer, hverifier⟩, hown⟩ := Crypto.fits_of_endpointConfig htls
  constructor
  · rw [hsm, hown td htd]
  · refine ⟨identity, ?_, hverifier⟩
    unfold ClientMessage.credentials
    rw [hm, Option.map_some, hpeer]

/-! ## Both sides -/

/-- **What either side has read of the other is what the other sent.** -/
theorem exchanged_same {P : Platform} {o : ConfigurationOptional} {describe : NegotiateError → Text}
    {generate : Except Text Credentials} {manager : Manager} {compat' : Compatibility} {config' : Configuration}
    {m' : ClientMessage} {sm' : ServerMessage} {v : View G.sig} {w : View H.sig}
    (hc : ClientExchanged G credentials ct rc o direction compat m sm v)
    (hs : ServerExchanged H E P describe generate manager compat' config' m' sm' w)
    (hl : v.taken <+: w.tried.flatMap Msg.enc) (hr : w.taken <+: v.tried.flatMap Msg.enc) : m' = m ∧ sm = sm' := by
  obtain ⟨bs, gb, mb, g, htaken, hbs, hg, hmb⟩ := hc.taken
  obtain ⟨gb', mb', g', htaken', hg', hmb'⟩ := hs.taken
  obtain ⟨cg, htried⟩ := hc.tried
  obtain ⟨sg, htried'⟩ := hs.tried
  constructor
  · rw [htaken', htried, List.flatMap_cons, List.flatMap_cons, List.flatMap_nil] at hr
    obtain ⟨-, -, hrest⟩ := hg'.of_sent (ClientGreeting.fits cg) (ClientGreeting.readsBack cg) hr
    exact (hmb'.of_sent (x := []) hc.fits (clientMessage_readsBack hc.message hc.fits)
      (by rw [List.append_nil]; exact hrest)).1
  · obtain ⟨_, -, hanswer⟩ := hs.answers
    obtain ⟨-, _, _, _, -, -, hmessage⟩ := parts_of_answer hanswer
    rw [htaken, htried', List.flatMap_cons, List.append_assoc] at hl
    -- the banner is as long as what was read in its place
    obtain ⟨rest, hrest⟩ := hl
    rw [List.append_assoc] at hrest
    obtain ⟨-, hl⟩ := List.append_inj hrest hbs
    have hl' : frame gb ++ frame mb <+: [Msg.serverGreeting sg, .serverMessage sm'].flatMap Msg.enc := ⟨rest, hl⟩
    rw [List.flatMap_cons, List.flatMap_cons, List.flatMap_nil] at hl'
    obtain ⟨-, -, hrest⟩ := hg.of_sent (ServerGreeting.fits sg) (ServerGreeting.readsBack sg) hl'
    exact (hmb.of_sent (x := []) hs.fits (serverMessage_readsBack hmessage hs.fits)
      (by rw [List.append_nil]; exact hrest)).1

end Sides

/-- All that a client is started with. -/
structure ClientSide where
  crypto : Crypto
  explain : ConfigError ⊕ ValidationError → Text
  credentials : Credentials
  connectionType : ConnectionType
  manager : Manager
  remoteDebug : Bool
  remoteConfig : Bool
  direction : Direction
  forceCompat : Option Compatibility

namespace ClientSide

def run (H : Host) (E : EngRepr) (c : ClientSide) : Act H (Configuration × Compatibility × ServerMessageV2) :=
  Cli.runClient E c.explain c.credentials c.connectionType c.manager c.remoteDebug c.remoteConfig c.direction
    c.forceCompat

/-- The configuration of the endpoint that the client goes on to make. -/
def Makes (c : ClientSide) (r : Configuration × Compatibility × ServerMessageV2) (tls : TlsConfig) : Prop :=
  c.crypto.endpointConfig c.credentials r.2.2.credentials r.2.1 r.1 false = .ok tls

/-- **Whatever its server is**, a client presents what it has announced, and accepts what the server announced. -/
def Keeps (c : ClientSide) (H : Host) (E : EngRepr) : Prop :=
  ∀ (w : World) (r : Configuration × Compatibility × ServerMessageV2) (s : Local H.sig),
    Steps (c.run H E, Local.init w) (.ret (.ok r), s) →
    ∃ m sm, (∀ m', .clientMessage m' ∈ s.sent ↔ m' = m) ∧ (∀ sm', .serverMessage sm' ∈ s.got ↔ sm' = sm) ∧
      ∀ tls, c.Makes r tls → Consistent m.credentials sm.credentials tls

end ClientSide

/-- All that a server is started with. -/
structure ServerSide where
  crypto : Crypto
  build : Build
  sockets : Sockets
  describe : NegotiateError → Text
  generate : Except Text Credentials
  setupTracing : Bool → Except Text Unit
  manager : Manager
  forceCompat : Option Compatibility

namespace ServerSide

def platform (c : ServerSide) : Platform := c.crypto.platform true c.build c.sockets

def run (H : Host) (E : EngRepr) (c : ServerSide) : Act H (Compatibility × Configuration) :=
  ControlChannel.runServer E c.platform c.describe c.generate c.setupTracing c.manager c.forceCompat

/-- The configuration of the endpoint that the server has made for a client's message. -/
def Makes (c : ServerSide) (r : Compatibility × Configuration) (m : ClientMessage) (tls : TlsConfig) : Prop :=
  ∃ ours m2, c.generate = .ok ours ∧ m.toV2 = some m2 ∧
    c.crypto.endpointConfig ours m2.credentials r.1 r.2 true = .ok tls

/-- **Whatever its client is**, a server has an endpoint that presents what it announces, and accepts what the client
announced. -/
def Keeps (c : ServerSide) (H : Host) (E : EngRepr) : Prop :=
  ∀ (w : World) (r : Compatibility × Configuration) (s : Local H.sig), Steps (c.run H E, Local.init w)
    (.ret (.ok r), s) →
    ∃ m sm tls, (∀ sm', .serverMessage sm' ∈ s.sent ↔ sm' = sm) ∧ (∀ m', .clientMessage m' ∈ s.got ↔ m' = m) ∧
      c.Makes r m tls ∧ Consistent sm.credentials m.credentials tls

end ServerSide

/-- Each end's verifier was built for what the other end presents. -/
def MutuallyAccepted (G H : Host) (E : EngRepr) (client : ClientSide) (server : ServerSide) : Prop :=
  ∀ (v w : World) (x : Pair G.sig H.sig (Except Err (Configuration × Compatibility × ServerMessageV2))
      (Except Err (Compatibility × Configuration))), Pair.Reach (client.run G E) (server.run H E) v w x →
    ∀ r r', x.1.1 = .ret (.ok r) → x.2.1 = .ret (.ok r') →
      ∃ m theirs, .clientMessage m ∈ x.2.2.got ∧ server.Makes r' m theirs ∧ ∀ tls, client.Makes r tls →
        theirs.verifier = tls.identity.verifier ∧ tls.verifier = theirs.identity.verifier

/-! ## A run of both -/

section Possible

variable {G H : Host} {E : EngRepr} {m : ClientMessage} {sm : ServerMessage}

theorem Gives.serverAnswers {P : Platform} {describe : NegotiateError → Text} {generate : Except Text Credentials}
    {compat : Compatibility} {manager : Manager} {m2 : ClientMessageV2} {config : Configuration} {s : Local H.sig}
    (hsend : s.sendLost = false) (hrecv : s.recvLost = false) (hf : ClientMessage.form.Fits m)
    (hb : ClientMessage.form.ReadsBack m) (hm : m.toV2 = some m2)
    (hr : serverRespond E P describe generate compat manager m2 = .answer config sm)
    (hsf : ServerMessage.form.Fits sm) :
    Gives (runServerInner E P describe generate compat manager : Act H _) s config
      ((hear ClientMessage.form m s).push (.sent (.serverMessage sm))) := by
  have hread : Gives (serverReadClientMessage : Act H _) s m2 (hear ClientMessage.form m s) := by
    apply Gives.then (Gives.attempt (Gives.reader hf hb hrecv))
    cases m with
    | toFollow => cases hm
    | v1 m => cases hm; exact Gives.pure _ _
    | v2 m => cases hm; exact Gives.pure _ _
  apply Gives.then hread
  rw [ControlChannel.serverReply_eq, hr]
  exact Gives.then (Gives.then (Gives.channelSend hsf hsend) Gives.flushed) (Gives.pure _ _)

theorem Gives.clientReads {sm2 : ServerMessageV2} {s : Local G.sig} (hrecv : s.recvLost = false)
    (hf : ServerMessage.form.Fits sm) (hb : ServerMessage.form.ReadsBack sm) (hsm : sm.toV2 = some sm2) :
    Gives (clientReadServerMessage : Act G _) s sm2 (hear ServerMessage.form sm s) := by
  apply Gives.then (Gives.reader hf hb hrecv)
  cases sm with
  | toFollow => cases hsm
  | failure f => cases hsm
  | v1 m => cases hsm; exact Gives.pure _ _
  | v2 m => cases hsm; exact Gives.pure _ _

/-- What it takes of the two of them. -/
structure ComeOff (E : EngRepr) (client : ClientSide) (server : ServerSide) (m : ClientMessage) (sm : ServerMessage)
    (r : Configuration × Compatibility × ServerMessageV2) (r' : Compatibility × Configuration) : Prop where
  valid : (client.manager.applySystemDefault E).validateConfiguration E = .ok ()
  clientLevel : r.2.1 = processCompatibilityLevels (advertised server.forceCompat)
  serverLevel : r'.1 = processCompatibilityLevels (advertised client.forceCompat)
  message : clientMessage r.2.1 client.credentials client.connectionType client.remoteConfig
    (client.manager.preferences E) client.direction = .ok m
  fits : ClientMessage.form.Fits m
  traced : server.setupTracing client.remoteDebug = .ok ()
  answers : ∃ m2, m.toV2 = some m2 ∧ serverRespond E server.platform server.describe
    server.generate r'.1 server.manager m2 = .answer r'.2 sm
  serverFits : ServerMessage.form.Fits sm
  learned : sm.toV2 = some r.2.2 ∧ r.2.2.learned E client.manager = .ok r.1

variable {client : ClientSide} {server : ServerSide} {r : Configuration × Compatibility × ServerMessageV2}
  {r' : Compatibility × Configuration}

def ServerSide.greeting (c : ServerSide) : ServerGreeting := ⟨advertised c.forceCompat, 0⟩

def ClientSide.greeting (c : ClientSide) : ClientGreeting := ⟨advertised c.forceCompat, c.remoteDebug, 0⟩

/-- What is left to a server that has greeted. -/
def ServerSide.attend (H : Host) (E : EngRepr) (c : ServerSide) : Act H (Compatibility × Configuration) := do
  let reply ← fromReaderFramed ClientGreeting.form
  Act.ofExcept .other (c.setupTracing reply.debug)
  let config ← runServerInner E c.platform c.describe c.generate
    (processCompatibilityLevels reply.compatibility) c.manager
  return (processCompatibilityLevels reply.compatibility, config)

/-- What is left to a client that has sent its message. -/
def ClientSide.learn (G : Host) (E : EngRepr) (c : ClientSide) (compat : Compatibility) :
    Act G (Configuration × Compatibility × ServerMessageV2) := do
  let message ← clientReadServerMessage
  let config ← Act.ofExcept (fun _ => .other assemblingText) (message.learned E c.manager)
  return (config, compat, message)

/-- A server that has said its banner and greeted. -/
def ServerSide.greeted (H : Host) (c : ServerSide) (w : World) : Local H.sig :=
  ((Local.init w).push (.sent (Msg.banner bannerText))).push (.sent (Msg.serverGreeting c.greeting))

/-- A client that has been greeted, has greeted, and has sent its message. -/
def ClientSide.asked (G : Host) (c : ClientSide) (sg : ServerGreeting) (m : ClientMessage) (v : World) : Local G.sig :=
  (hear ServerGreeting.form sg ((hearBanner (Local.init v)).push (.sent (Msg.clientGreeting c.greeting)))).push
    (.sent (.clientMessage m))

theorem ServerSide.greets (server : ServerSide) (w : World) :
    Steps (server.run H E, Local.init w) (server.attend H E, server.greeted H w) := by
  have hrun : server.run H E = (do
      Act.ofExcept .io (← Task.send (.banner bannerText))
      ControlChannel.send ServerGreeting.form server.greeting
      server.attend H E : Act H _) := by
    show ControlChannel.runServer _ _ _ _ _ _ _ = _
    unfold ControlChannel.runServer serverExchangeGreetings
    simp only [Task.bind_assoc]
    rfl
  rw [hrun]
  apply Gives.steps (Gives.send (S := H.sig) rfl)
  apply Gives.steps (Gives.pure () _)
  exact Gives.steps (Gives.channelSend (ServerGreeting.fits _) rfl) .refl

theorem ComeOff.asks (h : ComeOff E client server m sm r r') (v : World) :
    Steps (client.run G E, Local.init v) (client.learn G E r.2.1, client.asked G server.greeting m v) := by
  have hrun : client.run G E = (do
      Act.ofExcept (fun e => .other (client.explain e)) ((client.manager.applySystemDefault E).validateConfiguration E)
      ControlChannel.waitForBanner
      ControlChannel.send ClientGreeting.form client.greeting
      let reply ← fromReaderFramed ServerGreeting.form
      clientSendMessage (processCompatibilityLevels reply.compatibility) client.credentials client.connectionType
        client.remoteConfig (client.manager.preferences E) client.direction
      client.learn G E (processCompatibilityLevels reply.compatibility) : Act G _) := by
    show Cli.runClient _ _ _ _ _ _ _ _ _ = _
    unfold Cli.runClient ControlChannel.runClient clientExchangeGreetings
    simp only [Task.bind_assoc]
    rfl
  have hlevel : processCompatibilityLevels server.greeting.compatibility = r.2.1 := h.clientLevel.symm
  rw [hrun, h.valid]
  apply Gives.steps (Gives.pure () _)
  apply Gives.steps (Gives.waitForBanner rfl)
  apply Gives.steps (Gives.channelSend (ClientGreeting.fits _) rfl)
  apply Gives.steps (Gives.reader (ServerGreeting.fits server.greeting) (ServerGreeting.readsBack server.greeting) rfl)
  rw [hlevel, clientSendMessage_eq, h.message]
  exact Gives.steps (Gives.channelSend h.fits rfl) .refl

theorem ComeOff.attended (h : ComeOff E client server m sm r r') (w : World) :
    Gives (server.attend H E) (server.greeted H w) r'
      ((hear ClientMessage.form m (hear ClientGreeting.form client.greeting (server.greeted H w))).push
        (.sent (.serverMessage sm))) := by
  obtain ⟨m2, hm2, hanswer⟩ := h.answers
  have hlevel : processCompatibilityLevels client.greeting.compatibility = r'.1 := h.serverLevel.symm
  have htraced : server.setupTracing client.greeting.debug = .ok () := h.traced
  apply Gives.then (Gives.reader (ClientGreeting.fits client.greeting) (ClientGreeting.readsBack client.greeting) rfl)
  rw [htraced, hlevel]
  apply Gives.then (Gives.pure () _)
  apply Gives.then
    (Gives.serverAnswers rfl rfl h.fits (clientMessage_readsBack h.message h.fits) hm2 hanswer h.serverFits)
  exact Gives.pure _ _

theorem ComeOff.learns (h : ComeOff E client server m sm r r') (v : World) :
    Gives (client.learn G E r.2.1) (client.asked G server.greeting m v) r
      (hear ServerMessage.form sm (client.asked G server.greeting m v)) := by
  obtain ⟨m2, -, hanswer⟩ := h.answers
  obtain ⟨-, _, _, _, -, -, hmessage⟩ := parts_of_answer hanswer
  apply Gives.then (Gives.clientReads rfl h.serverFits (serverMessage_readsBack hmessage h.serverFits) h.learned.1)
  rw [h.learned.2]
  apply Gives.then (Gives.pure _ _)
  exact Gives.pure _ _

theorem exists_exchanged (v w : World) (h : ComeOff E client server m sm r r') :
    ∃ x, Pair.Reach (client.run G E) (server.run H E) v w x ∧ x.1.1 = .ret (.ok r) ∧ x.2.1 = .ret (.ok r') := by
  -- the server greets, the client greets and asks, the server answers, the client learns
  refine ⟨_, (((Pair.Reach.right .refl (server.greets w) ?_).left (h.asks v) ?_).right (h.attended w) ?_).left
    (h.learns v) ?_, rfl, rfl⟩
  · exact List.nil_prefix
  · simp only [ClientSide.asked, ServerSide.greeted, taken_hear, Local.taken_push, taken_hearBanner, Local.taken_init,
      Local.out_push, Local.out_init, Proc.Event.read, Proc.Event.wrote, List.nil_append, List.append_nil]
    exact List.prefix_refl _
  · simp only [ClientSide.asked, ServerSide.greeted, taken_hear, out_hear, Local.taken_push, Local.taken_init,
      Local.out_push,
      out_hearBanner, Local.out_init, Proc.Event.read, Proc.Event.wrote, List.nil_append, List.append_nil]
    exact List.prefix_refl _
  · simp only [ClientSide.asked, ServerSide.greeted, taken_hear, out_hear, Local.taken_push, taken_hearBanner,
      Local.taken_init, Local.out_push, Local.out_init, Proc.Event.read, Proc.Event.wrote, List.nil_append,
      List.append_nil]
    exact List.prefix_refl _

end Possible

section BothEnds

variable (G H : Host) (E : EngRepr) (client : ClientSide) (server : ServerSide)

theorem keeps_client : client.Keeps G E := by
  intro w r s hs
  obtain ⟨m, sm, hdone, hsm, htype⟩ := (Ok.cliRunClient (H := G) E client.explain client.credentials
    client.connectionType client.manager client.remoteDebug client.remoteConfig client.direction
    client.forceCompat w).run_ok hs
  obtain ⟨g, hsent⟩ := hdone.sent
  obtain ⟨g', hgot⟩ := hdone.got
  have hsent : s.sent = _ := hsent
  have hgot : s.got = _ := hgot
  refine ⟨m, sm, fun m' => ?_, fun sm' => ?_, fun tls htls => hdone.consistent hsm htype htls⟩
  · rw [hsent]
    simp
  · rw [hgot]
    simp

theorem keeps_server : server.Keeps H E := by
  intro w r s hs
  obtain ⟨m, sm, hdone⟩ := (Ok.serverExchanges (H := H) E server.platform server.describe
    server.generate server.setupTracing server.manager server.forceCompat w).run_ok hs
  obtain ⟨g, hsent⟩ := hdone.sent
  obtain ⟨g', hgot⟩ := hdone.got
  have hsent : s.sent = _ := hsent
  have hgot : s.got = _ := hgot
  obtain ⟨ours, m2, tls, hours, hm, htls, hc⟩ := hdone.consistent
  refine ⟨m, sm, tls, fun sm' => ?_, fun m' => ?_, ⟨ours, m2, hours, hm, htls⟩, hc⟩
  · rw [hsent]
    simp
  · rw [hgot]
    simp

/-- **What either side announces is what it presents**, whoever its peer is and whichever level they have come to; so
two ends of this program accept each other. -/
theorem credentials_consistent : client.Keeps G E ∧ server.Keeps H E ∧ MutuallyAccepted G H E client server := by
  refine ⟨keeps_client G E client, keeps_server H E server, fun v w x hx r r' hr hr' => ?_⟩
  obtain ⟨⟨p, s⟩, ⟨q, t⟩⟩ := x
  simp only at hr hr'
  subst hr hr'
  obtain ⟨h1, h2, -, -⟩ := Pair.reach hx
  obtain ⟨m, sm, hdone, hsm, htype⟩ := (Ok.cliRunClient (H := G) E client.explain client.credentials
    client.connectionType client.manager client.remoteDebug client.remoteConfig client.direction
    client.forceCompat v).run_ok h1
  obtain ⟨m', sm', hdone'⟩ := (Ok.serverExchanges (H := H) E server.platform server.describe
    server.generate server.setupTracing server.manager server.forceCompat w).run_ok h2
  obtain ⟨rfl, rfl⟩ := exchanged_same hdone hdone' (Pair.taken_left hx) (Pair.taken_right hx)
  obtain ⟨ours, m2, theirs, hours, hm, htheirs, hpresents, identity, hclient, hverifier⟩ := hdone'.consistent
  obtain ⟨g, hgot⟩ := hdone'.got
  have hgot : t.got = _ := hgot
  refine ⟨m', theirs, by rw [hgot]; simp, ⟨ours, m2, hours, hm, htheirs⟩, fun tls htls => ?_⟩
  obtain ⟨hpresents', identity', hserver, hverifier'⟩ := hdone.consistent hsm htype htls
  constructor
  · rw [hverifier]
    exact Identity.verifier_injective _ _ (Option.some.inj (hclient.symm.trans hpresents'))
  · rw [hverifier']
    exact Identity.verifier_injective _ _ (Option.some.inj (hserver.symm.trans hpresents))

end BothEnds

/-- A client with raw public keys, and a server that is made to present a certificate. -/
def keyClient : ClientSide where
  crypto := knownCrypto
  explain := fun _ => []
  credentials := clientCredentials
  connectionType := .ipv4
  manager := bareManager
  remoteDebug := false
  remoteConfig := false
  direction := .both
  forceCompat := none

def certificateServer : ServerSide where
  crypto := knownCrypto
  build := releaseBuild
  sockets := freeSockets
  describe := fun _ => []
  generate := .ok serverCredentials
  setupTracing := fun _ => .ok ()
  manager := .ofOptional EngRepr.decimal { ConfigurationOptional.empty with tlsAuthType := some .x509 }
  forceCompat := none

set_option maxRecDepth 20000 in
/-- What the two say to each other, and what they make of it. -/
theorem keyClient_says : ∃ m m2 config sm sm2 final,
    clientMessage (.level 4) clientCredentials .ipv4 false (bareManager.preferences EngRepr.decimal) .both = .ok m ∧
      ClientMessage.form.Fits m ∧ m.toV2 = some m2 ∧
      serverRespond EngRepr.decimal certificateServer.platform certificateServer.describe certificateServer.generate
        (.level 4) certificateServer.manager m2 = .answer config sm ∧
      ServerMessage.form.Fits sm ∧ sm.toV2 = some sm2 ∧ sm2.learned EngRepr.decimal bareManager = .ok final ∧
      keyClient.Makes (final, .level 4, sm2) ⟨.webPki serverCertificate, .rawPublicKey clientKey⟩ :=
  ⟨_, _, _, _, _, _, rfl, by decide +kernel, rfl, rfl, by decide +kernel, rfl, rfl, rfl⟩

theorem credentials_consistent_keyClient : ∃ x r r' m theirs,
    Pair.Reach (keyClient.run anyHost EngRepr.decimal) (certificateServer.run anyHost EngRepr.decimal)
      (fun _ => none) (fun _ => none) x ∧ x.1.1 = .ret (.ok r) ∧ x.2.1 = .ret (.ok r') ∧
      certificateServer.Makes r' m theirs ∧ theirs.verifier = .rawPublicKey clientKey ∧
      theirs.identity.verifier = .webPki serverCertificate := by
  obtain ⟨m, m2, config, sm, sm2, final, h1, h2, h3, h4, h5, h6, h7, hmakes⟩ := keyClient_says
  have h : ComeOff EngRepr.decimal keyClient certificateServer m sm (final, .level 4, sm2) (.level 4, config) :=
    ⟨rfl, rfl, rfl, h1, h2, rfl, ⟨m2, h3, h4⟩, h5, h6, h7⟩
  obtain ⟨x, hx, hr, hr'⟩ := exists_exchanged (G := anyHost) (H := anyHost) (fun _ => none) (fun _ => none) h
  obtain ⟨-, -, haccepted⟩ := credentials_consistent anyHost anyHost EngRepr.decimal keyClient certificateServer
  obtain ⟨m', theirs, -, htheirs, hboth⟩ := haccepted _ _ x hx _ _ hr hr'
  obtain ⟨hclient, hserver⟩ := hboth _ hmakes
  exact ⟨x, _, _, m', theirs, hx, hr, hr', htheirs, hclient, hserver.symm⟩

end Qcp
