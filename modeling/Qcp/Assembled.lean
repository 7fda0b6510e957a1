import Qcp.Reply
/-!
# Assembled — the configuration a client goes on with

A client validates its configuration before it opens the control channel; the server's message is merged in
afterwards, and what is read then is not validated again.  `assembled_valid_iff` says which messages leave it valid,
whether an endpoint is made of it or its windows are too much for the client; `sound_of_answer` says that this
program's own server sends no other.
-/
namespace Qcp

open Bare (Bytes Text)
open Proc (Steps Task View Local Ok Gives)
open Layers (Dict)

open ControlChannel

/-! ## What the message states -/

namespace ServerMessageV2

/-- What the server's message has to state: the rates of both ways and a round trip that passes validation. -/
structure Sound (m : ServerMessageV2) : Prop where
  rx : minimumBandwidth ≤ m.bandwidthToClient
  rtt : 0 < m.rtt
  rxFits : m.bandwidthToClient.toNat * m.rtt.toNat < 2 ^ 64
  tx : m.bandwidthToServer = 0 ∨ minimumBandwidth ≤ m.bandwidthToServer
  txFits : m.bandwidthToServer.toNat * m.rtt.toNat < 2 ^ 64

/-- An attribute states a controller, a window or a timeout, and nothing else. -/
theorem addAttribute_other {d d' : Dict Key Value} {attr : TaggedData} (h : addAttribute d attr = .ok d') {k : Key}
    (h1 : k ≠ .congestion) (h2 : k ≠ .initialCongestionWindow) (h3 : k ≠ .timeout) : d' k = d k := by
  unfold addAttribute at h
  split at h
  · cases h; exact Layers.Dict.insert_of_ne _ _ h1
  · cases h; exact Layers.Dict.insert_of_ne _ _ h2
  · cases h; exact Layers.Dict.insert_of_ne _ _ h3
  · cases h; rfl
  · cases h; rfl
  · cases h

theorem foldlM_addAttribute_other {k : Key} (h1 : k ≠ .congestion) (h2 : k ≠ .initialCongestionWindow)
    (h3 : k ≠ .timeout) : ∀ (attrs : List TaggedData) (d d' : Dict Key Value),
    attrs.foldlM addAttribute d = .ok d' → d' k = d k
  | [], _, _, h => by cases h; rfl
  | attr :: attrs, d, d', h => by
    rw [List.foldlM_cons] at h
    obtain ⟨e, he, hrest⟩ := (Configuration.bind_eq_ok _ _ _).1 h
    rw [foldlM_addAttribute_other h1 h2 h3 attrs e d' hrest, addAttribute_other he h1 h2 h3]

/-- The rates are always stated. -/
theorem data_rates {m : ServerMessageV2} {dict : Dict Key Value} (h : m.data = .ok dict) :
    dict .rx = some (.num m.bandwidthToClient) ∧ dict .tx = some (.num m.bandwidthToServer) ∧
      dict .rtt = some (.num m.rtt.toUInt64) :=
  ⟨foldlM_addAttribute_other (by decide) (by decide) (by decide) _ _ _ h,
    foldlM_addAttribute_other (by decide) (by decide) (by decide) _ _ _ h,
    foldlM_addAttribute_other (by decide) (by decide) (by decide) _ _ _ h⟩

/-- The sizes never are. -/
theorem data_sizes {m : ServerMessageV2} {dict : Dict Key Value} (h : m.data = .ok dict) (k : Key)
    (hk : k = .udpBuffer ∨ k = .minMtu ∨ k = .maxMtu ∨ k = .initialMtu) : dict k = none := by
  rcases hk with rfl | rfl | rfl | rfl
  all_goals exact foldlM_addAttribute_other (by decide) (by decide) (by decide) _ _ _ h

end ServerMessageV2

/-! ## What is learned -/

/-- **What a client works with**: the rates of the message, and the sizes of its own. -/
theorem learned_fields {E : EngRepr} {m : ServerMessageV2} {manager : Manager} {own c : Configuration}
    (hown : (manager.applySystemDefault E).get E = .ok own) (hc : m.learned E manager = .ok c) :
    c.rx = m.bandwidthToClient ∧ c.tx = m.bandwidthToServer ∧ c.rtt = m.rtt ∧ (c.Sized ↔ own.Sized) := by
  obtain ⟨data⟩ := manager
  cases data with
  | error e => cases hown
  | ok l =>
    cases hd : m.data with
    | error e =>
      unfold ServerMessageV2.learned ServerMessageV2.mergedInto at hc
      rw [hd] at hc
      cases hc
    | ok dict =>
      have hr := (learned_eq_ok_iff E m l dict hd c).1 hc
      have hro := (Configuration.extract_eq_ok_iff E _ _).1 hown
      obtain ⟨hrx, htx, hrtt⟩ := ServerMessageV2.data_rates hd
      have stated : ∀ (k : Key) (v : Value), dict k = some v → learnedLook E dict l.look k = some v := fun k v h => by
        unfold learnedLook
        rw [h]
        rfl
      have kept : ∀ k : Key, dict k = none →
          learnedLook E dict l.look k = (l.join .dflt (Configuration.systemDefault.toDict E)).look k := fun k h => by
        unfold learnedLook
        rw [h, Layers.Layered.look_join_default]
        rfl
      have hsizes := fun k hk => kept k (ServerMessageV2.data_sizes hd k hk)
      have hudp := (Field.get_congr (Field.udpBuffer E) _ _ (hsizes _ (.inl rfl))).symm.trans hr.udpBuffer
      have hmin := (Field.get_congr Field.minMtu _ _ (hsizes _ (.inr (.inl rfl)))).symm.trans hr.minMtu
      have hmax := (Field.get_congr Field.maxMtu _ _ (hsizes _ (.inr (.inr (.inl rfl))))).symm.trans hr.maxMtu
      have hini := (Field.get_congr Field.initialMtu _ _ (hsizes _ (.inr (.inr (.inr rfl))))).symm.trans hr.initialMtu
      refine ⟨Except.ok.inj (hr.rx.symm.trans (Field.get_of_look _ _ _ _ (stated _ _ hrx) rfl)),
        Except.ok.inj (hr.tx.symm.trans (Field.get_of_look _ _ _ _ (stated _ _ htx) rfl)),
        Except.ok.inj (hr.rtt.symm.trans
        (Field.get_of_look _ _ _ _ (stated _ _ hrtt) (Configuration.readU16_num _))), ?_⟩
      have e1 := Except.ok.inj (hudp.symm.trans hro.udpBuffer)
      have e2 := Except.ok.inj (hmin.symm.trans hro.minMtu)
      have e3 := Except.ok.inj (hmax.symm.trans hro.maxMtu)
      have e4 := Except.ok.inj (hini.symm.trans hro.initialMtu)
      constructor
      · rintro ⟨h1, h2, h3, h4⟩
        exact ⟨e1 ▸ h1, e2 ▸ h2, e3 ▸ h3, e4 ▸ h4⟩
      · rintro ⟨h1, h2, h3, h4⟩
        exact ⟨e1 ▸ h1, e2 ▸ h2, e3 ▸ h3, e4 ▸ h4⟩

/-- **Rates that pass validation are rates that were stated so.** -/
theorem sound_iff {c : Configuration} {m : ServerMessageV2} (hrx : c.rx = m.bandwidthToClient)
    (htx : c.tx = m.bandwidthToServer) (hrtt : c.rtt = m.rtt) : c.Sound ↔ m.Sound := by
  have hgrx : c.getRx = m.bandwidthToClient := hrx
  have hgtx : c.getTx = if m.bandwidthToServer = 0 then m.bandwidthToClient else m.bandwidthToServer := by
    unfold Configuration.getTx
    rw [htx, hgrx]
  constructor
  · rintro ⟨h1, h2, h3, h4, h5⟩
    rw [hgrx] at h1 h3
    rw [hrtt] at h2 h3 h5
    rw [hgtx] at h4 h5
    refine ⟨h1, h2, h3, ?_, ?_⟩
    · by_cases h0 : m.bandwidthToServer = 0
      · exact Or.inl h0
      · rw [if_neg h0] at h4
        exact Or.inr h4
    · by_cases h0 : m.bandwidthToServer = 0
      · rw [h0]
        exact Nat.lt_of_le_of_lt (Nat.le_of_eq (Nat.zero_mul _)) (by decide)
      · rw [if_neg h0] at h5
        exact h5
  · rintro ⟨h1, h2, h3, h4, h5⟩
    refine ⟨by rw [hgrx]; exact h1, by rw [hrtt]; exact h2, by rw [hgrx, hrtt]; exact h3, ?_, ?_⟩
    · rw [hgtx]
      split
      · exact h1
      · rename_i h0
        exact h4.resolve_left h0
    · rw [hgtx, hrtt]
      split
      · exact h3
      · exact h5

/-- **What is learned is valid exactly when the message states sound rates.** -/
theorem learned_valid_iff {E : EngRepr} {m : ServerMessageV2} {manager : Manager} {own c : Configuration}
    (hown : (manager.applySystemDefault E).get E = .ok own) (hv : own.tryValidate = .ok ())
    (hc : m.learned E manager = .ok c) : c.tryValidate = .ok () ↔ m.Sound := by
  obtain ⟨hrx, htx, hrtt, hsized⟩ := learned_fields hown hc
  rw [Configuration.tryValidate_iff, sound_iff hrx htx hrtt]
  exact ⟨fun h => h.1, fun h => ⟨h, hsized.2 (own.tryValidate_iff.1 hv).2⟩⟩

/-! ## This program's own server -/

theorem sound_of_new {compat : Compatibility} {config : Configuration} {port : UInt16} {td : TaggedData}
    {name warning : Text} {sm : ServerMessage} {m : ServerMessageV2} (hv : config.tryValidate = .ok ())
    (h : ServerMessage.new compat config port td name warning = some sm) (hm : sm.toV2 = some m) : m.Sound := by
  obtain ⟨⟨h1, h2, h3, h4, h5⟩, -⟩ := config.tryValidate_iff.1 hv
  have hs : m.bandwidthToServer = config.getRx ∧ m.bandwidthToClient = config.getTx ∧ m.rtt = config.rtt := by
    unfold ServerMessage.new at h
    split at h
    · split at h
      · cases h; cases hm; exact ⟨rfl, rfl, rfl⟩
      · cases h; cases hm; exact ⟨rfl, rfl, rfl⟩
    · cases h
  obtain ⟨e1, e2, e3⟩ := hs
  exact ⟨by rw [e2]; exact h4, by rw [e3]; exact h2, by rw [e2, e3]; exact h5, by rw [e1]; exact Or.inr h1,
    by rw [e1, e3]; exact h3⟩

/-- **A server that validates what it settles on sends sound rates.** -/
theorem sound_of_answer {E : EngRepr} {P : Platform} {describe : NegotiateError → Text}
    {generate : Except Text Credentials} {compat : Compatibility} {manager : Manager} {message : ClientMessageV2}
    {config : Configuration} {sm : ServerMessage} {m : ServerMessageV2}
    (h : serverRespond E P describe generate compat manager message = .answer config sm) (hm : sm.toV2 = some m) :
    m.Sound := by
  obtain ⟨hc, credentials, port, warning, -, -, hsm⟩ := parts_of_answer h
  obtain ⟨td, -, hnew⟩ := serverMessage_ok hsm
  exact sound_of_new (valid_of_combine hc) hnew hm

/-! ## The client's run -/

section Client

variable {H : Host}

def assemblingText : Text := "assembling final client configuration from server message".toList

/-- The control channel, to where the client has its configuration. -/
def establishControlChannel (E : EngRepr) (credentials : Credentials) (connectionType : ConnectionType)
    (manager : Manager) (remoteDebug remoteConfig : Bool) (direction : Direction) :
    Act H (Configuration × Compatibility × ServerMessageV2) := do
  let (compat, message) ← runClient E credentials connectionType manager remoteDebug remoteConfig direction none
  let config ← Act.ofExcept (fun _ => .other assemblingText) (message.learned E manager)
  return (config, compat, message)

/-- What an endpoint may not come of: an error, or a panic. -/
def Err.ofFault : Fault → Err
  | .error e => .other e
  | .panic t => .panicked t

/-- And then to where it has its endpoint: the configuration the endpoint was made with. -/
def createQuicEndpoint (E : EngRepr) (P : Platform) (credentials : Credentials) (connectionType : ConnectionType)
    (manager : Manager) (remoteDebug remoteConfig : Bool) (direction : Direction) : Act H Configuration := do
  let (config, compat, message) ←
    establishControlChannel E credentials connectionType manager remoteDebug remoteConfig direction
  let _ ← Act.ofExcept Err.ofFault
    (createEndpoint P credentials message.credentials connectionType config direction.clientMode compat)
  return config

/-- A client goes on with a configuration: it has an endpoint of it, or panics over it. -/
def GoesOn (E : EngRepr) (manager : Manager) (r : Except Err Configuration) (got : List Msg) (config : Configuration) :
    Prop :=
  r = .ok config ∨
    (∃ t, r = .error (.panicked t)) ∧
      ∃ sm m, .serverMessage sm ∈ got ∧ sm.toV2 = some m ∧ m.learned E manager = .ok config

/-- No more than one message of a server. -/
def OneAnswer (got : List Msg) : Prop := ∀ sm sm', .serverMessage sm ∈ got → .serverMessage sm' ∈ got → sm' = sm

theorem oneAnswer_nil : OneAnswer [] := fun _ _ h => absurd h List.not_mem_nil

theorem oneAnswer_greeting (g : ServerGreeting) : OneAnswer [.serverGreeting g] := fun sm _ h => by
  cases List.mem_singleton.1 h

theorem oneAnswer_greeting_message (g : ServerGreeting) (sm : ServerMessage) :
    OneAnswer [.serverGreeting g, .serverMessage sm] := fun a b ha hb => by
  simp only [List.mem_cons, reduceCtorEq, Msg.serverMessage.injEq, List.not_mem_nil, or_false, false_or] at ha hb
  rw [ha, hb]

/-- What the client has of the server is one message. -/
theorem Ok.clientHears (E : EngRepr) (credentials : Credentials) (ct : ConnectionType) (manager : Manager)
    (remoteDebug remoteConfig : Bool) (direction : Direction) (forceCompat : Option Compatibility) (w : World) :
    Ok (fun v => OneAnswer v.got) (fun r v => ∃ sm, .serverMessage sm ∈ v.got ∧ sm.toV2 = some r.2)
      (ControlChannel.runClient E credentials ct manager remoteDebug remoteConfig direction forceCompat : Act H _)
      (View.init w) := by
  have h0 : OneAnswer [] := oneAnswer_nil
  refine Ok.then (Ok.waitForBanner (fun _ _ => h0) fun bs _ => ?_)
  refine Ok.then (Ok.then (Ok.channelSend h0 (fun _ => h0) ?_))
  refine Ok.then (Ok.reader (fun _ _ => h0) (fun _ g _ _ _ => oneAnswer_greeting g) fun gb g _ _ _ =>
    Ok.pure (oneAnswer_greeting g) ?_)
  have h1 : OneAnswer [.serverGreeting g] := oneAnswer_greeting g
  show Ok _ _ (ControlChannel.clientSendMessage (processCompatibilityLevels g.compatibility) credentials ct remoteConfig
    (manager.preferences E) direction >>= _) _
  rw [ControlChannel.clientSendMessage_eq]
  cases clientMessage (processCompatibilityLevels g.compatibility) credentials ct remoteConfig
    (manager.preferences E) direction with
  | error e => exact Ok.then (Ok.fail h1)
  | ok m =>
    refine Ok.then (Ok.channelSend h1 (fun _ => h1) ?_)
    refine Ok.then (Ok.then (Ok.reader (fun _ _ => h1) (fun _ sm _ _ _ => oneAnswer_greeting_message g sm)
      fun mb sm _ _ _ => ?_))
    have h2 : OneAnswer [.serverGreeting g, .serverMessage sm] := oneAnswer_greeting_message g sm
    have heard : Msg.serverMessage sm ∈ [Msg.serverGreeting g, .serverMessage sm] := by simp
    cases sm with
    | v1 sm => exact Ok.pure h2 (Ok.pure h2 ⟨.v1 sm, heard, rfl⟩)
    | v2 sm => exact Ok.pure h2 (Ok.pure h2 ⟨.v2 sm, heard, rfl⟩)
    | failure f => exact Ok.fail h2
    | toFollow => exact Ok.fail h2

/-- An endpoint is made of what was learned of that message. -/
theorem Ok.assembles (E : EngRepr) (P : Platform) (credentials : Credentials) (ct : ConnectionType)
    (manager : Manager) (remoteDebug remoteConfig : Bool) (direction : Direction) (w : World) :
    Ok (fun v => OneAnswer v.got)
      (fun config v => ∃ sm m, .serverMessage sm ∈ v.got ∧ sm.toV2 = some m ∧ m.learned E manager = .ok config)
      (createQuicEndpoint E P credentials ct manager remoteDebug remoteConfig direction : Act H _)
      (View.init w) := by
  refine Ok.then (Ok.then ((Ok.clientHears E credentials ct manager remoteDebug remoteConfig direction none w).mono
    (fun _ h => h) fun r v hone hr => ?_))
  obtain ⟨sm, hsm, h2⟩ := hr
  refine Ok.then (Ok.ofExcept hone fun c hc => Ok.pure hone ?_)
  exact Ok.then (Ok.ofExcept hone fun _ _ => Ok.pure hone ⟨sm, _, hsm, h2, hc⟩)

/-- **The configuration a client goes on with** is valid exactly when the server's message states sound rates; and
then its windows do not overflow. -/
theorem assembled_valid_iff (E : EngRepr) (P : Platform) (credentials : Credentials) (ct : ConnectionType)
    (manager : Manager) (remoteDebug remoteConfig : Bool) (direction : Direction) (own config : Configuration)
    (w : World)
    (r : Except Err Configuration) (s : Local H.sig) (hown : (manager.applySystemDefault E).get E = .ok own)
    (hv : own.tryValidate = .ok ())
    (hs : Steps ((createQuicEndpoint E P credentials ct manager remoteDebug remoteConfig direction :
      Act H _), Local.init w) (.ret r, s)) (hr : GoesOn E manager r s.got config) :
    (config.tryValidate = .ok () ↔ ∀ sm m, .serverMessage sm ∈ s.got → sm.toV2 = some m → m.Sound) ∧
      (config.tryValidate = .ok () → config.recvWindow.isSome = true ∧ config.sendWindow.isSome = true) := by
  have hok := Ok.assembles (H := H) E P credentials ct manager remoteDebug remoteConfig direction w
  obtain ⟨sm, m, hsm, hm, hc⟩ :
      ∃ sm m, .serverMessage sm ∈ s.got ∧ sm.toV2 = some m ∧ m.learned E manager = .ok config := by
    rcases hr with rfl | ⟨-, h⟩
    · exact hok.run_ok hs
    · exact h
  refine ⟨?_, config.windows_of_tryValidate⟩
  rw [learned_valid_iff hown hv hc]
  refine ⟨fun h sm' m' hsm' hm' => ?_, fun h => h sm m hsm hm⟩
  cases hok.run hs sm sm' hsm hsm'
  cases hm.symm.trans hm'
  exact h

end Client

/-! ## A server that states anything -/

def bareManager : Manager := .ofOptional EngRepr.decimal .empty

/-- A server's message of so much to the client in a second, and a round trip of a second. -/
def statedMessage (bandwidthToClient : UInt64) : ServerMessageV2 :=
  ⟨60000, ⟨CredentialsType.rawPublicKey.toRepr, .bytes serverKey⟩, "server".toList, 0, bandwidthToClient, 1000, [], 0⟩

/-- What the client then works with. -/
def statedConfiguration (bandwidthToClient : UInt64) : Configuration :=
  { Configuration.systemDefault with rx := bandwidthToClient, rtt := 1000 }

/-- A client of level 4 makes its endpoint with it. -/
theorem assembling_run {rate : UInt64} (hf : ServerMessage.form.Fits (.v2 (statedMessage rate)))
    (hl : (statedMessage rate).learned EngRepr.decimal bareManager = .ok (statedConfiguration rate))
    (hend : createEndpoint clientPlatform clientCredentials (statedMessage rate).credentials .ipv4
      (statedConfiguration rate) .both (processCompatibilityLevels 4) = .ok (60000, none)) :
    ∃ s, Steps ((createQuicEndpoint EngRepr.decimal clientPlatform clientCredentials .ipv4 bareManager false
    false .both :
      Act anyHost _), Local.init fun _ => none) (.ret (.ok (statedConfiguration rate)), s) := by
  have hm : ∃ m, clientMessage (processCompatibilityLevels 4) clientCredentials .ipv4 false
      (bareManager.preferences EngRepr.decimal) .both = .ok m ∧ ClientMessage.form.Fits m := ⟨_, rfl, by decide⟩
  obtain ⟨m, hm, hmf⟩ := hm
  obtain ⟨s1, greet, hsend1, hrecv1⟩ : ∃ s1, Gives (clientExchangeGreetings false none : Act anyHost _)
      (hearBanner (Local.init fun _ => none)) (⟨4, 0⟩, processCompatibilityLevels 4) s1 ∧ s1.sendLost = false ∧
      s1.recvLost = false :=
    ⟨_, Gives.then (Gives.channelSend (ClientGreeting.fits _) rfl)
      (Gives.then (Gives.reader (F := ServerGreeting.form) (ServerGreeting.fits ⟨4, 0⟩)
      (ServerGreeting.readsBack _) rfl)
        (Gives.pure _ _)), rfl, rfl⟩
  have send : Gives (clientSendMessage (processCompatibilityLevels 4) clientCredentials .ipv4 false
      (bareManager.preferences EngRepr.decimal) .both : Act anyHost _) s1 () (s1.push (.sent (.clientMessage m))) := by
    rw [clientSendMessage_eq, hm]
    exact Gives.channelSend hmf hsend1
  have read := Gives.reader (F := ServerMessage.form) (a := .v2 (statedMessage rate))
    (s := s1.push (.sent (.clientMessage m))) hf (ServerMessageV2.readsBack_of_fits _ serverKey rfl nofun hf) hrecv1
  have run : Gives (ControlChannel.runClient EngRepr.decimal clientCredentials .ipv4 bareManager false false
    .both none :
      Act anyHost _) (Local.init fun _ => none) (processCompatibilityLevels 4, statedMessage rate) _ :=
    Gives.then (Gives.waitForBanner rfl) (Gives.then greet (Gives.then send
      (Gives.then (Gives.then read (Gives.pure _ _)) (Gives.pure _ _))))
  have config : Gives (establishControlChannel EngRepr.decimal clientCredentials .ipv4 bareManager false false .both :
      Act anyHost _) (Local.init fun _ => none)
      (statedConfiguration rate, processCompatibilityLevels 4, statedMessage rate)
      (hear ServerMessage.form (.v2 (statedMessage rate)) (s1.push (.sent (.clientMessage m)))) := by
    apply Gives.then run
    simp only [hl]
    exact Gives.then (Gives.pure _ _) (Gives.pure _ _)
  have endpoint : ∀ t : Local anyHost.sig,
    Gives (Act.ofExcept Err.ofFault (createEndpoint clientPlatform clientCredentials
      (statedMessage rate).credentials .ipv4 (statedConfiguration rate) .both (processCompatibilityLevels 4)) :
        Act anyHost _) t (60000, none) t := fun t => by
    rw [hend]
    exact Gives.pure _ _
  exact ⟨_, Gives.then config (Gives.then (endpoint _) (Gives.pure _ _))⟩

/-- At 8 EiB a second, -/
theorem excessive_run : ∃ s,
    Steps ((createQuicEndpoint EngRepr.decimal clientPlatform clientCredentials .ipv4 bareManager
    false false .both : Act anyHost _), Local.init fun _ => none)
    (.ret (.ok (statedConfiguration 9223372036854775808)), s) :=
  assembling_run (by decide +kernel) rfl rfl

/-- and at 12.5 MB. -/
theorem moderate_run : ∃ s,
    Steps ((createQuicEndpoint EngRepr.decimal clientPlatform clientCredentials .ipv4 bareManager
    false false .both : Act anyHost _), Local.init fun _ => none) (.ret (.ok (statedConfiguration 12500000)), s) :=
  assembling_run (by decide +kernel) rfl rfl

/-- **The configuration of an endpoint may not be valid**, though the client's own is. -/
theorem not_assembled_valid : (bareManager.applySystemDefault EngRepr.decimal).get EngRepr.decimal =
      .ok Configuration.systemDefault ∧ Configuration.systemDefault.tryValidate = .ok () ∧
    ¬ ∀ config s, Steps ((createQuicEndpoint EngRepr.decimal clientPlatform clientCredentials .ipv4 bareManager
    false false
      .both : Act anyHost _), Local.init fun _ => none) (.ret (.ok config), s) → config.tryValidate = .ok () := by
  refine ⟨by rfl, by decide, fun h => ?_⟩
  obtain ⟨s, hs⟩ := excessive_run
  exact absurd (h _ _ hs) (by decide)

/-- What the first has heard is not sound, what the second has is. -/
theorem assembled_valid_iff_default :
    (∃ s : Local anyHost.sig, ¬ ∀ sm m, .serverMessage sm ∈ s.got → sm.toV2 = some m → m.Sound) ∧
      ∃ s : Local anyHost.sig, (∀ sm m, .serverMessage sm ∈ s.got → sm.toV2 = some m → m.Sound) ∧
        (statedConfiguration 12500000).recvWindow.isSome = true ∧
        (statedConfiguration 12500000).sendWindow.isSome = true := by
  obtain ⟨s, hs⟩ := excessive_run
  obtain ⟨t, ht⟩ := moderate_run
  have valid : (statedConfiguration 12500000).tryValidate = .ok () := by decide
  constructor
  · refine ⟨s, fun h => ?_⟩
    exact absurd ((assembled_valid_iff _ _ _ _ _ _ _ _ Configuration.systemDefault _ _ _ _ rfl (by decide) hs
      (.inl rfl)).1.2 h) (by decide)
  · obtain ⟨hiff, hwindows⟩ :=
      assembled_valid_iff _ _ _ _ _ _ _ _ Configuration.systemDefault _ _ _ _ rfl (by decide) ht
      (.inl rfl)
    exact ⟨t, hiff.1 valid, hwindows valid⟩

end Qcp
