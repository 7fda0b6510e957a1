import Qcp.Brief
import Qcp.Endpoint
import Qcp.Opening
/-!
# Reply — whether the client's message is answered

A server is to answer the client's message once: with a message of its own, or with a failure before it gives up
(`AnsweredOnce`).  `answered_iff` says when it does.  It leaves without a word when it has agreed to a message and finds
that it may not send its raw public key to this peer, or when what it has to say is too long for its frame.
-/
namespace Qcp

open Bare (Bytes Text Codec)
open Proc (Runs Task View Local Ends Comes)

open ControlChannel

section Rules

variable {H : Host} {W : Prop} {v : View H.sig}

theorem Ends.channelSend {α : Type} {F : Form α} {a : α} {Q : Except Err Unit → View H.sig → Prop}
    (h : F.Fits a → Q (.ok ()) { v with tried := v.tried ++ [F.msg a], sent := v.sent ++ [F.msg a] })
    (hlong : ¬ F.Fits a → Q (.error (.tooLong (F.codec.enc a).length F.limit)) v)
    (hlost : ¬ W → ∀ e sent, Q (.error (.io e)) { v with tried := v.tried ++ [F.msg a], sent := sent }) :
    Ends W Q (ControlChannel.send F a : Act H Unit) v :=
  Ends.then (Ends.writer (fun hf => Ends.flushed (h hf) fun w e => hlost w e _) hlong fun w e => hlost w e _)

/-- A failure is sent, and then the server gives up: with the error it has, or because the failure is too long. -/
theorem Ends.giveUp {α : Type} {f : ServerFailure} {e : Err} {Q : Except Err α → View H.sig → Prop}
    (h : ServerMessage.form.Fits (.failure f) → Q (.error e) { v with
      tried := v.tried ++ [.serverMessage (.failure f)], sent := v.sent ++ [.serverMessage (.failure f)] })
    (hlong : ¬ ServerMessage.form.Fits (.failure f) → ∀ e, Q (.error e) v) :
    Ends True Q (do ControlChannel.sendError f; Task.fail e : Act H α) v :=
  Ends.then (Ends.channelSend (fun hf => Ends.fail (h hf)) (fun hf => hlong hf _) fun w => absurd trivial w)

end Rules

/-! ## What a server is to answer -/

/-- **One message, and success; or one failure, and an error.** -/
def AnsweredOnce (r : Except Err Configuration) (sent : List Msg) : Prop :=
  (∃ config m, r = .ok config ∧ sent = [.serverMessage m] ∧ ((∃ m1, m = .v1 m1) ∨ ∃ m2, m = .v2 m2)) ∨
    ∃ e f, r = .error e ∧ sent = [.serverMessage (.failure f)]

theorem answeredOnce_failure (e : Err) (f : ServerFailure) : AnsweredOnce (.error e) [.serverMessage (.failure f)] :=
  Or.inr ⟨e, f, rfl, rfl⟩

theorem not_answeredOnce_silent (e : Err) : ¬ AnsweredOnce (.error e) [] := by
  rintro (⟨config, m, h, -⟩ | ⟨e', f, -, h⟩)
  · cases h
  · cases h

section Answerable

variable (E : EngRepr) (P : Platform) (describe : NegotiateError → Text) (credentials : Credentials)
  (compat : Compatibility) (manager : Manager) (message : ClientMessageV2)

/-- Where an endpoint can be made of a configuration, for this message. -/
structure Able (config : Configuration) : Prop where
  tls : P.tls credentials message.credentials config compat = .ok ()
  controller : config.congestion = .newReno → compat.supports .newReno = true
  shows : config.Shows P.build
  socket : ∃ r, P.sockets.bind message.connectionType config message.direction.serverMode = .ok r

/-- What lets a server answer this message. -/
structure Answerable : Prop where
  /-- Preferences that cannot be read are told so, if that is not too long. -/
  legible : ∀ e, manager.getOptional E = .error e →
    ServerMessage.form.Fits (.failure (.negotiationFailed (describe (.config e))))
  /-- Rates that are agreed on can be shown, if they are. -/
  shows : ∀ server config, manager.getOptional E = .ok server →
    Accords (Requests.ofAttributes message.attributes) server config →
    P.tls credentials message.credentials config compat = .ok () →
    (config.congestion = .newReno → compat.supports .newReno = true) → config.Shows P.build
  /-- A server that is to present a raw public key has a peer that can take one. -/
  rawPublicKey : ∀ server config, manager.getOptional E = .ok server →
    Accords (Requests.ofAttributes message.attributes) server config → Able P credentials compat message config →
    server.tlsAuthType = some .rawPublicKey → compat.supports .cmsgSmsg2 = true

variable {E P describe credentials compat manager message}

theorem serverMessage_kind {port : UInt16} {config : Configuration} {warning : Text} {m : ServerMessage}
    (h : serverMessage compat port credentials config warning = .ok m) :
    (∃ m1, m = .v1 m1) ∨ ∃ m2, m = .v2 m2 := by
  obtain ⟨td, htd, h⟩ := serverMessage_ok h
  obtain ⟨⟨bs, hbs⟩, -⟩ := credentials.toTaggedData_ok _ _ td htd
  unfold ServerMessage.new at h
  rw [hbs] at h
  by_cases hs : compat.supports .cmsgSmsg2 = true
  · simp only [hs, if_true] at h
    cases h
    exact Or.inr ⟨_, rfl⟩
  · simp only [hs] at h
    cases h
    exact Or.inl ⟨_, rfl⟩

/-- A server has a message unless it is to send a raw public key to a peer that cannot take it. -/
theorem serverMessage_isOk (compat : Compatibility) {key : Bytes} (hk : credentials.rawPublicKey = .ok key)
    (port : UInt16) (config : Configuration) (warning : Text) :
    (∃ m, serverMessage compat port credentials config warning = .ok m) ↔
    (config.tlsAuthType = .rawPublicKey → compat.supports .cmsgSmsg2 = true) := by
  constructor
  · rintro ⟨m, h⟩ ht
    obtain ⟨td, htd, -⟩ := (Configuration.bind_eq_ok _ _ _).1 h
    unfold Credentials.toTaggedData Credentials.typeTagFor at htd
    simp only [ht] at htd
    split at htd
    · assumption
    · cases htd
  · intro h
    have htd : ∃ td, credentials.toTaggedData compat (some config.tlsAuthType) = .ok td := by
      unfold Credentials.toTaggedData
      split
      · rename_i hany; exact absurd hany (Credentials.typeTagFor_ne_any _ _)
      · exact ⟨_, rfl⟩
      · rename_i hraw
        rw [if_pos, hk]
        · exact ⟨_, rfl⟩
        · cases ht : config.tlsAuthType with
          | rawPublicKey => exact h ht
          | x509 => rw [ht] at hraw; cases hraw
          | any =>
            rw [ht] at hraw
            unfold Credentials.typeTagFor at hraw
            simp only at hraw
            split at hraw
            · assumption
            · cases hraw
    obtain ⟨td, htd⟩ := htd
    obtain ⟨⟨bs, hbs⟩, -⟩ := credentials.toTaggedData_ok _ _ td htd
    obtain ⟨m, hm⟩ := ServerMessage.new_isSome hbs compat config port credentials.hostname warning
    refine ⟨m, ?_⟩
    unfold serverMessage
    rw [htd]
    simp only [bind, Except.bind, hm]
    rfl

theorem kind_of_answer {generate : Except Text Credentials} {config : Configuration} {m : ServerMessage}
    (h : serverRespond E P describe generate compat manager message = .answer config m) :
    (∃ m1, m = .v1 m1) ∨ ∃ m2, m = .v2 m2 := by
  obtain ⟨-, credentials, port, warning, -, -, hm⟩ := parts_of_answer h
  exact serverMessage_kind hm

/-- A reply that gets to the client. -/
def ServerReply.Said : ServerReply → Prop
  | refuse f => ServerMessage.form.Fits (.failure f)
  | abort _ => False
  | panic _ => False
  | answer _ m => ServerMessage.form.Fits m

/-- A server that cannot read its own preferences says so. -/
theorem serverRespond_unread {generate : Except Text Credentials} {e : ConfigError}
    (h : manager.getOptional E = .error e) :
    serverRespond E P describe generate compat manager message =
      .refuse (.negotiationFailed (describe (.config e))) := by
  unfold serverRespond combineBandwidthConfigurations combinedManager
  rw [h]
  rfl

/-- What a valid configuration can bring a server down with is what is shown of it. -/
theorem not_shows_of_panic {config : Configuration} (hv : config.tryValidate = .ok ()) {ct : ConnectionType}
    {mode : ThroughputMode} {peer : TaggedData} {t : Text}
    (h : createEndpoint P credentials peer ct config mode compat = .error (.panic t)) : ¬ config.Shows P.build := by
  intro hs
  have notPanic : ∀ {α : Type} (x : Except Text α), x.mapError Fault.error ≠ .error (.panic t) := fun x h => by
    cases x <;> cases h
  rcases (Configuration.bind_eq_error _ _ _).1 h with h | ⟨_, -, h⟩
  · exact notPanic _ h
  rcases (Configuration.bind_eq_error _ _ _).1 h with h | ⟨_, -, h⟩
  · by_cases hc : config.congestion = .newReno → compat.supports .newReno = true
    · obtain ⟨made, hmade⟩ := Configuration.createConfig_of_shows hv mode hc hs
      cases hmade.symm.trans h
    · obtain ⟨hreno, hlevel⟩ := Classical.not_imp.1 hc
      cases (Configuration.createConfig_refused hv mode hreno (Bool.eq_false_iff.2 hlevel)).symm.trans h
  · exact notPanic _ h

/-- A server that panics has settled on what it cannot show. -/
theorem parts_of_panic {generate : Except Text Credentials} {t : Text}
    (h : serverRespond E P describe generate compat manager message = .panic t) :
    ∃ config, combineBandwidthConfigurations E manager message = .ok config ∧ ¬ config.Shows P.build := by
  unfold serverRespond at h
  split at h
  · cases h
  rename_i config hc
  refine ⟨config, hc, ?_⟩
  cases generate with
  | error e => cases h
  | ok credentials =>
    simp only at h
    split at h
    · cases h
    · rename_i hend
      exact not_shows_of_panic (valid_of_combine hc) hend
    · split at h <;> cases h

variable (compat message) in
/-- What becomes of the endpoint of a valid configuration: it is refused for a reason that can be told, or its rates
cannot be shown, or it is made. -/
theorem Succinct.endpoint (ht : Succinct E describe P credentials) {config : Configuration}
    (hv : config.tryValidate = .ok ()) :
    (∃ e, createEndpoint P credentials message.credentials message.connectionType config message.direction.serverMode
        compat = .error (.error e) ∧ Brief e ∧ ¬ Able P credentials compat message config ∧
        (P.tls credentials message.credentials config compat = .ok () →
          (config.congestion = .newReno → compat.supports .newReno = true) → config.Shows P.build)) ∨
      ((∃ t, createEndpoint P credentials message.credentials message.connectionType config message.direction.serverMode
        compat = .error (.panic t)) ∧ P.tls credentials message.credentials config compat = .ok () ∧
        (config.congestion = .newReno → compat.supports .newReno = true) ∧ ¬ config.Shows P.build) ∨
      ∃ port warning, createEndpoint P credentials message.credentials message.connectionType config
        message.direction.serverMode compat = .ok (port, warning) ∧ Brief (warning.getD []) ∧
        Able P credentials compat message config := by
  unfold createEndpoint
  cases htls : P.tls credentials message.credentials config compat with
  | error e =>
    refine Or.inl ⟨e, rfl, ht.tls _ _ _ _ htls, fun h => ?_, nofun⟩
    cases htls.symm.trans h.tls
  | ok u =>
    by_cases hc : config.congestion = .newReno → compat.supports .newReno = true
    · by_cases hs : config.Shows P.build
      · obtain ⟨t, hmade⟩ := Configuration.createConfig_of_shows hv message.direction.serverMode hc hs
        cases hb : P.sockets.bind message.connectionType config message.direction.serverMode with
        | error e =>
          refine Or.inl ⟨e, by rw [hmade]; rfl, ht.bind_error hb, fun h => ?_, fun _ _ => hs⟩
          obtain ⟨r, hr⟩ := h.socket
          cases hb.symm.trans hr
        | ok r => exact Or.inr (Or.inr ⟨r.1, r.2, by rw [hmade]; rfl, ht.bind_warning hb, htls, hc, hs, r, hb⟩)
      · refine Or.inr (Or.inl ⟨⟨"attempt to multiply with overflow".toList, ?_⟩, rfl, hc, hs⟩)
        rw [Configuration.createConfig_of_not_shows hv message.direction.serverMode hc hs]
        rfl
    · have hreno : config.congestion = .newReno := by_contra fun hn => hc fun h => absurd h hn
      have hlevel : compat.supports .newReno = false := Bool.eq_false_iff.2 fun h => hc fun _ => h
      refine Or.inl ⟨newRenoText, ?_, brief_of_length (by decide), fun h => hc h.controller, fun _ h => absurd h hc⟩
      rw [Configuration.createConfig_refused hv message.direction.serverMode hreno hlevel]
      rfl

variable (E compat manager message) in
/-- **A message is answerable** when the server has an answer to it, and the answer fits. -/
theorem answerable_iff {key : Bytes} (hk : credentials.rawPublicKey = .ok key)
    (ht : Succinct E describe P credentials) :
    Answerable E P describe credentials compat manager message ↔
      (serverRespond E P describe (.ok credentials) compat manager message).Said := by
  cases hs : manager.getOptional E with
  | error e =>
    rw [serverRespond_unread hs]
    refine ⟨fun h => h.legible e hs, fun h => ⟨fun e' he => ?_, fun _ _ hok => ?_, fun _ _ hok => ?_⟩⟩
    · cases hs.symm.trans he
      exact h
    · cases hs.symm.trans hok
    · cases hs.symm.trans hok
  | ok server =>
    have hagreed := combine_eq_ok_iff_accords E manager message server hs
    have legible : ∀ e, manager.getOptional E = .error e →
        ServerMessage.form.Fits (.failure (.negotiationFailed (describe (.config e)))) := fun e he => by
      cases hs.symm.trans he
    unfold serverRespond
    cases hc : combineBandwidthConfigurations E manager message with
    | error e =>
      -- nothing is agreed on
      have none : ∀ s c, manager.getOptional E = .ok s → ¬ Accords (Requests.ofAttributes message.attributes) s c := by
        intro s c hs' ha
        cases hs.symm.trans hs'
        cases hc.symm.trans ((hagreed c).2 ha)
      exact iff_of_true ⟨legible, fun s c hs' ha => absurd ha (none s c hs'), fun s c hs' ha =>
        absurd ha (none s c hs')⟩ (ht.negotiation_fits hs hc)
    | ok config =>
      have ha := (hagreed config).1 hc
      have only : ∀ s c, manager.getOptional E = .ok s → Accords (Requests.ofAttributes message.attributes) s c →
          server = s ∧ config = c := by
        intro s c hs' ha'
        cases hs.symm.trans hs'
        cases hc.symm.trans ((hagreed c).2 ha')
        exact ⟨rfl, rfl⟩
      rcases ht.endpoint compat message ha.valid with ⟨e, hend, hbrief, hunable, hshows⟩ |
        ⟨⟨t, hend⟩, htls, hcontroller, hshows⟩ | ⟨port, warning, hend, hbrief, hable⟩
      · simp only [hend]
        refine iff_of_true ⟨legible, fun s c hs' ha' => ?_, fun s c hs' ha' hable => ?_⟩ (fits_endpointFailed hbrief)
        · obtain ⟨rfl, rfl⟩ := only s c hs' ha'
          exact hshows
        · obtain ⟨rfl, rfl⟩ := only s c hs' ha'
          exact absurd hable hunable
      · simp only [hend]
        exact iff_of_false (fun h => hshows (h.shows server config hs ha htls hcontroller)) id
      · simp only [hend]
        have hkind : config.tlsAuthType = .rawPublicKey ↔ server.tlsAuthType = some .rawPublicKey := by
          rw [ha.settled.tlsAuthType]
          cases server.tlsAuthType with
          | none => exact ⟨nofun, nofun⟩
          | some t => exact ⟨fun h => congrArg some h, fun h => Option.some.inj h⟩
        have hok := serverMessage_isOk compat hk port config (warning.getD [])
        cases hm : serverMessage compat port credentials config (warning.getD []) with
        | error e =>
          refine iff_of_false (fun h => ?_) id
          obtain ⟨m, hm'⟩ := hok.2 fun hraw => h.rawPublicKey server config hs ha hable (hkind.1 hraw)
          cases hm.symm.trans hm'
        | ok m =>
          refine iff_of_true ⟨legible, fun s c hs' ha' _ _ => ?_, fun s c hs' ha' _ hraw => ?_⟩
            (ht.message_fits hbrief hm)
          · obtain ⟨rfl, rfl⟩ := only s c hs' ha'
            exact hable.shows
          · obtain ⟨rfl, rfl⟩ := only s c hs' ha'
            exact hok.1 ⟨m, hm⟩ (hkind.2 hraw)

end Answerable

/-! ## Whether it is answered -/

section Runs

variable {H : Host} {E : EngRepr} {P : Platform} {describe : NegotiateError → Text} {credentials : Credentials}
    {key : Bytes}
  {compat : Compatibility} {manager : Manager}

theorem failure_malformed_fits : ServerMessage.form.Fits (.failure .malformed) := by decide

theorem Ends.serverReply (hk : credentials.rawPublicKey = .ok key) (ht : Succinct E describe P credentials)
    (message : ClientMessageV2) {v : View H.sig} (hs : v.sent = []) : Ends True
      (fun r v' => v'.got = v.got ∧
        (AnsweredOnce r v'.sent ↔ Answerable E P describe credentials compat manager message))
      (ControlChannel.serverReply E P describe (.ok credentials) compat manager message : Act H _) v := by
  have hiff := answerable_iff E compat manager message hk ht
  rw [ControlChannel.serverReply_eq]
  cases hr : serverRespond E P describe (.ok credentials) compat manager message with
  | refuse f =>
    rw [hr] at hiff
    refine Ends.giveUp (fun hf => ⟨rfl, ?_⟩) fun hf e => ⟨rfl, ?_⟩
    · show AnsweredOnce _ (v.sent ++ _) ↔ _
      rw [hs]
      exact ⟨fun _ => hiff.2 hf, fun _ => answeredOnce_failure _ f⟩
    · rw [hs]
      exact ⟨fun h => absurd h (not_answeredOnce_silent e), fun h => absurd (hiff.1 h) hf⟩
  | abort e =>
    rw [hr] at hiff
    refine Ends.fail ⟨rfl, ?_⟩
    rw [hs]
    exact ⟨fun h => absurd h (not_answeredOnce_silent _), fun h => (hiff.1 h).elim⟩
  | panic t =>
    rw [hr] at hiff
    refine Ends.fail ⟨rfl, ?_⟩
    rw [hs]
    exact ⟨fun h => absurd h (not_answeredOnce_silent _), fun h => (hiff.1 h).elim⟩
  | answer config m =>
    rw [hr] at hiff
    refine Ends.then (Ends.then (Ends.channelSend (fun hf => ?_) (fun hf => ⟨rfl, ?_⟩) fun w => absurd trivial w))
    · have hans : AnsweredOnce (.ok config) (v.sent ++ [.serverMessage m]) := by
        rw [hs]
        exact Or.inl ⟨config, m, rfl, rfl, kind_of_answer hr⟩
      refine Ends.flushed ?_ fun w => absurd trivial w
      rw [Proc.Onwards]
      exact Ends.pure ⟨rfl, fun _ => hiff.2 hf, fun _ => hans⟩
    · rw [hs]
      exact ⟨fun h => absurd h (not_answeredOnce_silent _), fun h => absurd (hiff.1 h) hf⟩

/-- All that was read of a client's message could be answered. -/
def AllAnswerable (E : EngRepr) (P : Platform) (describe : NegotiateError → Text) (credentials : Credentials)
    (compat : Compatibility) (manager : Manager) (got : List Msg) : Prop :=
  ∀ m m2, .clientMessage m ∈ got → m.toV2 = some m2 → Answerable E P describe credentials compat manager m2

theorem Ends.runServerInner (hk : credentials.rawPublicKey = .ok key) (ht : Succinct E describe P credentials)
    (w : World) :
    Ends True
    (fun r v => AnsweredOnce r v.sent ↔ AllAnswerable E P describe credentials compat manager v.got)
    (ControlChannel.runServerInner E P describe (.ok credentials) compat manager : Act H _) (View.init w) := by
  -- what cannot be read is answered
  have bad : ∀ (e : Err) (v : View H.sig), v.sent = [] → (∀ m, .clientMessage m ∈ v.got → m = .toFollow) → Ends True
      (fun r v => AnsweredOnce r v.sent ↔ AllAnswerable E P describe credentials compat manager v.got)
      (do ControlChannel.sendError .malformed; Task.fail e : Act H Configuration) v := by
    intro e v hs hg
    refine Ends.giveUp (fun hf => ?_) fun hf => absurd failure_malformed_fits hf
    show AnsweredOnce _ (v.sent ++ _) ↔ _
    rw [hs]
    refine ⟨fun _ m m2 hm h2 => ?_, fun _ => answeredOnce_failure e .malformed⟩
    rw [hg m hm] at h2
    cases h2
  -- what can is the only message
  have good : ∀ (m : ClientMessage) (m2 : ClientMessageV2) (v : View H.sig), v.sent = [] → v.got = [.clientMessage m] →
      m.toV2 = some m2 → Ends True
        (fun r v => AnsweredOnce r v.sent ↔ AllAnswerable E P describe credentials compat manager v.got)
        (ControlChannel.serverReply E P describe (.ok credentials) compat manager m2 : Act H _) v := by
    intro m m2 v hs hg hm2
    refine (Ends.serverReply hk ht m2 hs).mono fun r v' h => ?_
    obtain ⟨hgot, hiff⟩ := h
    rw [hiff, hgot, hg]
    refine ⟨fun h m' m2' hm' h2 => ?_, fun h => h m m2 (List.mem_singleton_self _) hm2⟩
    cases List.mem_singleton.1 hm'
    cases hm2.symm.trans h2
    exact h
  have nothing : ∀ m, .clientMessage m ∈ (View.init w : View H.sig).got → m = .toFollow :=
    fun m hm => absurd hm List.not_mem_nil
  refine Ends.then (Ends.then (Ends.attempt (Ends.reader (fun bs m _ _ _ => ?_) (fun e bs => ?_)
    (fun hdr bs l _ _ => ?_) fun bs _ _ => ?_)))
  · cases m with
    | toFollow => exact bad _ _ rfl fun m hm => Msg.clientMessage.inj (List.mem_singleton.1 hm)
    | v1 m => exact Ends.pure (good (.v1 m) m.toV2 _ rfl rfl rfl)
    | v2 m => exact Ends.pure (good (.v2 m) m _ rfl rfl rfl)
  · exact bad _ _ rfl nothing
  · exact bad _ _ rfl nothing
  · exact bad _ _ rfl nothing

/-- **When a server answers**: exactly when every message it could read was answerable. -/
theorem answered_iff (E : EngRepr) (P : Platform) (describe : NegotiateError → Text) (credentials : Credentials)
    (key : Bytes) (compat : Compatibility) (manager : Manager) (w : World) (r : Except Err Configuration)
    (s : Local H.sig) (hk : credentials.rawPublicKey = .ok key) (ht : Succinct E describe P credentials)
    (h : Proc.Runs True ((ControlChannel.runServerInner E P describe (.ok credentials) compat manager : Act H _),
      Local.init w) (.ret r, s)) :
    AnsweredOnce r s.sent ↔ AllAnswerable E P describe credentials compat manager s.got :=
  (Ends.runServerInner hk ht w).run h

end Runs

/-! ## A server that insists on a raw public key -/

def rawPublicKeyServer : Manager :=
  .ofOptional EngRepr.decimal { ConfigurationOptional.empty with tlsAuthType := some .rawPublicKey }

/-- A client of the first level that asks for nothing. -/
def certificateMessage : ClientMessage := .v1 (.new clientCertificate .ipv4 false .empty)

/-- And one that can take a raw public key, and has one. -/
def keyMessage : ClientMessage :=
  .v2 ((ClientMessageV2.new ⟨CredentialsType.rawPublicKey.toRepr, .bytes clientKey⟩
    .ipv4).applyConfigAttributes false .empty)

/-- How errors are told where there are no colours. -/
def tellPlainly : NegotiateError → Text
  | .invalid e => e.message EngRepr.decimal [] []
  | _ => "invalid configuration".toList

/-- The server, for a client of some level. -/
def answering (level : UInt16) : Act anyHost Configuration :=
  ControlChannel.runServerInner EngRepr.decimal serverPlatform tellPlainly (.ok serverCredentials) (.level level)
    rawPublicKeyServer

theorem knownCertificate_error {bs : Bytes} {e : Text} (h : knownCertificate bs = .error e) :
    e = "invalid peer certificate: BadEncoding".toList := by
  unfold knownCertificate at h
  split at h
  · cases h
  · cases h
    rfl

/-- What this server's libraries may say of a peer, -/
theorem verifierFor_error {peer : TaggedData} {bs : Bytes} {e : Text}
    (h : knownCrypto.verifierFor peer "client".toList knownCertificate (knownCrypto.fromPem .publicKey) bs = .error e) :
    e = "invalid peer certificate: BadEncoding".toList ∨ e = Crypto.unknownCertText "client".toList peer.tag := by
  unfold Crypto.verifierFor at h
  split at h
  · rcases (Configuration.bind_eq_error _ _ _).1 h with h | ⟨_, -, h⟩
    · exact Or.inl (knownCertificate_error h)
    · rcases (Configuration.bind_eq_error _ _ _).1 h with h | ⟨_, -, h⟩
      · exact Or.inl (knownCertificate_error h)
      · cases h
  · rw [knownCrypto.fromPem_publicKey] at h
    cases h
  · cases h
    exact Or.inr rfl
  · cases h
    exact Or.inr rfl

/-- and of its own credentials. -/
theorem identityFor_error {t : CredentialsType} {e : Text}
    (h : Crypto.identityFor serverCredentials knownCertificate t = .error e) :
    e = "invalid peer certificate: BadEncoding".toList ∨ e = Crypto.unreachableText := by
  unfold Crypto.identityFor at h
  split at h
  · cases h
    exact Or.inr rfl
  · rcases (Configuration.bind_eq_error _ _ _).1 h with h | ⟨_, -, h⟩
    · exact Or.inl (knownCertificate_error h)
    · cases h
  · cases h

theorem serverPlatform_tls_error {peer : TaggedData} {config : Configuration} {compat : Compatibility} {e : Text}
    (h : serverPlatform.tls serverCredentials peer config compat = .error e) : e.length ≤ 65536 := by
  have known : "invalid peer certificate: BadEncoding".toList.length ≤ 65536 := by decide
  have unknown : (Crypto.unknownCertText "client".toList peer.tag).length ≤ 65536 := by
    have htag := length_showDigits 19 peer.tag.toNat []
    have hclient : "client".toList.length = 6 := by decide
    have hsent : " sent unknown cert type ".toList.length = 24 := by decide
    unfold Crypto.unknownCertText Decimal.showNat
    rw [List.length_append, List.length_append, hclient, hsent]
    rw [List.length_nil] at htag
    omega
  have config_error : ∀ {e}, knownCrypto.serverConfig serverCredentials peer compat config = .error e →
      e.length ≤ 65536 := by
    intro e h
    unfold Crypto.serverConfig Crypto.tlsConfig at h
    split at h
    · cases h
      decide
    · rcases (Configuration.bind_eq_error _ _ _).1 h with h | ⟨_, -, h⟩
      · rcases verifierFor_error h with rfl | rfl
        · exact known
        · exact unknown
      · rcases (Configuration.bind_eq_error _ _ _).1 h with h | ⟨_, -, h⟩
        · rcases identityFor_error h with rfl | rfl
          · exact known
          · decide
        · cases h
  have h : (knownCrypto.endpointConfig serverCredentials peer compat config true).map (fun _ => ()) = .error e := h
  cases hend : knownCrypto.endpointConfig serverCredentials peer compat config true with
  | ok tls => rw [hend] at h; cases h
  | error e' =>
    rw [hend] at h
    cases h
    unfold Crypto.endpointConfig at hend
    split at hend
    · cases hend
      decide
    · simp only [if_true] at hend
      split at hend
      · rcases (Configuration.bind_eq_error _ _ _).1 hend with h | ⟨_, -, h⟩
        · rw [knownCertificate_error h]
          exact known
        · exact config_error h
      · exact config_error hend

theorem succinct_serverPlatform : Succinct EngRepr.decimal tellPlainly serverPlatform serverCredentials where
  port _ := brief_of_length (show "invalid configuration".toList.length ≤ 65536 by decide)
  invalid := ⟨[], [], Nat.zero_le _, Nat.zero_le _, fun _ => rfl⟩
  toEng n := Nat.le_trans (length_showNat n.toNat) (by decide)
  tls _ _ _ _ h := brief_of_length (serverPlatform_tls_error h)
  os _ _ h := by cases h
  configure _ _ _ _ h := by cases h
  warning _ _ _ _ _ h := by cases h
  hostname := brief_of_length (by decide)
  certificate := by decide +kernel
  rawPublicKey key h := by
    cases h
    decide +kernel

set_option maxRecDepth 20000 in
/-- The first gets no answer. -/
theorem silent_run : Comes True (answering 1) (Local.init fun _ => none) (.error (.other Credentials.rawPublicKeyText))
    (hear ClientMessage.form certificateMessage (Local.init fun _ => none)) := by
  have hf : ClientMessage.form.Fits certificateMessage := by decide +kernel
  refine Comes.then (Comes.then (Comes.attempt (Comes.reader hf (ClientMessageV1.readsBack_of_fits _ nofun hf) rfl rfl))
    (Comes.pure _ _)) ?_
  rw [ControlChannel.serverReply_eq]
  have hr : serverRespond EngRepr.decimal serverPlatform tellPlainly (.ok serverCredentials) (.level 1)
    rawPublicKeyServer (ClientMessageV1.new clientCertificate .ipv4 false .empty).toV2 =
      .abort Credentials.rawPublicKeyText := by rfl
  rw [hr]
  exact Comes.fail _ _

/-- The second gets one. -/
theorem answering_run : ∃ config m, Comes True (answering 4) (Local.init fun _ => none) (.ok config)
    ((hear ClientMessage.form keyMessage (Local.init fun _ => none)).push (.sent (.serverMessage m))) := by
  have hf : ClientMessage.form.Fits keyMessage := by decide +kernel
  obtain ⟨config, m, hr, hm⟩ :
    ∃ config m, serverRespond EngRepr.decimal serverPlatform tellPlainly (.ok serverCredentials)
      (.level 4) rawPublicKeyServer ((ClientMessageV2.new ⟨CredentialsType.rawPublicKey.toRepr, .bytes clientKey⟩
        .ipv4).applyConfigAttributes false .empty) = .answer config m ∧ ServerMessage.form.Fits m :=
    ⟨_, _, rfl, by decide +kernel⟩
  refine ⟨config, m, Comes.then (Comes.then (Comes.attempt (Comes.reader hf
    (ClientMessageV2.readsBack_of_fits _ clientKey rfl nofun hf) rfl rfl)) (Comes.pure _ _)) ?_⟩
  rw [ControlChannel.serverReply_eq, hr]
  exact Comes.then (Comes.then (Comes.then (Comes.writer hm rfl) (Comes.flushed rfl)) (Comes.flushed rfl))
    (Comes.pure _ _)

/-- What such a message needs is a level at which keys can be taken. -/
theorem answered_iff_rawPublicKey :
    (∃ r, ∃ s : Local anyHost.sig, s.got = [.clientMessage keyMessage] ∧ AnsweredOnce r s.sent) ∧
    ∃ s : Local anyHost.sig, s.got = [.clientMessage certificateMessage] ∧
      ¬ AllAnswerable EngRepr.decimal serverPlatform tellPlainly serverCredentials (.level 1)
        rawPublicKeyServer s.got := by
  constructor
  · obtain ⟨config, m, hrun⟩ := answering_run
    refine ⟨_, _, rfl, (answered_iff _ _ _ _ serverKey _ _ _ _ _ rfl succinct_serverPlatform hrun).2 ?_⟩
    intro m' m2 _ _
    refine ⟨fun e he => ?_, fun _ _ _ _ _ _ hchecks => ?_, fun _ _ _ _ _ _ => by decide⟩
    · have hread := Manager.getOptional_ofOptional EngRepr.decimal
        { ConfigurationOptional.empty with tlsAuthType := some .rawPublicKey } (fun _ h => by cases h)
          (fun _ h => by cases h)
      cases hread.symm.trans he
    · cases hchecks
  · refine ⟨hear ClientMessage.form certificateMessage (Local.init fun _ => none), rfl, fun h => ?_⟩
    exact not_answeredOnce_silent _
      ((answered_iff _ _ _ _ serverKey _ _ _ _ _ rfl succinct_serverPlatform silent_run).2 h)

/-- **A server can leave without a word.** -/
theorem not_answered : ¬ ∀ r s, Proc.Runs True (answering 1, Local.init fun _ => none) (.ret r, s) →
    AnsweredOnce r s.sent := fun h => not_answeredOnce_silent _ (h _ _ silent_run)

end Qcp
