import Qcp.Endpoint
import Qcp.ServerVersions
/-!
# Agreement — whether both sides end with the same configuration

A client takes the rates and the round trip time over from the server's message; of the controller, the window and the
timeout it takes over what the message states, and otherwise falls back on what its own layers have (`field_after`).
`agreement_iff` says when that is what the server works with, and `ownPreferencesFit_iff` what this comes to for a
client whose preferences can be read.
-/
namespace Qcp

open Bare (Bytes Text)
open Layers (Dict)

/-- **The two configurations agree**, each rate seen from its own side. -/
structure Agree (client server : Configuration) : Prop where
  tx : client.getTx = server.getRx
  rx : client.getRx = server.getTx
  rtt : client.rtt = server.rtt
  congestion : client.congestion = server.congestion
  initialCongestionWindow : client.initialCongestionWindow = server.initialCongestionWindow
  timeout : client.timeout = server.timeout

/-- What a side's layers state for one field, whatever the others hold. -/
def Manager.states {α : Type} (f : Field α) (manager : Manager) : Option α :=
  match manager.data with
  | .error _ => none
  | .ok l => match f.getOpt l.look with
    | .error _ => none
    | .ok o => o

/-! ## What the server settles on -/

theorem settle_clientWins {α : Type} [DecidableEq α] (c s : Option α) (d a : α)
    (h : settle clientWins c s d = .ok a) : a = (c.or s).getD d := by
  unfold settle clientWins at h
  cases c with
  | none => cases s <;> cases h <;> rfl
  | some cc =>
    cases s with
    | none => cases h; rfl
    | some ss =>
      simp only at h
      split at h
      · rename_i he; cases h; exact he.symm
      · cases h; rfl

theorem settle_congestionConflict (c s : Option CongestionController) (d a : CongestionController)
    (h : settle congestionConflict c s d = .ok a) : a = (c.or s).getD d := by
  unfold settle congestionConflict at h
  cases c with
  | none => cases s <;> cases h <;> rfl
  | some cc =>
    cases s with
    | none => cases h; rfl
    | some ss =>
      simp only at h
      split at h
      · rename_i he; cases h; exact he.symm
      · cases h

theorem preferences_of_combine (E : EngRepr) (manager : Manager) (m : ClientMessageV2) (cfg : Configuration)
    (h : combineBandwidthConfigurations E manager m = .ok cfg) :
    manager.getOptional E = .ok (manager.preferences E) := by
  unfold Manager.preferences
  cases hg : manager.getOptional E with
  | ok o => rfl
  | error e =>
    unfold combineBandwidthConfigurations combinedManager at h
    rw [hg] at h
    cases h

/-- A range read from a manager is valid. -/
theorem remotePort_valid (E : EngRepr) (manager : Manager) : ∀ r ∈ (manager.preferences E).remotePort, r.valid := by
  unfold Manager.preferences
  cases hg : manager.getOptional E with
  | error e => nofun
  | ok o =>
    obtain ⟨data⟩ := manager
    cases data with
    | error e => cases hg
    | ok l =>
      have hr := ((ConfigurationOptional.extract_eq_ok_iff E _ _).1 hg).remotePort
      intro r (hmem : o.remotePort = some r)
      rw [hmem] at hr
      obtain ⟨v, -, hread⟩ := (Field.getOpt_some_iff _ _ _).1 hr
      have hport := Field.getOpt_of_look Field.port (fun _ => some v) v r rfl hread
      exact Outcomes.valid_of_getOpt (some r) hport r rfl

/-- A configuration that validates receives at some rate. -/
theorem getRx_ne_zero (cfg : Configuration) (h : cfg.tryValidate = .ok ()) : cfg.getRx ≠ 0 := by
  intro h0
  rw [tryValidate_rx_zero cfg h0] at h
  cases h

/-- The server's part of the parameters both sides are to agree on. -/
structure SettledOn (client server : ConfigurationOptional) (s : Configuration) : Prop where
  rx_ne : s.getRx ≠ 0
  congestion : s.congestion = (client.congestion.or server.congestion).getD .cubic
  initialCongestionWindow :
    s.initialCongestionWindow = (server.initialCongestionWindow.or client.initialCongestionWindow).getD 0
  timeout : s.timeout = (client.timeout.or server.timeout).getD 5

theorem settledOn_of_combine (E : EngRepr) (manager : Manager) (m : ClientMessageV2) (client : ConfigurationOptional)
    (toServer : Option UInt64) (hm : Requests.ofAttributes m.attributes = client.requests toServer)
    (hv : ∀ r ∈ client.remotePort, r.valid) (s : Configuration)
    (h : combineBandwidthConfigurations E manager m = .ok s) : SettledOn client (manager.preferences E) s := by
  have hs := preferences_of_combine E manager m s h
  obtain ⟨hst, hok⟩ := (combine_eq_ok_iff E manager m _ hs (by rw [hm]; exact hv) s).1 h
  rw [hm] at hst
  exact ⟨getRx_ne_zero s hok, settle_congestionConflict _ _ _ _ hst.congestion,
    (settle_serverWins _ _ _ _).1 hst.initialCongestionWindow, settle_clientWins _ _ _ _ hst.timeout⟩

/-! ## What the client takes over -/

/-- **A field after the message**: what the message states, else what the client's layers do, else the default. -/
theorem field_after {α : Type} (E : EngRepr) (f : Field α) (w : α → Value) (o : Option α) (dict : Dict Key Value)
    (l : Layers.Layered Key Value) (d a : α) (hd : dict f.key = o.map w) (hw : ∀ b ∈ o, f.read (w b) = some b)
    (hdflt : f.get (Configuration.systemDefault.toDict E) = .ok d)
    (h : f.get (learnedLook E dict l.look) = .ok a) : a = (o.or ((Manager.mk (.ok l)).states f)).getD d := by
  cases o with
  | some b =>
    have hg := f.get_of_look (learnedLook E dict l.look) (w b) b
      (by unfold learnedLook; rw [hd]; rfl) (hw b rfl)
    cases h.symm.trans hg
    rfl
  | none =>
    have hl : f.get (learnedLook E dict l.look) =
        f.get (fun k => (l.look k).or (Configuration.systemDefault.toDict E k)) := by
      apply f.get_congr _ _
      unfold learnedLook
      rw [hd]
      rfl
    rw [hl] at h
    obtain ⟨own, hown⟩ := (f.get_or_iff_readable l.look _ d hdflt).1 ⟨a, h⟩
    have hstates : (Manager.mk (.ok l)).states f = own := by
      unfold Manager.states
      simp only [hown]
    rw [f.get_or _ _ own hown] at h
    rw [hstates]
    cases own with
    | none => exact Except.ok.inj (h.symm.trans hdflt)
    | some b => exact (Except.ok.inj h).symm

theorem data_of_new (compat : Compatibility) (config : Configuration) (port : UInt16) (credentials : TaggedData)
    (commonName warning : Text) (msg : ServerMessage) (m : ServerMessageV2)
    (h : ServerMessage.new compat config port credentials commonName warning = some msg) (hm : msg.toV2 = some m) :
    m.data = .ok (messageDictOf (compat.supports .cmsgSmsg2) config) := by
  unfold ServerMessage.new at h
  split at h
  · rename_i certBytes _
    simp only at h
    cases hs : compat.supports .cmsgSmsg2 with
    | true =>
      rw [hs, if_pos rfl] at h
      cases h
      cases hm
      exact (says_v2 config port credentials commonName warning).data
    | false =>
      rw [hs, if_neg (by decide)] at h
      cases h
      cases hm
      exact (says_v1 config port certBytes commonName warning).data
  · cases h

/-- The client's part, once it has learned what the server settled on. -/
structure TakenOver (v2 : Bool) (manager : Manager) (E : EngRepr) (s c : Configuration) : Prop where
  tx : c.tx = s.getRx
  rx : c.rx = s.getTx
  rtt : c.rtt = s.rtt
  congestion : c.congestion = ((statedCongestion v2 s).or (manager.states Field.congestion)).getD .cubic
  initialCongestionWindow : c.initialCongestionWindow =
    ((unlessDefault s.initialCongestionWindow 0).or (manager.states (Field.initialCongestionWindow E))).getD 0
  timeout : c.timeout = ((unlessDefault s.timeout 0).or (manager.states Field.timeout)).getD 5

theorem takenOver_of_learned (E : EngRepr) (v2 : Bool) (m : ServerMessageV2) (manager : Manager) (s c : Configuration)
    (hd : m.data = .ok (messageDictOf v2 s)) (h : m.learned E manager = .ok c) : TakenOver v2 manager E s c := by
  obtain ⟨data⟩ := manager
  cases data with
  | error e => cases h
  | ok l =>
    have hr := (learned_iff E m v2 s hd l c).1 h
    have hdf := reads_systemDefault E
    exact
      { tx := field_after E (Field.tx E) .num (some s.getRx) _ l _ _ rfl (fun _ _ => rfl) hdf.tx hr.tx
        rx := field_after E (Field.rx E) .num (some s.getTx) _ l _ _ rfl (fun _ _ => rfl) hdf.rx hr.rx
        rtt := field_after E Field.rtt u16Value (some s.rtt) _ l _ _ rfl (fun n _ => Configuration.readU16_num n)
          hdf.rtt hr.rtt
        congestion := field_after E Field.congestion congestionValue (statedCongestion v2 s) _ l _ _ rfl
          (fun cc _ => CongestionController.tryUnscribe_toString cc) hdf.congestion hr.congestion
        initialCongestionWindow := field_after E (Field.initialCongestionWindow E) .num
          (unlessDefault s.initialCongestionWindow 0) _ l _ _ rfl (fun _ _ => rfl) hdf.initialCongestionWindow
          hr.initialCongestionWindow
        timeout := field_after E Field.timeout u16Value (unlessDefault s.timeout 0) _ l _ _ rfl
          (fun n _ => Configuration.readU16_num n) hdf.timeout hr.timeout }

/-! ## When both agree -/

/-- **Nothing the client's layers state gets in where the message is silent**: about the controller, where version 2
leaves out the default one; about the window, where none was settled; about the timeout, where it was settled as 0 and
the default would be 5. -/
structure OwnPreferencesFit (E : EngRepr) (v2 : Bool) (manager : Manager) (client server : ConfigurationOptional) :
    Prop where
  congestion : v2 = true → (client.congestion.or server.congestion).getD .cubic = .cubic →
    ∀ cc, manager.states Field.congestion = some cc → cc = .cubic
  initialCongestionWindow : (server.initialCongestionWindow.or client.initialCongestionWindow).getD 0 = 0 →
    ∀ n, manager.states (Field.initialCongestionWindow E) = some n → n = 0
  timeout : (client.timeout.or server.timeout).getD 5 = 0 → manager.states Field.timeout = some 0

/-- A value stated unless it is the default `z` comes back exactly when what replaces it is `z`. -/
theorem unlessDefault_or_iff {α : Type} [DecidableEq α] (a z d : α) (own : Option α) :
    ((unlessDefault a z).or own).getD d = a ↔ (a = z → own.getD d = z) := by
  unfold unlessDefault
  by_cases h : a = z
  · simp only [h, ne_eq, not_true_eq_false, if_false, Option.none_or, forall_const]
  · simp only [ne_eq, if_pos h, Option.some_or, Option.getD_some, true_iff]
    exact fun h' => absurd h' h

theorem getD_eq_self_iff {α : Type} (o : Option α) (d : α) : o.getD d = d ↔ ∀ a, o = some a → a = d := by
  cases o with
  | none => exact ⟨fun _ => nofun, fun _ => rfl⟩
  | some b => exact ⟨fun h a ha => by cases ha; exact h, fun h => h b rfl⟩

theorem getD_five_eq_zero_iff (o : Option UInt16) : o.getD 5 = 0 ↔ o = some 0 := by
  cases o with
  | none => exact ⟨fun h => absurd h (by decide), nofun⟩
  | some b => exact ⟨fun h => congrArg some h, fun h => Option.some.inj h⟩

theorem agree_iff (E : EngRepr) (v2 : Bool) (manager : Manager) (client server : ConfigurationOptional)
    (s c : Configuration) (hs : SettledOn client server s) (hc : TakenOver v2 manager E s c) :
    Agree c s ↔ OwnPreferencesFit E v2 manager client server := by
  have hcc : c.congestion = s.congestion ↔ (v2 = true → (client.congestion.or server.congestion).getD .cubic = .cubic →
      ∀ cc, manager.states Field.congestion = some cc → cc = .cubic) := by
    rw [hc.congestion, ← hs.congestion]
    unfold statedCongestion
    cases v2 with
    | true => simp only [if_true, unlessDefault_or_iff, getD_eq_self_iff, forall_const]
    | false => simp only [Bool.false_eq_true, if_false, Option.some_or, Option.getD_some, false_implies]
  have hicw : c.initialCongestionWindow = s.initialCongestionWindow ↔
      ((server.initialCongestionWindow.or client.initialCongestionWindow).getD 0 = 0 →
        ∀ n, manager.states (Field.initialCongestionWindow E) = some n → n = 0) := by
    rw [hc.initialCongestionWindow, ← hs.initialCongestionWindow, unlessDefault_or_iff, getD_eq_self_iff]
  have hto : c.timeout = s.timeout ↔
      ((client.timeout.or server.timeout).getD 5 = 0 → manager.states Field.timeout = some 0) := by
    rw [hc.timeout, ← hs.timeout, unlessDefault_or_iff, getD_five_eq_zero_iff]
  have htx : c.getTx = s.getRx := by
    unfold Configuration.getTx
    rw [hc.tx, if_neg hs.rx_ne]
  constructor
  · intro h
    exact ⟨hcc.1 h.congestion, hicw.1 h.initialCongestionWindow, hto.1 h.timeout⟩
  · intro h
    exact ⟨htx, hc.rx, hc.rtt, hcc.2 h.congestion, hicw.2 h.initialCongestionWindow, hto.2 h.timeout⟩

/-- For preferences that can be read as a whole, two of the three ways in are left. -/
theorem ownPreferencesFit_iff (E : EngRepr) (v2 : Bool) (manager : Manager) (client server : ConfigurationOptional)
    (h : manager.getOptional E = .ok client) : OwnPreferencesFit E v2 manager client server ↔
      ¬ (server.initialCongestionWindow = some 0 ∧ ∃ n, client.initialCongestionWindow = some n ∧ n ≠ 0) ∧
        ¬ (server.timeout = some 0 ∧ client.timeout = none) := by
  obtain ⟨data⟩ := manager
  cases data with
  | error e => cases h
  | ok l =>
    have hr := (ConfigurationOptional.extract_eq_ok_iff E _ _).1 h
    have own : ∀ {α : Type} (f : Field α) (o : Option α), f.getOpt l.look = .ok o →
        (Manager.mk (.ok l)).states f = o := by
      intro α f o ho
      unfold Manager.states
      simp only [ho]
    have hcc := own Field.congestion _ hr.congestion
    have hicw := own (Field.initialCongestionWindow E) _ hr.initialCongestionWindow
    have hto := own Field.timeout _ hr.timeout
    constructor
    · intro hf
      refine ⟨fun ⟨hs, n, hn, hn0⟩ => hn0 (hf.initialCongestionWindow ?_ n (hicw.trans hn)), fun ⟨hs, hn⟩ => ?_⟩
      · rw [hs]; rfl
      · have := hf.timeout (by rw [hs, hn]; rfl)
        rw [hto, hn] at this
        cases this
    · rintro ⟨h1, h2⟩
      refine ⟨fun _ hneg cc hs => ?_, fun hneg n hs => ?_, fun hneg => ?_⟩
      · rw [hcc.symm.trans hs] at hneg
        exact hneg
      · rw [hicw] at hs
        rw [hs] at hneg
        by_contra hn0
        cases hsrv : server.initialCongestionWindow with
        | none => rw [hsrv] at hneg; exact hn0 hneg
        | some m =>
          rw [hsrv] at hneg
          have hm : m = 0 := hneg
          exact h1 ⟨hsrv.trans (congrArg some hm), n, hs, hn0⟩
      · rw [hto]
        cases hcl : client.timeout with
        | some t => rw [hcl] at hneg; exact congrArg some hneg
        | none =>
          rw [hcl, Option.none_or, getD_five_eq_zero_iff] at hneg
          exact absurd ⟨hneg, hcl⟩ h2

section Exchange

variable (E : EngRepr) (P : Platform) (describe : NegotiateError → Text) (generate : Except Text Credentials)
  (clientCompat serverCompat : Compatibility) (clientManager serverManager : Manager) (credentials : Credentials)
  (connectionType : ConnectionType) (remoteConfig : Bool) (direction : Direction)

/-- A message that is sent is one the server receives. -/
theorem received_of_clientMessage (config : ConfigurationOptional) (msg : ClientMessage) (m : ClientMessageV2)
    (h : clientMessage clientCompat credentials connectionType remoteConfig config direction = .ok msg)
    (hm : msg.toV2 = some m) : ∃ cert certBytes, cert.data = .bytes certBytes ∧
      received clientCompat cert connectionType remoteConfig config direction = some m := by
  unfold clientMessage at h
  obtain ⟨u, -, h⟩ := (Configuration.bind_eq_ok _ _ _).1 h
  obtain ⟨cert, hcert, h⟩ := (Configuration.bind_eq_ok _ _ _).1 h
  obtain ⟨⟨bs, hbs⟩, -⟩ := credentials.toTaggedData_ok _ _ _ hcert
  split at h
  · cases h
  · rename_i x hx
    cases h
    refine ⟨cert, bs, hbs, ?_⟩
    unfold received
    rw [hx]
    exact hm

/-- What a server that answers has settled on and says. -/
theorem answer_of_serverRespond (m : ClientMessageV2) (s : Configuration) (reply : ServerMessage)
    (h : serverRespond E P describe generate serverCompat serverManager m = .answer s reply) :
    combineBandwidthConfigurations E serverManager m = .ok s ∧
      ∀ r2, reply.toV2 = some r2 → r2.data = .ok (messageDictOf (serverCompat.supports .cmsgSmsg2) s) := by
  obtain ⟨hconfig, credentials, port, warning, -, -, hmsg⟩ := parts_of_answer h
  obtain ⟨td, -, hnew⟩ := serverMessage_ok hmsg
  exact ⟨hconfig, fun r2 hr2 => data_of_new _ _ _ _ _ _ _ _ hnew hr2⟩

/-- Both parts of an exchange that succeeds. -/
theorem parts_of_exchange (s c : Configuration)
    (h : exchange E P describe generate clientCompat serverCompat clientManager serverManager credentials connectionType
      remoteConfig direction = some (s, c)) :
    SettledOn (clientManager.preferences E) (serverManager.preferences E) s ∧
      TakenOver (serverCompat.supports .cmsgSmsg2) clientManager E s c := by
  unfold exchange at h
  obtain ⟨msg, hmsg, h⟩ := Option.bind_eq_some_iff.1 h
  obtain ⟨m, hm, h⟩ := Option.bind_eq_some_iff.1 h
  have hmsg' : clientMessage clientCompat credentials connectionType remoteConfig (clientManager.preferences E)
      direction = .ok msg := by
    revert hmsg
    generalize clientMessage clientCompat credentials connectionType remoteConfig _ direction = x
    cases x with
    | error e => nofun
    | ok y => exact fun hy => congrArg Except.ok (Option.some.inj hy)
  obtain ⟨cert, bs, hbs, hrec⟩ :=
    received_of_clientMessage clientCompat credentials connectionType remoteConfig direction
    _ msg m hmsg' hm
  obtain ⟨hreq, -, -⟩ := requests_received clientCompat cert bs connectionType remoteConfig _ direction hbs m hrec
  split at h
  · rename_i config reply hreply
    obtain ⟨hcomb, hdata⟩ := answer_of_serverRespond E P describe generate serverCompat serverManager m config
      reply hreply
    obtain ⟨r2, hr2, h⟩ := Option.bind_eq_some_iff.1 h
    obtain ⟨final, hfinal, h⟩ := Option.bind_eq_some_iff.1 h
    cases h
    refine ⟨settledOn_of_combine E serverManager m _ _ hreq (remotePort_valid E clientManager) s hcomb,
      takenOver_of_learned E _ r2 clientManager s c (hdata r2 hr2) ?_⟩
    revert hfinal
    cases r2.learned E clientManager with
    | error e => nofun
    | ok y => exact fun hy => congrArg Except.ok (Option.some.inj hy)
  · cases h

/-- **After an exchange that succeeds the two sides agree exactly when nothing the client states gets in where the
server's message is silent.** -/
theorem agreement_iff (s c : Configuration)
    (h : exchange E P describe generate clientCompat serverCompat clientManager serverManager credentials connectionType
      remoteConfig direction = some (s, c)) :
    Agree c s ↔ OwnPreferencesFit E (serverCompat.supports .cmsgSmsg2) clientManager (clientManager.preferences E)
      (serverManager.preferences E) := by
  obtain ⟨hs, hc⟩ := parts_of_exchange E P describe generate clientCompat serverCompat clientManager serverManager
    credentials connectionType remoteConfig direction s c h
  exact agree_iff E _ clientManager _ _ s c hs hc

end Exchange

/-- A side that states an initial window only. -/
def windowOnly (n : UInt64) : ConfigurationOptional :=
  { ConfigurationOptional.empty with initialCongestionWindow := some n }

/-- The exchange of a client and a server that each state a window. -/
def windowExchange (client server : UInt64) : Option (Configuration × Configuration) :=
  exchange EngRepr.decimal serverPlatform (fun _ => []) (.ok serverCredentials) (.level 4) (.level 4)
    (.ofOptional EngRepr.decimal (windowOnly client)) (.ofOptional EngRepr.decimal (windowOnly server))
      clientCredentials
    .ipv4 false .both

/-- What both sides work with when the server states a window of 1000, and the client another. -/
def sharedWindow : Configuration × Configuration :=
  ({ Configuration.systemDefault with initialCongestionWindow := 1000 },
    { Configuration.systemDefault with tx := 12500000, initialCongestionWindow := 1000 })

theorem agreement_iff_window : Agree sharedWindow.2 sharedWindow.1 ↔
    OwnPreferencesFit EngRepr.decimal true (.ofOptional EngRepr.decimal (windowOnly 500))
      ((Manager.ofOptional EngRepr.decimal (windowOnly 500)).preferences EngRepr.decimal)
      ((Manager.ofOptional EngRepr.decimal (windowOnly 1000)).preferences EngRepr.decimal) :=
  agreement_iff EngRepr.decimal serverPlatform (fun _ => []) (.ok serverCredentials) (.level 4) (.level 4)
    (.ofOptional EngRepr.decimal (windowOnly 500)) (.ofOptional EngRepr.decimal (windowOnly 1000))
      clientCredentials .ipv4
    false .both sharedWindow.1 sharedWindow.2 (by rfl)

/-- **A client that states a window keeps it against a server that asks for none.** -/
theorem not_agreement_window : ∃ s c, windowExchange 500 0 = some (s, c) ∧ ¬ Agree c s :=
  ⟨Configuration.systemDefault, { Configuration.systemDefault with tx := 12500000, initialCongestionWindow := 500 },
    by rfl, fun h => absurd h.initialCongestionWindow (by decide)⟩

end Qcp
