import Qcp.Negotiate
/-!
# ClientVersions — what a server learns from either version of the client message

`received` is the message a server works with, built for a level, sent and converted.  Both versions state the same
parameters but for the rate towards the server (`requests_received`).  `versions_agree_iff` says for which clients every
server comes to the same result, `bounded_iff` for which pairs of sides the negotiated rates stay within both sides'.
-/
namespace Qcp

open Bare (Bytes)

/-- The client's message for a level, with the direction set, as the server works with it. -/
def received (compat : Compatibility) (cert : TaggedData) (connectionType : ConnectionType) (remoteConfig : Bool)
    (config : ConfigurationOptional) (direction : Direction) : Option ClientMessageV2 :=
  (ClientMessage.new compat cert connectionType remoteConfig config).bind fun m => (m.setDirection direction).toV2

/-- Whether the client asks the server to show its configuration. -/
def ClientMessageV2.showConfig (m : ClientMessageV2) : Bool :=
  (findTag m.attributes ClientMessage2Attributes.outputConfig.toRepr).isSome

/-- The direction a message asks for. -/
def ClientMessageV2.direction (m : ClientMessageV2) : Direction :=
  match findTag m.attributes ClientMessage2Attributes.directionOfTravel.toRepr with
  | none => default
  | some v => (Direction.fromRepr v.coerceUnsigned).getD default

/-- The rate towards the server stated at a level. -/
def ConfigurationOptional.toServer (o : ConfigurationOptional) (compat : Compatibility) : Option UInt64 :=
  if compat.supports .cmsgSmsg2 then o.toServer2 else o.toServer1

section Received

variable (compat : Compatibility) (cert : TaggedData) (certBytes : Bytes) (connectionType : ConnectionType)
  (remoteConfig : Bool) (config : ConfigurationOptional) (direction : Direction) (hc : cert.data = .bytes certBytes)

include hc

/-- **At every level the message states every parameter.** -/
theorem stated_received : ∃ m, received compat cert connectionType remoteConfig config direction = some m ∧
    m.connectionType = connectionType ∧
    Stated m.attributes config (config.toServer compat) remoteConfig direction := by
  unfold received ClientMessage.new ConfigurationOptional.toServer
  rw [hc]
  simp only
  split
  · exact ⟨_, rfl, rfl, stated_v2 cert connectionType remoteConfig config direction⟩
  · exact ⟨_, rfl, rfl, stated_v1 certBytes connectionType remoteConfig config direction⟩

theorem requests_received (m : ClientMessageV2)
    (h : received compat cert connectionType remoteConfig config direction = some m) :
    Requests.ofAttributes m.attributes = config.requests (config.toServer compat) ∧
      m.showConfig = remoteConfig ∧ m.direction = direction := by
  obtain ⟨m', hm, -, hst⟩ := stated_received compat cert certBytes connectionType remoteConfig config direction hc
  rw [h] at hm
  cases hm
  refine ⟨ofAttributes_of_carries _ _ (carries_of_stated _ _ _ _ _ hst), ?_, ?_⟩
  · unfold ClientMessageV2.showConfig
    rw [hst.outputConfig]
    cases remoteConfig <;> rfl
  · unfold ClientMessageV2.direction
    rw [hst.direction]
    cases direction <;> rfl

end Received

/-- **The server's answer depends on what the attributes ask for only.** -/
theorem combine_congr (E : EngRepr) (manager : Manager) (m1 m2 : ClientMessageV2)
    (h : Requests.ofAttributes m1.attributes = Requests.ofAttributes m2.attributes) :
    combineBandwidthConfigurations E manager m1 = combineBandwidthConfigurations E manager m2 := by
  unfold combineBandwidthConfigurations
  rw [h]

/-! ## Servers that state at most `rx` -/

/-- What a client's requests come to at a server that states no more than an `rx`. -/
theorem settled_rxOnly (client : Requests) (serverRx : Option UInt64) (rx : UInt64)
    (h : settle minIgnoringZero client.rx serverRx Configuration.systemDefault.rx = .ok rx) :
    Settled client { ConfigurationOptional.empty with rx := serverRx }
      { Configuration.systemDefault with
        rx
        tx := client.tx.getD Configuration.systemDefault.tx
        rtt := client.rtt.getD Configuration.systemDefault.rtt
        congestion := client.congestion.getD Configuration.systemDefault.congestion
        initialCongestionWindow :=
          client.initialCongestionWindow.getD Configuration.systemDefault.initialCongestionWindow
        port := client.port.getD Configuration.systemDefault.port
        timeout := client.timeout.getD Configuration.systemDefault.timeout } where
  rx := h
  tx := by show settle _ client.tx none _ = _; cases client.tx <;> rfl
  rtt := by show settle _ client.rtt none _ = _; cases client.rtt <;> rfl
  congestion := by show settle _ client.congestion none _ = _; cases client.congestion <;> rfl
  initialCongestionWindow := by
    show settle _ client.initialCongestionWindow none _ = _
    cases client.initialCongestionWindow <;> rfl
  port := by show settle _ client.port none _ = _; cases client.port <;> rfl
  timeout := by show settle _ client.timeout none _ = _; cases client.timeout <;> rfl
  udpBuffer := rfl
  initialMtu := rfl
  minMtu := rfl
  maxMtu := rfl
  remotePort := rfl
  tlsAuthType := rfl
  ioBufferSize := rfl

/-- The check names the receive bandwidth only when it is that one and too small. -/
theorem rx_of_rxTooSmall (c : Configuration) (x : UInt64) (h : c.tryValidate = .error (.rxTooSmall x)) : x = c.rx := by
  unfold Configuration.tryValidate at h
  simp only at h
  split at h
  · cases h; rfl
  split at h; · cases h
  split at h; · cases h
  split at h; · cases h
  split at h; · cases h
  split at h; · cases h
  split at h; · cases h
  split at h; · cases h
  split at h <;> cases h

theorem tryValidate_rx_zero (c : Configuration) (h : c.rx = 0) : c.tryValidate = .error (.rxTooSmall 0) := by
  unfold Configuration.tryValidate Configuration.getRx
  simp only [h]
  rfl

/-- A configuration without receive bandwidth and one with some are not checked alike. -/
theorem validate_ne (c c' : Configuration) (h : c.rx = 0) (h' : c'.rx ≠ 0) :
    c.validate.mapError NegotiateError.invalid ≠ c'.validate.mapError NegotiateError.invalid := by
  unfold Configuration.validate
  rw [tryValidate_rx_zero c h]
  intro he
  cases hc : c'.tryValidate with
  | ok _ => rw [hc] at he; cases he
  | error e =>
    rw [hc] at he
    cases he
    exact h' (rx_of_rxTooSmall c' 0 hc).symm

/-! ## The two versions against each other -/

/-- **Both versions of a client's message come to the same**: the same combination at every server, the same request to
show the configuration and the same direction. -/
def VersionsAgree (E : EngRepr) (old new : Compatibility) (cert : Bytes) (connectionType : ConnectionType)
    (remoteConfig : Bool) (config : ConfigurationOptional) (direction : Direction) : Prop :=
  ∀ m1 m2,
    received old ⟨CredentialsType.x509.toRepr, .bytes cert⟩ connectionType remoteConfig config direction = some m1 →
    received new ⟨CredentialsType.x509.toRepr, .bytes cert⟩ connectionType remoteConfig config direction = some m2 →
    (∀ manager, combineBandwidthConfigurations E manager m1 = combineBandwidthConfigurations E manager m2) ∧
      m1.showConfig = m2.showConfig ∧ m1.direction = m2.direction

/-- The client states a rate towards the server of its own. -/
def ConfigurationOptional.statesTx (o : ConfigurationOptional) : Prop := ∃ t, o.tx = some t ∧ t ≠ 0

theorem toServer1_of_not_statesTx (o : ConfigurationOptional) (h : ¬ o.statesTx) : o.toServer1 = none := by
  unfold ConfigurationOptional.toServer1
  cases ht : o.tx with
  | none => rfl
  | some t => exact if_pos (Classical.not_not.1 fun h0 => h ⟨t, ht, h0⟩)

theorem toServer2_of_not_statesTx (o : ConfigurationOptional) (h : ¬ o.statesTx) : o.toServer2 = o.rx := by
  unfold ConfigurationOptional.toServer2
  cases ht : o.tx with
  | none => rfl
  | some t => exact if_pos (Classical.not_not.1 fun h0 => h ⟨t, ht, h0⟩)

theorem toServer_eq_of_statesTx (o : ConfigurationOptional) (h : o.statesTx) :
    o.toServer1 = o.tx ∧ o.toServer2 = o.tx := by
  obtain ⟨t, ht, h0⟩ := h
  unfold ConfigurationOptional.toServer1 ConfigurationOptional.toServer2
  rw [ht]
  exact ⟨if_neg h0, if_neg h0⟩

/-- **The two versions agree at every server exactly when the client states a rate towards the server, or none at
all.** -/
theorem versions_agree_iff (E : EngRepr) (old new : Compatibility) (cert : Bytes) (connectionType : ConnectionType)
    (remoteConfig : Bool) (config : ConfigurationOptional) (direction : Direction)
    (hold : old.supports .cmsgSmsg2 = false) (hnew : new.supports .cmsgSmsg2 = true)
    (hv : ∀ r ∈ config.remotePort, r.valid) :
    VersionsAgree E old new cert connectionType remoteConfig config direction ↔ config.statesTx ∨ config.rx = none := by
  have ho : config.toServer old = config.toServer1 := by unfold ConfigurationOptional.toServer; rw [hold]; rfl
  have hn : config.toServer new = config.toServer2 := by unfold ConfigurationOptional.toServer; rw [hnew]; rfl
  obtain ⟨m1, h1, -, -⟩ := stated_received old ⟨CredentialsType.x509.toRepr, .bytes cert⟩ cert connectionType
    remoteConfig config direction rfl
  obtain ⟨m2, h2, -, -⟩ := stated_received new ⟨CredentialsType.x509.toRepr, .bytes cert⟩ cert connectionType
    remoteConfig config direction rfl
  obtain ⟨r1, s1, d1⟩ := requests_received old _ cert connectionType remoteConfig config direction rfl m1 h1
  obtain ⟨r2, s2, d2⟩ := requests_received new _ cert connectionType remoteConfig config direction rfl m2 h2
  rw [ho] at r1
  rw [hn] at r2
  constructor
  · intro h
    by_cases hst : config.statesTx
    · exact Or.inl hst
    apply Or.inr
    rw [toServer1_of_not_statesTx config hst] at r1
    rw [toServer2_of_not_statesTx config hst] at r2
    cases hrx : config.rx with
    | none => rfl
    | some r =>
      rw [hrx] at r2
      have hcomb := (h m1 m2 h1 h2).1
      have hserver : ∀ serverRx,
          (Manager.ofOptional E { ConfigurationOptional.empty with rx := serverRx }).getOptional E =
          .ok { ConfigurationOptional.empty with rx := serverRx } :=
          fun _ => Manager.getOptional_ofOptional E _ nofun nofun
      have settled := fun (m : ClientMessageV2) (req : Requests) (hreq : Requests.ofAttributes m.attributes = req)
          (hport : req.port = config.remotePort) (serverRx : Option UInt64) (rx : UInt64) hset =>
        combine_of_settled E (.ofOptional E { ConfigurationOptional.empty with rx := serverRx }) m _ (hserver serverRx)
          (by rw [hreq, hport]; exact hv) _ (by rw [hreq]; exact settled_rxOnly req serverRx rx hset)
      exfalso
      by_cases hr0 : r = 0
      · subst hr0
        have e1 := settled m1 _ r1 rfl none Configuration.systemDefault.rx rfl
        have e2 := settled m2 _ r2 rfl none 0 rfl
        have := hcomb (.ofOptional E { ConfigurationOptional.empty with rx := none })
        rw [e1, e2] at this
        have hd : Configuration.systemDefault.rx ≠ 0 := by decide
        refine validate_ne _ _ rfl ?_ this.symm
        exact hd
      · have hset : settle minIgnoringZero (some r) (some 0) Configuration.systemDefault.rx = .ok r := by
          unfold settle minIgnoringZero
          simp only [if_neg hr0, if_true]
        have e1 := settled m1 _ r1 rfl (some 0) 0 rfl
        have e2 := settled m2 _ r2 rfl (some 0) r hset
        have := hcomb (.ofOptional E { ConfigurationOptional.empty with rx := some 0 })
        rw [e1, e2] at this
        exact validate_ne _ _ rfl hr0 this
  · intro h x1 x2 hx1 hx2
    rw [h1] at hx1
    rw [h2] at hx2
    cases hx1
    cases hx2
    have hsame : config.toServer1 = config.toServer2 := by
      by_cases hst : config.statesTx
      · obtain ⟨e1, e2⟩ := toServer_eq_of_statesTx config hst
        rw [e1, e2]
      · rw [toServer1_of_not_statesTx config hst, toServer2_of_not_statesTx config hst, h.resolve_left hst]
    exact ⟨fun manager => combine_congr E manager m1 m2 (by rw [r1, r2, hsame]), by rw [s1, s2], by rw [d1, d2]⟩

/-- A client that states a receive bandwidth only. -/
def rxOnly (rx : UInt64) : ConfigurationOptional := { ConfigurationOptional.empty with rx := some rx }

theorem versions_agree_iff_rxOnly :
    VersionsAgree EngRepr.decimal (.level 2) (.level 3) [] .ipv4 false (rxOnly 123456) .both ↔
      (rxOnly 123456).statesTx ∨ (rxOnly 123456).rx = none :=
  versions_agree_iff EngRepr.decimal (.level 2) (.level 3) [] .ipv4 false (rxOnly 123456) .both rfl rfl nofun

/-- **A server limited to 200000 receives at 200000 from a version 1 client limited to 123456.** -/
theorem not_versions_agree_rxOnly :
    ¬ VersionsAgree EngRepr.decimal (.level 2) (.level 3) [] .ipv4 false (rxOnly 123456) .both := by
  intro h
  have hcomb := (h _ _ rfl rfl).1 (.ofOptional EngRepr.decimal (rxOnly 200000))
  have e1 : combineBandwidthConfigurations EngRepr.decimal (.ofOptional EngRepr.decimal (rxOnly 200000))
      ((received (.level 2) ⟨CredentialsType.x509.toRepr, .bytes []⟩ .ipv4 false (rxOnly 123456) .both).get rfl) =
      .ok { Configuration.systemDefault with rx := 200000, tx := 123456 } := by rfl
  have e2 : combineBandwidthConfigurations EngRepr.decimal (.ofOptional EngRepr.decimal (rxOnly 200000))
      ((received (.level 3) ⟨CredentialsType.x509.toRepr, .bytes []⟩ .ipv4 false (rxOnly 123456) .both).get rfl) =
      .ok { Configuration.systemDefault with rx := 123456, tx := 123456 } := by rfl
  have := e1.symm.trans (hcomb.trans e2)
  exact absurd (congrArg Configuration.rx (Except.ok.inj this)) (by decide)

/-! ## Negotiated rates -/

/-- The rate a side that states `rx` sends at. -/
def ConfigurationOptional.effectiveTx (o : ConfigurationOptional) (rx : UInt64) : UInt64 :=
  match o.tx with
  | none => rx
  | some t => if t = 0 then rx else t

/-- **The rates stay within both sides'**, of a server that states `s` and a client that states `r` to receive. -/
structure Bounded (server client : ConfigurationOptional) (s r : UInt64) (cfg : Configuration) : Prop where
  rxServer : cfg.getRx ≤ s
  rxClient : cfg.getRx ≤ client.effectiveTx r
  txServer : cfg.getTx ≤ server.effectiveTx s
  txClient : cfg.getTx ≤ r

theorem min_eq_ite (a b : UInt64) : min a b = if a ≤ b then a else b := rfl

/-- A stated rate against a stated non-zero limit comes to the smaller one. -/
theorem settle_min_some (c s d : UInt64) (hc : c ≠ 0) (hs : s ≠ 0) :
    settle minIgnoringZero (some c) (some s) d = .ok (if c ≤ s then c else s) := by
  unfold settle minIgnoringZero
  simp only [if_neg hc, if_neg hs, min_eq_ite]
  split
  · rename_i he
    rw [he, if_pos (UInt64.le_refl s)]
  · rfl

theorem effectiveTx_of_statesTx (o : ConfigurationOptional) (rx t : UInt64) (ht : o.tx = some t) (h0 : t ≠ 0) :
    o.effectiveTx rx = t := by
  unfold ConfigurationOptional.effectiveTx
  rw [ht]
  exact if_neg h0

theorem effectiveTx_of_not_statesTx (o : ConfigurationOptional) (rx : UInt64) (h : ¬ o.statesTx) :
    o.effectiveTx rx = rx := by
  unfold ConfigurationOptional.effectiveTx
  cases ht : o.tx with
  | none => rfl
  | some t => exact if_pos (Classical.not_not.1 fun h0 => h ⟨t, ht, h0⟩)

/-- What the server sends at, when the client states `r`. -/
theorem settle_tx (server : ConfigurationOptional) (r d : UInt64) (hr : r ≠ 0) :
    (server.statesTx → ∃ t, server.tx = some t ∧ t ≠ 0 ∧
      settle minIgnoringZero (some r) server.tx d = .ok (if r ≤ t then r else t)) ∧
    (¬ server.statesTx → settle minIgnoringZero (some r) server.tx d = .ok r) := by
  constructor
  · rintro ⟨t, ht, h0⟩
    exact ⟨t, ht, h0, by rw [ht]; exact settle_min_some r t d hr h0⟩
  · intro h
    cases ht : server.tx with
    | none => rfl
    | some t =>
      have h0 : t = 0 := Classical.not_not.1 fun h0 => h ⟨t, ht, h0⟩
      subst h0
      unfold settle minIgnoringZero
      simp only [if_neg hr, if_true]

/-- **Negotiated rates stay within both sides' exactly when neither limit is lost**: the server states a rate to send
at, or the client receives no faster than the server does; and the message is of version 2, or the client states a
rate to send at, or the server receives no faster than the client does. -/
theorem bounded_iff (E : EngRepr) (manager : Manager) (server client : ConfigurationOptional) (s r : UInt64)
    (compat : Compatibility) (cert : TaggedData) (certBytes : Bytes) (connectionType : ConnectionType)
    (remoteConfig : Bool) (direction : Direction) (m : ClientMessageV2) (cfg : Configuration)
    (hs : manager.getOptional E = .ok server) (hsr : server.rx = some s) (hs0 : s ≠ 0) (hcr : client.rx = some r)
    (hr0 : r ≠ 0) (hcert : cert.data = .bytes certBytes)
    (hm : received compat cert connectionType remoteConfig client direction = some m)
    (hcfg : combineBandwidthConfigurations E manager m = .ok cfg) :
    Bounded server client s r cfg ↔ (server.statesTx ∨ r ≤ s) ∧
      (compat.supports .cmsgSmsg2 = true ∨ client.statesTx ∨ s ≤ r) := by
  obtain ⟨hreq, -, -⟩ := requests_received compat cert certBytes connectionType remoteConfig client direction hcert m hm
  obtain ⟨hrx, htx, -⟩ := combine_ok_rates E manager m server hs cfg hcfg
  rw [hreq] at hrx htx
  have htx' : settle minIgnoringZero (some r) server.tx Configuration.systemDefault.tx = .ok cfg.tx := by
    rw [← hcr]; exact htx
  have hrx' : settle minIgnoringZero (client.toServer compat) (some s) Configuration.systemDefault.rx = .ok cfg.rx := by
    rw [← hsr]; exact hrx
  -- the two directions are independent
  have tx_iff : (cfg.getTx ≤ server.effectiveTx s ∧ cfg.getTx ≤ r) ↔ (server.statesTx ∨ r ≤ s) := by
    obtain ⟨h1, h2⟩ := settle_tx server r Configuration.systemDefault.tx hr0
    by_cases hst : server.statesTx
    · obtain ⟨t, ht, h0, he⟩ := h1 hst
      rw [htx'] at he
      have hval := Except.ok.inj he
      have hne : cfg.tx ≠ 0 := by rw [hval]; split <;> assumption
      have hg : cfg.getTx = if r ≤ t then r else t := by rw [← hval]; exact if_neg hne
      rw [effectiveTx_of_statesTx server s t ht h0, hg]
      refine ⟨fun _ => Or.inl hst, fun _ => ?_⟩
      split <;> grind
    · have hval := Except.ok.inj (htx'.symm.trans (h2 hst))
      have hg : cfg.getTx = r := by rw [← hval]; exact if_neg (by rw [hval]; exact hr0)
      rw [effectiveTx_of_not_statesTx server s hst, hg]
      exact ⟨fun h => Or.inr h.1, fun h => ⟨h.resolve_left hst, UInt64.le_refl r⟩⟩
  have rx_iff : (cfg.getRx ≤ s ∧ cfg.getRx ≤ client.effectiveTx r) ↔
      (compat.supports .cmsgSmsg2 = true ∨ client.statesTx ∨ s ≤ r) := by
    have stated : ∀ c, client.toServer compat = some c → c ≠ 0 → client.effectiveTx r = c →
        (cfg.getRx ≤ s ∧ cfg.getRx ≤ client.effectiveTx r) := by
      intro c hc hc0 he
      rw [hc, settle_min_some c s _ hc0 hs0] at hrx'
      have hval : (if c ≤ s then c else s) = cfg.getRx := Except.ok.inj hrx'
      rw [he, ← hval]
      split <;> grind
    by_cases hst : client.statesTx
    · obtain ⟨t, ht, h0⟩ := hst
      have hto : client.toServer compat = some t := by
        obtain ⟨e1, e2⟩ := toServer_eq_of_statesTx client ⟨t, ht, h0⟩
        unfold ConfigurationOptional.toServer
        rw [e1, e2, ite_self, ht]
      exact ⟨fun _ => Or.inr (Or.inl ⟨t, ht, h0⟩), fun _ => stated t hto h0 (effectiveTx_of_statesTx client r t ht h0)⟩
    · have heff := effectiveTx_of_not_statesTx client r hst
      cases hsup : compat.supports .cmsgSmsg2 with
      | true =>
        have hto : client.toServer compat = some r := by
          unfold ConfigurationOptional.toServer
          rw [hsup, if_pos rfl, toServer2_of_not_statesTx client hst, hcr]
        exact ⟨fun _ => Or.inl rfl, fun _ => stated r hto hr0 heff⟩
      | false =>
        have hto : client.toServer compat = none := by
          unfold ConfigurationOptional.toServer
          rw [hsup, if_neg (by decide), toServer1_of_not_statesTx client hst]
        rw [hto] at hrx'
        have hval : s = cfg.getRx := Except.ok.inj hrx'
        rw [heff, ← hval]
        exact ⟨fun h => Or.inr (Or.inr h.2),
          fun h => ⟨UInt64.le_refl s, (h.resolve_left (by decide)).resolve_left hst⟩⟩
  rw [← tx_iff, ← rx_iff]
  exact ⟨fun h => ⟨⟨h.txServer, h.txClient⟩, h.rxServer, h.rxClient⟩, fun ⟨⟨h1, h2⟩, h3, h4⟩ => ⟨h3, h4, h1, h2⟩⟩

/-- The message of a client that states a receive bandwidth of 200000 only. -/
def fastClientMessage : ClientMessageV2 :=
  (received (.level 3) ⟨CredentialsType.x509.toRepr, .bytes []⟩ .ipv4 false (rxOnly 200000) .both).get rfl

/-- What a server that states a receive bandwidth of 100000 only makes of it. -/
def slowServerConfig : Configuration := { Configuration.systemDefault with rx := 100000, tx := 200000 }

theorem combine_slowServer : combineBandwidthConfigurations EngRepr.decimal
    (.ofOptional EngRepr.decimal (rxOnly 100000)) fastClientMessage = .ok slowServerConfig := by rfl

theorem bounded_iff_slowServer : Bounded (rxOnly 100000) (rxOnly 200000) 100000 200000 slowServerConfig ↔
    ((rxOnly 100000).statesTx ∨ (200000 : UInt64) ≤ 100000) ∧
      ((Compatibility.level 3).supports .cmsgSmsg2 = true ∨ (rxOnly 200000).statesTx ∨ (100000 : UInt64) ≤ 200000) :=
  bounded_iff EngRepr.decimal (.ofOptional EngRepr.decimal (rxOnly 100000)) (rxOnly 100000) (rxOnly 200000)
    100000 200000
    (.level 3) ⟨CredentialsType.x509.toRepr, .bytes []⟩ [] .ipv4 false .both fastClientMessage slowServerConfig
    (Manager.getOptional_ofOptional _ _ nofun nofun) rfl (by decide) rfl (by decide) rfl rfl combine_slowServer

/-- **A server limited to 100000 is made to send at 200000.** -/
theorem not_bounded_slowServer : ∃ cfg,
    combineBandwidthConfigurations EngRepr.decimal (.ofOptional EngRepr.decimal (rxOnly 100000)) fastClientMessage =
      .ok cfg ∧ ¬ Bounded (rxOnly 100000) (rxOnly 200000) 100000 200000 cfg :=
  ⟨slowServerConfig, combine_slowServer, fun h => absurd h.txServer (by decide)⟩

end Qcp
