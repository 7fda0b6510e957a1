import Qcp.ClientMsg
/-!
# Negotiate — combining the two sides' preferences

`combineBandwidthConfigurations` reads the server's preferences out of its manager, resolves each parameter against
the client's attributes into two fresh layers, merges these over the server's and fills up with the system default.
`settle` is what one parameter comes to; `combine_eq_ok_iff` says that the function succeeds exactly with the
configuration every parameter of which is settled, and which validates.
-/
namespace Qcp

open Layers (Dict)

inductive NegotiateError where
  | config (e : ConfigError)
  | congestion
  | port (theirs self : PortRange)
  | invalid (e : ValidationError)
deriving DecidableEq, Repr

def NegotiateError.congestionText : List Char :=
  "server and client have incompatible congestion algorithm requirements".toList

def NegotiateError.portText (theirs self : PortRange) : List Char :=
  "requested port range ".toList ++ theirs.display ++ " could not be satisfied (our config: ".toList ++ self.display ++
    ")".toList

inductive CombinationResponse (α : Type) where
  | server
  | client
  | combined (a : α)
  | failure (e : NegotiateError)

/-- Negotiation of a single parameter; a value goes to `clientOut` or to `resolvedOut` under `key`. -/
def negotiateV3 {α : Type} [DecidableEq α] (toValue : α → Value) (client server : Option α)
    (resolveConflict : α → α → CombinationResponse α) (clientOut resolvedOut : Dict Key Value) (key : Key) :
    Except NegotiateError (Dict Key Value × Dict Key Value) :=
  match client, server with
  | none, none => .ok (clientOut, resolvedOut)
  | some cc, none => .ok (clientOut.insert key (toValue cc), resolvedOut)
  -- only server specified; it's already in our config layer
  | none, some _ => .ok (clientOut, resolvedOut)
  | some cc, some ss =>
    if cc = ss then .ok (clientOut, resolvedOut)
    else match resolveConflict cc ss with
      | .server => .ok (clientOut, resolvedOut)
      | .client => .ok (clientOut.insert key (toValue cc), resolvedOut)
      | .combined val => .ok (clientOut, resolvedOut.insert key (toValue val))
      | .failure err => .error err

def minIgnoringZero (cli srv : UInt64) : CombinationResponse UInt64 :=
  if cli = 0 then .server else if srv = 0 then .client else .combined (min cli srv)

def clientWins {α : Type} (_ _ : α) : CombinationResponse α := .client

def serverWins {α : Type} (_ _ : α) : CombinationResponse α := .server

def congestionConflict (_ _ : CongestionController) : CombinationResponse CongestionController := .failure .congestion

def portConflict (a b : PortRange) : CombinationResponse PortRange :=
  match PortRange.combine a b with
  | .ok r => .combined r
  | .error (theirs, self) => .failure (.port theirs self)

/-- What the client's attributes ask for. -/
structure Requests where
  rx : Option UInt64
  tx : Option UInt64
  rtt : Option UInt16
  congestion : Option CongestionController
  initialCongestionWindow : Option UInt64
  port : Option PortRange
  timeout : Option UInt16

open ClientMessage2Attributes in
def Requests.ofAttributes (ca : List TaggedData) : Requests where
  rx := (findTag ca bandwidthToServer.toRepr).map Variant.coerceUnsigned
  tx := (findTag ca bandwidthToClient.toRepr).map Variant.coerceUnsigned
  rtt := (findTag ca roundTripTime.toRepr).map fun v => (v.coerceUnsigned &&& 0xffff).toUInt16
  congestion := (findTag ca congestionControllerType.toRepr).bind fun v =>
    CongestionController.fromRepr v.coerceUnsigned
  initialCongestionWindow :=
    (findTag ca ClientMessage2Attributes.initialCongestionWindow.toRepr).map Variant.coerceUnsigned
  port :=
    match (findTag ca portRangeStart.toRepr).map fun v => v.coerceUnsigned.toUInt16,
        (findTag ca portRangeEnd.toRepr).map fun v => v.coerceUnsigned.toUInt16 with
    | none, none => none
    | some it, none => some ⟨it, it⟩
    | none, some it => some ⟨it, it⟩
    | some b, some e => some ⟨b, e⟩
  timeout := (findTag ca quicTimeout.toRepr).map fun v => (v.coerceUnsigned &&& 0xffff).toUInt16

/-- Numbers under `rx` and `tx` are shown in engineering notation. -/
def makeDictHumanFriendly (E : EngRepr) (d : Dict Key Value) : Dict Key Value := fun k =>
  match k, d k with
  | .rx, some (.num n) => some (.str (E.toEng n))
  | .tx, some (.num n) => some (.str (E.toEng n))
  | _, v => v

def u16Value (n : UInt16) : Value := .num n.toUInt64
def congestionValue (c : CongestionController) : Value := .str c.toString
def portValue (r : PortRange) : Value := .str r.display

/-- The layers picked from the client and the layers negotiated. -/
def negotiateAll (client : Requests) (server : ConfigurationOptional) :
    Except NegotiateError (Dict Key Value × Dict Key Value) := do
  let (picks, negotiated) ← negotiateV3 .num client.rx server.rx minIgnoringZero (fun _ => none) (fun _ => none) .rx
  let (picks, negotiated) ← negotiateV3 .num client.tx server.tx minIgnoringZero picks negotiated .tx
  let (picks, negotiated) ← negotiateV3 u16Value client.rtt server.rtt clientWins picks negotiated .rtt
  let (picks, negotiated) ← negotiateV3 congestionValue client.congestion server.congestion congestionConflict picks
    negotiated .congestion
  let (picks, negotiated) ← negotiateV3 .num client.initialCongestionWindow server.initialCongestionWindow serverWins
    picks negotiated .initialCongestionWindow
  let (picks, negotiated) ← negotiateV3 portValue client.port server.port portConflict picks negotiated .port
  negotiateV3 u16Value client.timeout server.timeout clientWins picks negotiated .timeout

/-- The server's manager with what was negotiated merged in. -/
def combinedManager (E : EngRepr) (manager : Manager) (client : Requests) : Except NegotiateError Manager := do
  let server ← (manager.getOptional E).mapError .config
  let (picks, negotiated) ← negotiateAll client server
  return ((manager.mergeProvider (.ok (makeDictHumanFriendly E picks))).mergeProvider
    (.ok (makeDictHumanFriendly E negotiated))).applySystemDefault E

def combineBandwidthConfigurations (E : EngRepr) (manager : Manager) (client : ClientMessageV2) :
    Except NegotiateError Configuration := do
  let manager ← combinedManager E manager (Requests.ofAttributes client.attributes)
  let cfg ← (manager.get E).mapError .config
  cfg.validate.mapError .invalid

/-! ## One parameter -/

section OneParameter

variable {α : Type} [DecidableEq α]

/-- What one parameter comes to when nobody's preference stands for the default. -/
def settle (resolve : α → α → CombinationResponse α) (client server : Option α) (dflt : α) : Except NegotiateError α :=
  match client, server with
  | none, none => .ok dflt
  | some cc, none => .ok cc
  | none, some ss => .ok ss
  | some cc, some ss =>
    if cc = ss then .ok ss
    else match resolve cc ss with
      | .server => .ok ss
      | .client => .ok cc
      | .combined val => .ok val
      | .failure err => .error err

/-- What one negotiation adds to the client's layer and to the resolved one. -/
def outcome (resolve : α → α → CombinationResponse α) (client server : Option α) :
    Except NegotiateError (Option α × Option α) :=
  match client, server with
  | none, _ => .ok (none, none)
  | some cc, none => .ok (some cc, none)
  | some cc, some ss =>
    if cc = ss then .ok (none, none)
    else match resolve cc ss with
      | .server => .ok (none, none)
      | .client => .ok (some cc, none)
      | .combined val => .ok (none, some val)
      | .failure err => .error err

def insertOpt (d : Dict Key Value) (k : Key) : Option Value → Dict Key Value
  | none => d
  | some v => d.insert k v

theorem insertOpt_apply (d : Dict Key Value) (k k' : Key) (o : Option Value) :
    insertOpt d k o k' = if k' = k then o.or (d k') else d k' := by
  cases o with
  | none => exact (ite_self _).symm
  | some v => rfl

theorem negotiateV3_eq (toValue : α → Value) (client server : Option α) (resolve : α → α → CombinationResponse α)
    (co ro : Dict Key Value) (k : Key) : negotiateV3 toValue client server resolve co ro k =
      (outcome resolve client server).map fun p =>
        (insertOpt co k (p.1.map toValue), insertOpt ro k (p.2.map toValue)) := by
  unfold negotiateV3 outcome
  cases client with
  | none => cases server <;> rfl
  | some cc =>
    cases server with
    | none => rfl
    | some ss =>
      simp only
      split
      · rfl
      · cases resolve cc ss <;> rfl

theorem settle_serverWins (client server : Option α) (d a : α) :
    settle serverWins client server d = .ok a ↔ a = (server.or client).getD d := by
  unfold settle serverWins
  cases client with
  | none => cases server <;> simp [eq_comm]
  | some c =>
    cases server with
    | none => simp [eq_comm]
    | some s => simp [eq_comm]

/-- **The layers decide a parameter as `settle` does**, when what was added reads back. -/
theorem settle_eq_of_outcome (resolve : α → α → CombinationResponse α) (client server : Option α) (dflt : α)
    (c r : Option α) (h : outcome resolve client server = .ok (c, r)) :
    settle resolve client server dflt = .ok ((r.or (c.or server)).getD dflt) := by
  unfold outcome at h
  unfold settle
  cases client with
  | none => cases h; cases server <;> rfl
  | some cc =>
    cases server with
    | none => cases h; rfl
    | some ss =>
      simp only at h ⊢
      split at h
      · rename_i he; cases h; rw [if_pos he]; rfl
      · rename_i hne
        rw [if_neg hne]
        cases hr : resolve cc ss <;> rw [hr] at h <;> cases h <;> rfl

theorem outcome_of_settle (resolve : α → α → CombinationResponse α) (client server : Option α) (dflt a : α)
    (h : settle resolve client server dflt = .ok a) : ∃ c r, outcome resolve client server = .ok (c, r) := by
  unfold settle at h
  unfold outcome
  cases client with
  | none => exact ⟨_, _, rfl⟩
  | some cc =>
    cases server with
    | none => exact ⟨_, _, rfl⟩
    | some ss =>
      simp only at h ⊢
      split
      · exact ⟨_, _, rfl⟩
      · rename_i hne
        rw [if_neg hne] at h
        cases hr : resolve cc ss with
        | failure e => rw [hr] at h; cases h
        | server => exact ⟨_, _, rfl⟩
        | client => exact ⟨_, _, rfl⟩
        | combined v => exact ⟨_, _, rfl⟩

/-- What was added comes from the client or from the resolution of a conflict. -/
theorem outcome_from (resolve : α → α → CombinationResponse α) (client server c r : Option α)
    (h : outcome resolve client server = .ok (c, r)) :
    (∀ a ∈ c, a ∈ client) ∧ ∀ a ∈ r, ∃ cc ∈ client, ∃ ss ∈ server, resolve cc ss = .combined a := by
  unfold outcome at h
  cases client with
  | none => cases h; exact ⟨nofun, nofun⟩
  | some cc =>
    cases server with
    | none => cases h; exact ⟨fun _ h => h, nofun⟩
    | some ss =>
      simp only at h
      split at h
      · cases h; exact ⟨nofun, nofun⟩
      · cases hr : resolve cc ss with
        | server => rw [hr] at h; cases h; exact ⟨nofun, nofun⟩
        | client => rw [hr] at h; cases h; exact ⟨fun _ h => h, nofun⟩
        | combined v =>
          rw [hr] at h; cases h
          refine ⟨nofun, fun a ha => ⟨cc, rfl, ss, rfl, ?_⟩⟩
          cases ha
          exact hr
        | failure e => rw [hr] at h; cases h

omit [DecidableEq α] in
/-- **A field read after its negotiation** is what was resolved, else picked, else the server's, else the default. -/
theorem get_settled (f : Field α) (w : α → Value) (server : Option α) (look picks negotiated dflt : Dict Key Value)
    (c r : Option α) (d : α) (hs : f.getOpt look = .ok server) (hd : f.get dflt = .ok d)
    (hp : picks f.key = c.map w) (hn : negotiated f.key = r.map w) (hc : ∀ a ∈ c, f.read (w a) = some a)
    (hr : ∀ a ∈ r, f.read (w a) = some a) :
    f.get (fun k => ((negotiated k).or ((picks k).or (look k))).or (dflt k)) =
      .ok ((r.or (c.or server)).getD d) := by
  have key : f.getOpt (fun k => (negotiated k).or ((picks k).or (look k))) = .ok (r.or (c.or server)) := by
    cases r with
    | some a => exact f.getOpt_of_look _ (w a) a (by rw [hn]; rfl) (hr a rfl)
    | none =>
      cases c with
      | some a => exact f.getOpt_of_look _ (w a) a (by rw [hn, hp]; rfl) (hc a rfl)
      | none =>
        have e : (negotiated f.key).or ((picks f.key).or (look f.key)) = look f.key := by rw [hn, hp]; rfl
        unfold Field.getOpt at hs ⊢
        simp only [e]
        exact hs
  rw [f.get_or _ dflt _ key]
  cases r.or (c.or server) with
  | some a => rfl
  | none => exact hd

end OneParameter

/-! ## All parameters -/

/-- What each negotiation added. -/
structure Outcomes (client : Requests) (server : ConfigurationOptional) where
  rx : Option UInt64 × Option UInt64
  tx : Option UInt64 × Option UInt64
  rtt : Option UInt16 × Option UInt16
  congestion : Option CongestionController × Option CongestionController
  initialCongestionWindow : Option UInt64 × Option UInt64
  port : Option PortRange × Option PortRange
  timeout : Option UInt16 × Option UInt16
  rx_eq : outcome minIgnoringZero client.rx server.rx = .ok rx
  tx_eq : outcome minIgnoringZero client.tx server.tx = .ok tx
  rtt_eq : outcome clientWins client.rtt server.rtt = .ok rtt
  congestion_eq : outcome congestionConflict client.congestion server.congestion = .ok congestion
  initialCongestionWindow_eq : outcome serverWins client.initialCongestionWindow server.initialCongestionWindow =
    .ok initialCongestionWindow
  port_eq : outcome portConflict client.port server.port = .ok port
  timeout_eq : outcome clientWins client.timeout server.timeout = .ok timeout

/-- One value under each negotiated key. -/
def layerOf (rx tx : Option UInt64) (rtt : Option UInt16) (congestion : Option CongestionController)
    (icw : Option UInt64) (port : Option PortRange) (timeout : Option UInt16) : Dict Key Value
  | .rx => rx.map .num
  | .tx => tx.map .num
  | .rtt => rtt.map u16Value
  | .congestion => congestion.map congestionValue
  | .initialCongestionWindow => icw.map .num
  | .port => port.map portValue
  | .timeout => timeout.map u16Value
  | _ => none

namespace Outcomes

variable {client : Requests} {server : ConfigurationOptional}

def picks (o : Outcomes client server) : Dict Key Value :=
  layerOf o.rx.1 o.tx.1 o.rtt.1 o.congestion.1 o.initialCongestionWindow.1 o.port.1 o.timeout.1

def negotiated (o : Outcomes client server) : Dict Key Value :=
  layerOf o.rx.2 o.tx.2 o.rtt.2 o.congestion.2 o.initialCongestionWindow.2 o.port.2 o.timeout.2

/-- The seven insertions, each under its own key. -/
theorem insertAll_eq (rx tx : Option UInt64) (rtt : Option UInt16) (congestion : Option CongestionController)
    (icw : Option UInt64) (port : Option PortRange) (timeout : Option UInt16) :
    insertOpt (insertOpt (insertOpt (insertOpt (insertOpt (insertOpt (insertOpt (fun _ => none) .rx (rx.map .num)) .tx
      (tx.map .num)) .rtt (rtt.map u16Value)) .congestion (congestion.map congestionValue)) .initialCongestionWindow
      (icw.map .num)) .port (port.map portValue)) .timeout (timeout.map u16Value) =
      layerOf rx tx rtt congestion icw port timeout := by
  funext k
  cases k <;> simp only [insertOpt_apply, reduceCtorEq, ite_true, ite_false, Option.or_none, layerOf]

theorem negotiateAll_eq (o : Outcomes client server) : negotiateAll client server = .ok (o.picks, o.negotiated) := by
  unfold negotiateAll
  simp only [negotiateV3_eq, o.rx_eq, o.tx_eq, o.rtt_eq, o.congestion_eq, o.initialCongestionWindow_eq, o.port_eq,
    o.timeout_eq, Except.map, bind, Except.bind, insertAll_eq]
  rfl

/-- Any successful run of the seven negotiations has outcomes. -/
theorem exists_of_ok (p : Dict Key Value × Dict Key Value) (h : negotiateAll client server = .ok p) :
    Nonempty (Outcomes client server) := by
  unfold negotiateAll at h
  simp only [negotiateV3_eq] at h
  cases h1 : outcome minIgnoringZero client.rx server.rx with
  | error e => rw [h1] at h; cases h
  | ok rx =>
  cases h2 : outcome minIgnoringZero client.tx server.tx with
  | error e => rw [h1, h2] at h; cases h
  | ok tx =>
  cases h3 : outcome clientWins client.rtt server.rtt with
  | error e => rw [h1, h2, h3] at h; cases h
  | ok rtt =>
  cases h4 : outcome congestionConflict client.congestion server.congestion with
  | error e => rw [h1, h2, h3, h4] at h; cases h
  | ok congestion =>
  cases h5 : outcome serverWins client.initialCongestionWindow server.initialCongestionWindow with
  | error e => rw [h1, h2, h3, h4, h5] at h; cases h
  | ok icw =>
  cases h6 : outcome portConflict client.port server.port with
  | error e => rw [h1, h2, h3, h4, h5, h6] at h; cases h
  | ok port =>
  cases h7 : outcome clientWins client.timeout server.timeout with
  | error e => rw [h1, h2, h3, h4, h5, h6, h7] at h; cases h
  | ok timeout => exact ⟨⟨rx, tx, rtt, congestion, icw, port, timeout, h1, h2, h3, h4, h5, h6, h7⟩⟩

/-- The dictionary the final configuration is read from, over the server's own. -/
def final (o : Outcomes client server) (E : EngRepr) (look : Dict Key Value) : Dict Key Value := fun k =>
  ((makeDictHumanFriendly E o.negotiated k).or ((makeDictHumanFriendly E o.picks k).or (look k))).or
    (Configuration.systemDefault.toDict E k)

end Outcomes

theorem friendly_num (E : EngRepr) (d : Dict Key Value) (k : Key) (hk : k = .rx ∨ k = .tx) (c : Option UInt64)
    (h : d k = c.map .num) : makeDictHumanFriendly E d k = c.map fun n => .str (E.toEng n) := by
  unfold makeDictHumanFriendly
  rcases hk with rfl | rfl <;> cases c <;> simp only [h, Option.map]

theorem friendly_other (E : EngRepr) (d : Dict Key Value) (k : Key) (h : k ≠ .rx) (h' : k ≠ .tx) :
    makeDictHumanFriendly E d k = d k := by
  unfold makeDictHumanFriendly
  split
  · exact absurd rfl h
  · exact absurd rfl h'
  · rfl

/-- What the manager reads once both layers and the default are merged in. -/
theorem get_merged (E : EngRepr) (l : Layers.Layered Key Value) (d1 d2 : Dict Key Value) :
    (((Manager.mk (.ok l)).mergeProvider (.ok d1)).mergeProvider (.ok d2) |>.applySystemDefault E).get E =
      Configuration.extract E fun k =>
        ((d2 k).or ((d1 k).or (l.look k))).or (Configuration.systemDefault.toDict E k) := by
  show Configuration.extract E (((l.merge .global d1).merge .global d2).join .dflt _).look = _
  congr 1
  funext k
  rw [Layers.Layered.look_join_default, Layers.Layered.look_merge_global, Layers.Layered.look_merge_global]

theorem mapError_eq_ok {ε ε' β : Type} (f : ε → ε') (x : Except ε β) (b : β) : x.mapError f = .ok b ↔ x = .ok b := by
  cases x with
  | error e => exact ⟨nofun, nofun⟩
  | ok a => exact ⟨fun h => by cases h; rfl, fun h => by cases h; rfl⟩

/-- What is settled on is valid. -/
theorem valid_of_combine {E : EngRepr} {manager : Manager} {client : ClientMessageV2} {config : Configuration}
    (h : combineBandwidthConfigurations E manager client = .ok config) : config.tryValidate = .ok () := by
  obtain ⟨_, -, h⟩ := (Configuration.bind_eq_ok _ _ _).1 h
  obtain ⟨_, -, h⟩ := (Configuration.bind_eq_ok _ _ _).1 h
  obtain ⟨rfl, hv⟩ := (Configuration.validate_eq_ok_iff _ _).1 ((mapError_eq_ok _ _ _).1 h)
  exact hv

/-- **The combination succeeds exactly when the negotiations do, and the configuration read afterwards validates.** -/
theorem combine_eq_ok (E : EngRepr) (manager : Manager) (client : ClientMessageV2) (server : ConfigurationOptional)
    (hs : manager.getOptional E = .ok server) : ∃ look : Dict Key Value, ConfigurationOptional.Reads E look server ∧
      ∀ cfg, combineBandwidthConfigurations E manager client = .ok cfg ↔
        ∃ o : Outcomes (Requests.ofAttributes client.attributes) server,
          Configuration.Reads E (o.final E look) cfg ∧ cfg.tryValidate = .ok () := by
  obtain ⟨data⟩ := manager
  cases data with
  | error e => cases hs
  | ok l =>
    refine ⟨l.look, (ConfigurationOptional.extract_eq_ok_iff E _ _).1 hs, fun cfg => ?_⟩
    generalize hreq : Requests.ofAttributes client.attributes = req
    unfold combineBandwidthConfigurations combinedManager
    rw [hreq, hs]
    simp only [Configuration.bind_eq_ok, mapError_eq_ok, Except.ok.injEq, Configuration.validate_eq_ok_iff]
    constructor
    · rintro ⟨m, ⟨_, rfl, p, hp, hm⟩, c, hc, rfl, hv⟩
      obtain ⟨o⟩ := Outcomes.exists_of_ok p hp
      rw [o.negotiateAll_eq] at hp
      cases hp
      cases hm
      rw [get_merged] at hc
      exact ⟨o, (Configuration.extract_eq_ok_iff E _ _).1 hc, hv⟩
    · rintro ⟨o, hr, hv⟩
      refine ⟨_, ⟨server, rfl, _, o.negotiateAll_eq, rfl⟩, cfg, ?_, rfl, hv⟩
      rw [get_merged]
      exact (Configuration.extract_eq_ok_iff E _ _).2 hr

/-! ## What every field comes to -/

/-- **Every negotiated field is settled, every other one is the server's or the default.** -/
structure Settled (client : Requests) (server : ConfigurationOptional) (cfg : Configuration) : Prop where
  rx : settle minIgnoringZero client.rx server.rx Configuration.systemDefault.rx = .ok cfg.rx
  tx : settle minIgnoringZero client.tx server.tx Configuration.systemDefault.tx = .ok cfg.tx
  rtt : settle clientWins client.rtt server.rtt Configuration.systemDefault.rtt = .ok cfg.rtt
  congestion : settle congestionConflict client.congestion server.congestion Configuration.systemDefault.congestion =
    .ok cfg.congestion
  initialCongestionWindow : settle serverWins client.initialCongestionWindow server.initialCongestionWindow
    Configuration.systemDefault.initialCongestionWindow = .ok cfg.initialCongestionWindow
  port : settle portConflict client.port server.port Configuration.systemDefault.port = .ok cfg.port
  timeout : settle clientWins client.timeout server.timeout Configuration.systemDefault.timeout = .ok cfg.timeout
  udpBuffer : cfg.udpBuffer = server.udpBuffer.getD Configuration.systemDefault.udpBuffer
  initialMtu : cfg.initialMtu = server.initialMtu.getD Configuration.systemDefault.initialMtu
  minMtu : cfg.minMtu = server.minMtu.getD Configuration.systemDefault.minMtu
  maxMtu : cfg.maxMtu = server.maxMtu.getD Configuration.systemDefault.maxMtu
  remotePort : cfg.remotePort = server.remotePort.getD Configuration.systemDefault.remotePort
  tlsAuthType : cfg.tlsAuthType = server.tlsAuthType.getD Configuration.systemDefault.tlsAuthType
  ioBufferSize : cfg.ioBufferSize = server.ioBufferSize.getD Configuration.systemDefault.ioBufferSize

theorem reads_systemDefault (E : EngRepr) :
    Configuration.Reads E (Configuration.systemDefault.toDict E) Configuration.systemDefault :=
  (Configuration.extract_eq_ok_iff E _ _).1 (Configuration.extract_toDict E _ (by decide) (by decide))

namespace Outcomes

variable {client : Requests} {server : ConfigurationOptional} {E : EngRepr} {look : Dict Key Value}

/-- A quantity that is negotiated, read afterwards. -/
theorem get_quantity (o : Outcomes client server) (f : Field UInt64) (hf : f.read = readQuantity E)
    (hk : f.key = .rx ∨ f.key = .tx) (resolve : UInt64 → UInt64 → CombinationResponse UInt64)
    (cli srv c r : Option UInt64) (d : UInt64) (ho : outcome resolve cli srv = .ok (c, r))
    (hp : o.picks f.key = c.map .num) (hn : o.negotiated f.key = r.map .num) (hs : f.getOpt look = .ok srv)
    (hd : f.get (Configuration.systemDefault.toDict E) = .ok d) (a : UInt64) :
    f.get (o.final E look) = .ok a ↔ settle resolve cli srv d = .ok a := by
  have hr : ∀ n, f.read (.str (E.toEng n)) = some n := fun n => by rw [hf]; exact E.parse_toEng n
  unfold final
  rw [settle_eq_of_outcome _ _ _ _ _ _ ho, get_settled f (fun n => .str (E.toEng n)) srv look _ _ _ c r d hs hd
    (friendly_num E _ _ hk c hp) (friendly_num E _ _ hk r hn) (fun n _ => hr n) (fun n _ => hr n)]
  exact ⟨fun h => by cases h; rfl, fun h => by cases h; rfl⟩

/-- Any other negotiated field, read afterwards. -/
theorem get_negotiated {α : Type} [DecidableEq α] (o : Outcomes client server) (f : Field α) (w : α → Value)
    (h1 : f.key ≠ .rx) (h2 : f.key ≠ .tx) (resolve : α → α → CombinationResponse α) (cli srv c r : Option α) (d : α)
    (ho : outcome resolve cli srv = .ok (c, r)) (hp : o.picks f.key = c.map w) (hn : o.negotiated f.key = r.map w)
    (hs : f.getOpt look = .ok srv) (hd : f.get (Configuration.systemDefault.toDict E) = .ok d)
    (hc : ∀ a ∈ c, f.read (w a) = some a) (hr : ∀ a ∈ r, f.read (w a) = some a) (a : α) :
    f.get (o.final E look) = .ok a ↔ settle resolve cli srv d = .ok a := by
  unfold final
  rw [settle_eq_of_outcome _ _ _ _ _ _ ho, get_settled f w srv look _ _ _ c r d hs hd
    ((friendly_other E _ _ h1 h2).trans hp) ((friendly_other E _ _ h1 h2).trans hn) hc hr]
  exact ⟨fun h => by cases h; rfl, fun h => by cases h; rfl⟩

/-- A field that is not negotiated, read afterwards. -/
theorem get_plain {α : Type} (o : Outcomes client server) (f : Field α) (h1 : f.key ≠ .rx) (h2 : f.key ≠ .tx)
    (srv : Option α) (d : α) (hp : o.picks f.key = none) (hn : o.negotiated f.key = none)
    (hs : f.getOpt look = .ok srv) (hd : f.get (Configuration.systemDefault.toDict E) = .ok d) (a : α) :
    f.get (o.final E look) = .ok a ↔ a = srv.getD d := by
  unfold final
  rw [get_settled f (fun _ => .num 0) srv look _ _ _ none none d hs hd ((friendly_other E _ _ h1 h2).trans hp)
    ((friendly_other E _ _ h1 h2).trans hn) nofun nofun]
  exact ⟨fun h => by cases h; rfl, fun h => by rw [h]; rfl⟩

theorem reads_rx (o : Outcomes client server) (hl : ConfigurationOptional.Reads E look server) (a : UInt64) :
    (Field.rx E).get (o.final E look) = .ok a ↔
      settle minIgnoringZero client.rx server.rx Configuration.systemDefault.rx = .ok a :=
  o.get_quantity (Field.rx E) rfl (.inl rfl) _ _ _ _ _ _ o.rx_eq rfl rfl hl.rx (reads_systemDefault E).rx a

theorem reads_tx (o : Outcomes client server) (hl : ConfigurationOptional.Reads E look server) (a : UInt64) :
    (Field.tx E).get (o.final E look) = .ok a ↔
      settle minIgnoringZero client.tx server.tx Configuration.systemDefault.tx = .ok a :=
  o.get_quantity (Field.tx E) rfl (.inr rfl) _ _ _ _ _ _ o.tx_eq rfl rfl hl.tx (reads_systemDefault E).tx a

theorem readPortRange_portValue (r : PortRange) (h : r.valid) : readPortRange (portValue r) = some r :=
  Configuration.readPortRange_display r h

theorem valid_of_getOpt (s : Option PortRange) (h : Field.port.getOpt look = .ok s) : ∀ r ∈ s, r.valid := by
  rintro r rfl
  obtain ⟨v, -, hv⟩ := (Field.getOpt_some_iff _ _ _).1 h
  cases v with
  | num n => cases hv
  | str t =>
    apply PortRange.valid_of_fromStr t r
    have hv' : (PortRange.fromStr t).toOption = some r := hv
    cases ht : PortRange.fromStr t with
    | error e => rw [ht] at hv'; cases hv'
    | ok x => rw [ht] at hv'; cases hv'; rfl

theorem reads_port (o : Outcomes client server) (hl : ConfigurationOptional.Reads E look server)
    (hv : ∀ r ∈ client.port, r.valid) (a : PortRange) : Field.port.get (o.final E look) = .ok a ↔
      settle portConflict client.port server.port Configuration.systemDefault.port = .ok a := by
  have hvs := valid_of_getOpt server.port hl.port
  obtain ⟨hc, hr⟩ := outcome_from _ _ _ _ _ o.port_eq
  refine o.get_negotiated Field.port portValue (by decide) (by decide) _ _ _ _ _ _ o.port_eq rfl rfl hl.port
    (reads_systemDefault E).port (fun r h => readPortRange_portValue r (hv r (hc r h))) (fun r h => ?_) a
  obtain ⟨cc, hcc, ss, hss, hcomb⟩ := hr r h
  refine readPortRange_portValue r (PortRange.combine_valid cc ss r (hv cc hcc) (hvs ss hss) ?_)
  unfold portConflict at hcomb
  split at hcomb
  · rename_i x hx; cases hcomb; exact hx
  · cases hcomb

/-- A range that was added is read only if it is valid. -/
theorem readPortRange_not_valid (r : PortRange) (h : ¬ r.valid) : readPortRange (portValue r) = none := by
  obtain ⟨e, he⟩ := r.fromStr_display_error h
  unfold readPortRange portValue
  simp only [he]
  rfl

/-- What a range that was added is read as. -/
theorem get_added (look : Dict Key Value) (r a : PortRange) (h : look .port = some (portValue r)) :
    Field.port.get look = .ok a ↔ r = a ∧ a.valid := by
  by_cases hv : r.valid
  · rw [Field.get_of_look Field.port look _ r h (readPortRange_portValue r hv), Except.ok.injEq]
    exact ⟨fun he => ⟨he, he ▸ hv⟩, fun he => he.1⟩
  · rw [Field.get_of_unread Field.port look _ h (readPortRange_not_valid r hv)]
    exact ⟨nofun, fun ⟨he, ha⟩ => absurd (he ▸ ha) hv⟩

/-- **The port read afterwards is the settled one, if that is valid.** -/
theorem reads_port_iff (o : Outcomes client server) (hl : ConfigurationOptional.Reads E look server) (a : PortRange) :
    Field.port.get (o.final E look) = .ok a ↔
      settle portConflict client.port server.port Configuration.systemDefault.port = .ok a ∧ a.valid := by
  have hs := settle_eq_of_outcome portConflict client.port server.port Configuration.systemDefault.port o.port.1
    o.port.2 o.port_eq
  have hlook : o.final E look .port = ((o.port.2.map portValue).or ((o.port.1.map portValue).or (look .port))).or
      (some (portValue Configuration.systemDefault.port)) := rfl
  rw [hs, Except.ok.injEq]
  cases hr : o.port.2 with
  | some r => exact get_added _ r a (by rw [hlook, hr]; rfl)
  | none =>
    cases hc : o.port.1 with
    | some c => exact get_added _ c a (by rw [hlook, hr, hc]; rfl)
    | none =>
      rw [hr, hc] at hlook
      -- nothing was added: it is the server's own, or the default
      cases hsrv : server.port with
      | none =>
        rw [show look .port = none from (Field.getOpt_none_iff Field.port look).1 (hsrv ▸ hl.port)] at hlook
        exact get_added _ _ a hlook
      | some r =>
        obtain ⟨v, hv, hread⟩ := (Field.getOpt_some_iff _ _ _).1 (hsrv ▸ hl.port)
        have hv : look .port = some v := hv
        rw [hv] at hlook
        rw [Field.get_of_look Field.port _ v r hlook hread, Except.ok.injEq]
        exact ⟨fun he => ⟨he, he ▸ valid_of_getOpt (some r) (hsrv ▸ hl.port) r rfl⟩, fun he => he.1⟩

/-- **The configuration read afterwards is the settled one.** -/
theorem reads_final_iff (o : Outcomes client server) (hl : ConfigurationOptional.Reads E look server)
    (cfg : Configuration) :
    Configuration.Reads E (o.final E look) cfg ↔ Settled client server cfg ∧ cfg.port.valid := by
  have hd := reads_systemDefault E
  have hu := Configuration.readU16_num
  have hrx := o.reads_rx hl cfg.rx
  have htx := o.reads_tx hl cfg.tx
  have hrtt := o.get_negotiated Field.rtt u16Value (by decide) (by decide) _ _ _ _ _ _ o.rtt_eq rfl rfl hl.rtt hd.rtt
    (fun n _ => hu n) (fun n _ => hu n) cfg.rtt
  have hcc := o.get_negotiated Field.congestion congestionValue (by decide) (by decide) _ _ _ _ _ _
    o.congestion_eq rfl rfl hl.congestion hd.congestion (fun c _ => CongestionController.tryUnscribe_toString c)
    (fun c _ => CongestionController.tryUnscribe_toString c) cfg.congestion
  have hicw := o.get_negotiated (Field.initialCongestionWindow E) .num nofun nofun _ _ _ _ _ _
    o.initialCongestionWindow_eq rfl rfl hl.initialCongestionWindow hd.initialCongestionWindow (fun _ _ => rfl)
    (fun _ _ => rfl) cfg.initialCongestionWindow
  have hport := o.reads_port_iff hl cfg.port
  have hto := o.get_negotiated Field.timeout u16Value (by decide) (by decide) _ _ _ _ _ _ o.timeout_eq rfl rfl
    hl.timeout hd.timeout (fun n _ => hu n) (fun n _ => hu n) cfg.timeout
  have hudp := o.get_plain (Field.udpBuffer E) nofun nofun _ _ rfl rfl hl.udpBuffer hd.udpBuffer cfg.udpBuffer
  have him := o.get_plain Field.initialMtu (by decide) (by decide) _ _ rfl rfl hl.initialMtu hd.initialMtu
    cfg.initialMtu
  have hmin := o.get_plain Field.minMtu (by decide) (by decide) _ _ rfl rfl hl.minMtu hd.minMtu cfg.minMtu
  have hmax := o.get_plain Field.maxMtu (by decide) (by decide) _ _ rfl rfl hl.maxMtu hd.maxMtu cfg.maxMtu
  have hrp := o.get_plain Field.remotePort (by decide) (by decide) _ _ rfl rfl hl.remotePort hd.remotePort
    cfg.remotePort
  have hta := o.get_plain Field.tlsAuthType (by decide) (by decide) _ _ rfl rfl hl.tlsAuthType hd.tlsAuthType
    cfg.tlsAuthType
  have hio := o.get_plain (Field.ioBufferSize E) nofun nofun _ _ rfl rfl hl.ioBufferSize hd.ioBufferSize
    cfg.ioBufferSize
  constructor
  · intro h
    obtain ⟨hp, hv⟩ := hport.1 h.port
    exact ⟨⟨hrx.1 h.rx, htx.1 h.tx, hrtt.1 h.rtt, hcc.1 h.congestion, hicw.1 h.initialCongestionWindow, hp,
      hto.1 h.timeout, hudp.1 h.udpBuffer, him.1 h.initialMtu, hmin.1 h.minMtu, hmax.1 h.maxMtu, hrp.1 h.remotePort,
      hta.1 h.tlsAuthType, hio.1 h.ioBufferSize⟩, hv⟩
  · rintro ⟨h, hv⟩
    exact ⟨hrx.2 h.rx, htx.2 h.tx, hrtt.2 h.rtt, hcc.2 h.congestion, hicw.2 h.initialCongestionWindow,
      hport.2 ⟨h.port, hv⟩,
      hto.2 h.timeout, hudp.2 h.udpBuffer, him.2 h.initialMtu, hmin.2 h.minMtu, hmax.2 h.maxMtu, hrp.2 h.remotePort,
      hta.2 h.tlsAuthType, hio.2 h.ioBufferSize⟩

/-- Valid ranges settle on one. -/
theorem port_valid (o : Outcomes client server) (hl : ConfigurationOptional.Reads E look server)
    (hv : ∀ r ∈ client.port, r.valid) (cfg : Configuration) (h : Settled client server cfg) : cfg.port.valid :=
  ((o.reads_port_iff hl _).1 ((o.reads_port hl hv _).2 h.port)).2

/-- Settled parameters have outcomes. -/
theorem of_settled (cfg : Configuration) (h : Settled client server cfg) : Nonempty (Outcomes client server) := by
  obtain ⟨_, _, h1⟩ := outcome_of_settle _ _ _ _ _ h.rx
  obtain ⟨_, _, h2⟩ := outcome_of_settle _ _ _ _ _ h.tx
  obtain ⟨_, _, h3⟩ := outcome_of_settle _ _ _ _ _ h.rtt
  obtain ⟨_, _, h4⟩ := outcome_of_settle _ _ _ _ _ h.congestion
  obtain ⟨_, _, h5⟩ := outcome_of_settle _ _ _ _ _ h.initialCongestionWindow
  obtain ⟨_, _, h6⟩ := outcome_of_settle _ _ _ _ _ h.port
  obtain ⟨_, _, h7⟩ := outcome_of_settle _ _ _ _ _ h.timeout
  exact ⟨⟨_, _, _, _, _, _, _, h1, h2, h3, h4, h5, h6, h7⟩⟩

end Outcomes

/-- **A server's preferences and a client's requests agree on a configuration.** -/
structure Accords (client : Requests) (server : ConfigurationOptional) (cfg : Configuration) : Prop where
  settled : Settled client server cfg
  port : cfg.port.valid
  valid : cfg.tryValidate = .ok ()

/-- **The combination succeeds exactly with the configuration that both sides agree on**, whatever a client may ask
for. -/
theorem combine_eq_ok_iff_accords (E : EngRepr) (manager : Manager) (client : ClientMessageV2)
    (server : ConfigurationOptional) (hs : manager.getOptional E = .ok server) (cfg : Configuration) :
    combineBandwidthConfigurations E manager client = .ok cfg ↔
      Accords (Requests.ofAttributes client.attributes) server cfg := by
  obtain ⟨look, hl, h⟩ := combine_eq_ok E manager client server hs
  rw [h]
  constructor
  · rintro ⟨o, hr, hok⟩
    obtain ⟨hst, hp⟩ := (o.reads_final_iff hl cfg).1 hr
    exact ⟨hst, hp, hok⟩
  · rintro ⟨hst, hp, hok⟩
    obtain ⟨o⟩ := Outcomes.of_settled cfg hst
    exact ⟨o, (o.reads_final_iff hl cfg).2 ⟨hst, hp⟩, hok⟩

/-- **The combination succeeds exactly with the settled configuration, when that validates.** -/
theorem combine_eq_ok_iff (E : EngRepr) (manager : Manager) (client : ClientMessageV2) (server : ConfigurationOptional)
    (hs : manager.getOptional E = .ok server)
    (hv : ∀ r ∈ (Requests.ofAttributes client.attributes).port, r.valid) (cfg : Configuration) :
    combineBandwidthConfigurations E manager client = .ok cfg ↔
      Settled (Requests.ofAttributes client.attributes) server cfg ∧ cfg.tryValidate = .ok () := by
  rw [combine_eq_ok_iff_accords E manager client server hs]
  constructor
  · exact fun h => ⟨h.settled, h.valid⟩
  · rintro ⟨hst, hok⟩
    obtain ⟨look, hl, -⟩ := combine_eq_ok E manager client server hs
    obtain ⟨o⟩ := Outcomes.of_settled cfg hst
    exact ⟨hst, o.port_valid hl hv cfg hst, hok⟩

/-- **A successful combination settled both rates**, whatever port range was asked for. -/
theorem combine_ok_rates (E : EngRepr) (manager : Manager) (client : ClientMessageV2) (server : ConfigurationOptional)
    (hs : manager.getOptional E = .ok server) (cfg : Configuration)
    (h : combineBandwidthConfigurations E manager client = .ok cfg) :
    settle minIgnoringZero (Requests.ofAttributes client.attributes).rx server.rx Configuration.systemDefault.rx =
      .ok cfg.rx ∧
    settle minIgnoringZero (Requests.ofAttributes client.attributes).tx server.tx Configuration.systemDefault.tx =
      .ok cfg.tx ∧ cfg.tryValidate = .ok () := by
  obtain ⟨look, hl, hc⟩ := combine_eq_ok E manager client server hs
  obtain ⟨o, hr, hok⟩ := (hc cfg).1 h
  exact ⟨(o.reads_rx hl _).1 hr.rx, (o.reads_tx hl _).1 hr.tx, hok⟩

/-! ## What the attributes carry -/

open ClientMessage2Attributes in
/-- The attributes carry these preferences, each value in range for its field. -/
structure Carries (ca : List TaggedData) (p : Requests) : Prop where
  rx : (findTag ca bandwidthToServer.toRepr).map Variant.coerceUnsigned = p.rx
  tx : (findTag ca bandwidthToClient.toRepr).map Variant.coerceUnsigned = p.tx
  rtt : (findTag ca roundTripTime.toRepr).map Variant.coerceUnsigned = p.rtt.map UInt16.toUInt64
  congestion : (findTag ca congestionControllerType.toRepr).map Variant.coerceUnsigned =
    p.congestion.map CongestionController.toRepr
  initialCongestionWindow :
    (findTag ca ClientMessage2Attributes.initialCongestionWindow.toRepr).map Variant.coerceUnsigned =
      p.initialCongestionWindow
  portBegin : ∀ n ∈ (findTag ca portRangeStart.toRepr).map Variant.coerceUnsigned, ∃ r ∈ p.port, n = r.begin.toUInt64
  portEnd : ∀ n ∈ (findTag ca portRangeEnd.toRepr).map Variant.coerceUnsigned, ∃ r ∈ p.port, n = r.end.toUInt64
  portBoth : ∀ r ∈ p.port, (findTag ca portRangeStart.toRepr ≠ none ∧ findTag ca portRangeEnd.toRepr ≠ none) ∨
    (r.begin = r.end ∧ (findTag ca portRangeStart.toRepr ≠ none ∨ findTag ca portRangeEnd.toRepr ≠ none))
  timeout : (findTag ca quicTimeout.toRepr).map Variant.coerceUnsigned = p.timeout.map UInt16.toUInt64

theorem toUInt16_toUInt64 (n : UInt16) : n.toUInt64.toUInt16 = n := by simp

theorem toUInt16_masked (n : UInt16) : (n.toUInt64 &&& 0xffff).toUInt16 = n := by
  apply UInt16.toNat_inj.1
  have h : (0xffff : UInt64).toNat = 2 ^ 16 - 1 := rfl
  have := n.toNat_lt
  rw [UInt64.toNat_toUInt16, UInt64.toNat_and, h, Nat.and_two_pow_sub_one_eq_mod, UInt16.toNat_toUInt64]
  omega

theorem map_coerce {α : Type} (o : Option Variant) (q : Option α) (f : α → UInt64) (g : UInt64 → α)
    (h : o.map Variant.coerceUnsigned = q.map f) (hg : ∀ a, g (f a) = a) :
    (o.map fun v => g v.coerceUnsigned) = q := by
  have e : (o.map fun v => g v.coerceUnsigned) = (o.map Variant.coerceUnsigned).map g := by cases o <;> rfl
  rw [e, h]
  cases q with
  | none => rfl
  | some a => exact congrArg some (hg a)

/-- **Attributes in range are read as the preferences they carry.** -/
theorem ofAttributes_of_carries (ca : List TaggedData) (p : Requests) (h : Carries ca p) :
    Requests.ofAttributes ca = p := by
  obtain ⟨rx, tx, rtt, congestion, icw, port, timeout⟩ := p
  have hcc : ((findTag ca ClientMessage2Attributes.congestionControllerType.toRepr).bind fun v =>
      CongestionController.fromRepr v.coerceUnsigned) = congestion := by
    have := h.congestion
    cases hf : findTag ca ClientMessage2Attributes.congestionControllerType.toRepr with
    | none => rw [hf] at this; cases congestion with
      | none => rfl
      | some c => cases this
    | some v => rw [hf] at this; cases congestion with
      | none => cases this
      | some c =>
        have hv : v.coerceUnsigned = c.toRepr := Option.some.inj this
        show CongestionController.fromRepr v.coerceUnsigned = some c
        rw [hv, CongestionController.fromRepr_toRepr]
  unfold Requests.ofAttributes
  rw [h.rx, h.tx, h.initialCongestionWindow, map_coerce _ _ _ (fun n => (n &&& 0xffff).toUInt16) h.rtt toUInt16_masked,
    map_coerce _ _ _ (fun n => (n &&& 0xffff).toUInt16) h.timeout toUInt16_masked, hcc]
  congr 1
  have hb := h.portBegin
  have he := h.portEnd
  have hp := h.portBoth
  simp only at hb he hp
  cases hfb : findTag ca ClientMessage2Attributes.portRangeStart.toRepr with
  | none =>
    rw [hfb] at hb hp
    cases hfe : findTag ca ClientMessage2Attributes.portRangeEnd.toRepr with
    | none =>
      rw [hfe] at he hp
      cases port with
      | none => rfl
      | some r => rcases hp r rfl with ⟨h1, -⟩ | ⟨-, h1 | h1⟩ <;> exact absurd rfl h1
    | some v =>
      rw [hfe] at he hp
      obtain ⟨r, rfl, hr⟩ := he v.coerceUnsigned rfl
      rcases hp r rfl with ⟨h1, -⟩ | ⟨h1, -⟩
      · exact absurd rfl h1
      · obtain ⟨b, e⟩ := r
        simp only at h1 hr
        simp only [Option.map_none, Option.map_some, hr, toUInt16_toUInt64, h1]
  | some u =>
    rw [hfb] at hb hp
    obtain ⟨r, rfl, hr⟩ := hb u.coerceUnsigned rfl
    cases hfe : findTag ca ClientMessage2Attributes.portRangeEnd.toRepr with
    | none =>
      rw [hfe] at hp
      rcases hp r rfl with ⟨-, h1⟩ | ⟨h1, -⟩
      · exact absurd rfl h1
      · obtain ⟨b, e⟩ := r
        simp only at h1 hr
        simp only [Option.map_none, Option.map_some, hr, toUInt16_toUInt64, h1]
    | some v =>
      rw [hfe] at he
      obtain ⟨r', hr', hv⟩ := he v.coerceUnsigned rfl
      cases hr'
      simp only [Option.map_some, hr, hv, toUInt16_toUInt64]

theorem valid_of_getOptional (E : EngRepr) (manager : Manager) (server : ConfigurationOptional)
    (hs : manager.getOptional E = .ok server) : ∀ r ∈ server.port, r.valid := by
  obtain ⟨data⟩ := manager
  cases data with
  | error e => cases hs
  | ok l => exact Outcomes.valid_of_getOpt server.port ((ConfigurationOptional.extract_eq_ok_iff E _ _).1 hs).port

/-- The requests a client's preferences make, given the rate it states towards the server. -/
def ConfigurationOptional.requests (o : ConfigurationOptional) (toServer : Option UInt64) : Requests :=
  ⟨toServer, o.rx, o.rtt, o.congestion, o.initialCongestionWindow, o.remotePort, o.timeout⟩

theorem carries_of_stated (attrs : List TaggedData) (o : ConfigurationOptional) (toServer : Option UInt64) (sc : Bool)
    (d : Direction) (h : Stated attrs o toServer sc d) : Carries attrs (o.requests toServer) where
  rx := by rw [h.bandwidthToServer]; cases toServer <;> rfl
  tx := by rw [h.bandwidthToClient]; show _ = o.rx; cases o.rx <;> rfl
  rtt := by rw [h.roundTripTime]; show _ = o.rtt.map _; cases o.rtt <;> rfl
  congestion := by rw [h.congestion]; show _ = o.congestion.map _; cases o.congestion <;> rfl
  initialCongestionWindow := by
    rw [h.initialCongestionWindow]
    show _ = o.initialCongestionWindow
    cases o.initialCongestionWindow <;> rfl
  portBegin := by
    rw [h.portRangeStart]
    show ∀ n ∈ _, ∃ r ∈ o.remotePort, _
    cases o.remotePort with
    | none => nofun
    | some r => intro n hn; exact ⟨r, rfl, (Option.some.inj hn).symm⟩
  portEnd := by
    rw [h.portRangeEnd]
    show ∀ n ∈ _, ∃ r ∈ o.remotePort, _
    cases o.remotePort with
    | none => nofun
    | some r => intro n hn; exact ⟨r, rfl, (Option.some.inj hn).symm⟩
  portBoth := by
    rw [h.portRangeStart, h.portRangeEnd]
    show ∀ r ∈ o.remotePort, _
    cases o.remotePort with
    | none => nofun
    | some r => exact fun _ _ => Or.inl ⟨nofun, nofun⟩
  timeout := by rw [h.timeout]; show _ = o.timeout.map _; cases o.timeout <;> rfl

/-- **The combination of settled preferences** is the check of the configuration they come to. -/
theorem combine_of_settled (E : EngRepr) (manager : Manager) (client : ClientMessageV2) (server : ConfigurationOptional)
    (hs : manager.getOptional E = .ok server)
    (hv : ∀ r ∈ (Requests.ofAttributes client.attributes).port, r.valid) (cfg : Configuration)
    (h : Settled (Requests.ofAttributes client.attributes) server cfg) :
    combineBandwidthConfigurations E manager client = cfg.validate.mapError .invalid := by
  obtain ⟨data⟩ := manager
  cases data with
  | error e => cases hs
  | ok l =>
    have hl := (ConfigurationOptional.extract_eq_ok_iff E _ _).1 hs
    obtain ⟨o⟩ := Outcomes.of_settled cfg h
    have hr := (Configuration.extract_eq_ok_iff E _ _).2 ((o.reads_final_iff hl cfg).2 ⟨h, o.port_valid hl hv cfg h⟩)
    unfold combineBandwidthConfigurations combinedManager
    rw [hs]
    simp only [Except.mapError, bind, Except.bind, o.negotiateAll_eq]
    simp only [pure, Except.pure, get_merged]
    unfold Outcomes.final at hr
    rw [hr]

end Qcp
