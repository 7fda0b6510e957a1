import Qcp.Negotiate
/-!
# NegotiateTable — the documented table of parameter resolution

`Documented` states the table on its own: one rule for each parameter, the only stated preference winning and the
system default standing for none.  The rule for the initial congestion window is a parameter of it: the table lets the
client win, the code and its test the server.  `combine_followsTable` says that the combination follows the table with
the server's rule; `combine_followsTable_iff` when it follows it with the client's.
-/
namespace Qcp

/-! ## The table -/

section Rule

variable {α : Type}

/-- The documented value of one parameter; `none` is an error. -/
def documented (onConflict : α → α → Option α) (client server : Option α) (dflt : α) : Option α :=
  match client, server with
  | none, none => some dflt
  | some c, none => some c
  | none, some s => some s
  | some c, some s => onConflict c s

def clientPreferenceWins (c _ : α) : Option α := some c

def serverPreferenceWins (_ s : α) : Option α := some s

def useIfMatching [DecidableEq α] (c s : α) : Option α := if c = s then some c else none

end Rule

def smallerIgnoringZeroes (c s : UInt64) : Option UInt64 :=
  some (if c = 0 then s else if s = 0 then c else if c ≤ s then c else s)

/-- Port 0 is no preference; ranges that do not intersect are an error. -/
def intersection (c s : PortRange) : Option PortRange :=
  if c = ⟨0, 0⟩ then some s
  else if s = ⟨0, 0⟩ then some c
  else if c.end < s.begin ∨ s.end < c.begin then none
  else some ⟨if c.begin ≤ s.begin then s.begin else c.begin, if c.end ≤ s.end then c.end else s.end⟩

/-- **What the table makes of the two sides' preferences**, with the rule `window` for two initial congestion
windows. -/
structure Documented (window : UInt64 → UInt64 → Option UInt64) (client : Requests) (server : ConfigurationOptional)
    (cfg : Configuration) : Prop where
  rx : documented smallerIgnoringZeroes client.rx server.rx Configuration.systemDefault.rx = some cfg.rx
  tx : documented smallerIgnoringZeroes client.tx server.tx Configuration.systemDefault.tx = some cfg.tx
  rtt : documented clientPreferenceWins client.rtt server.rtt Configuration.systemDefault.rtt = some cfg.rtt
  congestion : documented useIfMatching client.congestion server.congestion Configuration.systemDefault.congestion =
    some cfg.congestion
  initialCongestionWindow : documented window client.initialCongestionWindow server.initialCongestionWindow
    Configuration.systemDefault.initialCongestionWindow = some cfg.initialCongestionWindow
  port : documented intersection client.port server.port Configuration.systemDefault.port = some cfg.port
  timeout : documented clientPreferenceWins client.timeout server.timeout Configuration.systemDefault.timeout =
    some cfg.timeout
  udpBuffer : cfg.udpBuffer = server.udpBuffer.getD Configuration.systemDefault.udpBuffer
  initialMtu : cfg.initialMtu = server.initialMtu.getD Configuration.systemDefault.initialMtu
  minMtu : cfg.minMtu = server.minMtu.getD Configuration.systemDefault.minMtu
  maxMtu : cfg.maxMtu = server.maxMtu.getD Configuration.systemDefault.maxMtu
  remotePort : cfg.remotePort = server.remotePort.getD Configuration.systemDefault.remotePort
  tlsAuthType : cfg.tlsAuthType = server.tlsAuthType.getD Configuration.systemDefault.tlsAuthType
  ioBufferSize : cfg.ioBufferSize = server.ioBufferSize.getD Configuration.systemDefault.ioBufferSize

/-- A configuration the table allows, and that validates. -/
def Acceptable (window : UInt64 → UInt64 → Option UInt64) (client : Requests) (server : ConfigurationOptional)
    (cfg : Configuration) : Prop :=
  Documented window client server cfg ∧ cfg.tryValidate = .ok ()

/-- **The combination follows the table**: it succeeds with documented values only, and fails only when a rule says
error or the result does not validate. -/
def FollowsTable (window : UInt64 → UInt64 → Option UInt64) (E : EngRepr) (manager : Manager)
    (message : ClientMessageV2) (client : Requests) (server : ConfigurationOptional) : Prop :=
  (∀ cfg, combineBandwidthConfigurations E manager message = .ok cfg → Documented window client server cfg) ∧
  ((∀ cfg, combineBandwidthConfigurations E manager message ≠ .ok cfg) →
    ∀ cfg, ¬ Acceptable window client server cfg)

/-! ## The code against the table -/

/-- A rule that says what a resolution does with two different preferences, and keeps equal ones. -/
structure Implements {α : Type} (ok : α → Prop) (resolve : α → α → CombinationResponse α) (rule : α → α → Option α) :
    Prop where
  equal : ∀ c, ok c → rule c c = some c
  server : ∀ c s, resolve c s = .server → rule c s = some s
  client : ∀ c s, resolve c s = .client → rule c s = some c
  combined : ∀ c s v, ok c → ok s → resolve c s = .combined v → rule c s = some v
  failure : ∀ c s e, ok c → ok s → c ≠ s → resolve c s = .failure e → rule c s = none

theorem settle_iff_documented {α : Type} [DecidableEq α] {ok : α → Prop} {resolve : α → α → CombinationResponse α}
    {rule : α → α → Option α} (h : Implements ok resolve rule) (client server : Option α) (d a : α)
    (hc : ∀ c ∈ client, ok c) (hs : ∀ s ∈ server, ok s) :
    settle resolve client server d = .ok a ↔ documented rule client server d = some a := by
  unfold settle documented
  cases client with
  | none => cases server <;> simp only [Except.ok.injEq, Option.some.injEq]
  | some c =>
    cases server with
    | none => simp only [Except.ok.injEq, Option.some.injEq]
    | some s =>
      simp only
      split
      · rename_i he
        rw [← he, h.equal c (hc c rfl), Except.ok.injEq, Option.some.injEq]
      · rename_i hne
        cases hr : resolve c s with
        | server => rw [h.server c s hr]; simp only [Except.ok.injEq, Option.some.injEq]
        | client => rw [h.client c s hr]; simp only [Except.ok.injEq, Option.some.injEq]
        | combined v => rw [h.combined c s v (hc c rfl) (hs s rfl) hr]; simp only [Except.ok.injEq, Option.some.injEq]
        | failure e => rw [h.failure c s e (hc c rfl) (hs s rfl) hne hr]; exact ⟨nofun, nofun⟩

theorem implements_minIgnoringZero : Implements (fun _ => True) minIgnoringZero smallerIgnoringZeroes where
  equal c _ := by unfold smallerIgnoringZeroes; simp
  server c s h := by
    unfold minIgnoringZero at h
    unfold smallerIgnoringZeroes
    split at h
    · rename_i hc; rw [if_pos hc]
    · split at h <;> cases h
  client c s h := by
    unfold minIgnoringZero at h
    unfold smallerIgnoringZeroes
    split at h
    · cases h
    · rename_i hc
      split at h
      · rename_i hs; rw [if_neg hc, if_pos hs]
      · cases h
  combined c s v _ _ h := by
    unfold minIgnoringZero at h
    unfold smallerIgnoringZeroes
    split at h
    · cases h
    · rename_i hc
      split at h
      · cases h
      · rename_i hs
        cases h
        rw [if_neg hc, if_neg hs]
        rfl
  failure c s e _ _ _ h := by
    unfold minIgnoringZero at h
    split at h
    · cases h
    · split at h <;> cases h

theorem implements_clientWins {α : Type} :
    Implements (fun _ => True) (clientWins : α → α → CombinationResponse α) clientPreferenceWins where
  equal _ _ := rfl
  server _ _ h := by cases h
  client _ _ _ := rfl
  combined _ _ _ _ _ h := by cases h
  failure _ _ _ _ _ _ h := by cases h

theorem implements_serverWins {α : Type} :
    Implements (fun _ => True) (serverWins : α → α → CombinationResponse α) serverPreferenceWins where
  equal _ _ := rfl
  server _ _ _ := rfl
  client _ _ h := by cases h
  combined _ _ _ _ _ h := by cases h
  failure _ _ _ _ _ _ h := by cases h

theorem implements_congestion : Implements (fun _ => True) congestionConflict useIfMatching where
  equal _ _ := if_pos rfl
  server _ _ h := by cases h
  client _ _ h := by cases h
  combined _ _ _ _ _ h := by cases h
  failure _ _ _ _ _ hne _ := if_neg hne

theorem isDefault_iff_eq (r : PortRange) : r.isDefault = true ↔ r = ⟨0, 0⟩ := by
  obtain ⟨b, e⟩ := r
  rw [PortRange.isDefault_iff, PortRange.mk.injEq]

theorem le_end_of_valid (r : PortRange) (h : r.valid) : r.begin ≤ r.end := by
  rcases h with ⟨h0, h1⟩ | ⟨-, h⟩
  · rw [h0, h1]; exact UInt16.le_refl 0
  · exact h

/-- **The code intersects valid ranges as the table says.** -/
theorem combine_toOption (c s : PortRange) (hc : c.valid) (hs : s.valid) :
    (PortRange.combine c s).toOption = intersection c s := by
  have hcle := le_end_of_valid c hc
  have hsle := le_end_of_valid s hs
  unfold PortRange.combine intersection
  simp only [isDefault_iff_eq]
  split
  · rfl
  split
  · rfl
  have hmax : max c.begin s.begin = if c.begin ≤ s.begin then s.begin else c.begin := rfl
  have hmin : min c.end s.end = if c.end ≤ s.end then c.end else s.end := rfl
  by_cases hd : c.end < s.begin ∨ s.end < c.begin
  · have : ¬ max c.begin s.begin ≤ min c.end s.end := by
      rw [hmax, hmin]
      split <;> split <;> grind
    rw [if_neg this, if_pos hd]
    rfl
  · have : max c.begin s.begin ≤ min c.end s.end := by
      rw [hmax, hmin]
      split <;> split <;> grind
    rw [if_pos this, if_neg hd, hmax, hmin]
    rfl

theorem implements_port : Implements PortRange.valid portConflict intersection where
  equal c hc := by
    unfold intersection
    split
    · rfl
    · have := le_end_of_valid c hc
      rw [if_neg (by rintro (h | h) <;> exact UInt16.not_lt.2 this h), if_pos (UInt16.le_refl _),
        if_pos (UInt16.le_refl _)]
  server c s h := by unfold portConflict at h; split at h <;> cases h
  client c s h := by unfold portConflict at h; split at h <;> cases h
  combined c s v hc hs h := by
    rw [← combine_toOption c s hc hs]
    unfold portConflict at h
    split at h
    · rename_i r hr; cases h; rw [hr]; rfl
    · cases h
  failure c s e hc hs _ h := by
    rw [← combine_toOption c s hc hs]
    unfold portConflict at h
    split at h
    · cases h
    · rename_i hr; rw [hr]; rfl

theorem documented_clientPreferenceWins (client server : Option UInt64) (d a : UInt64) :
    documented clientPreferenceWins client server d = some a ↔ a = (client.or server).getD d := by
  unfold documented clientPreferenceWins
  cases client <;> cases server <;> simp [eq_comm]

/-- **What the code settles is what the table documents**, the server's window winning. -/
theorem documented_iff_settled (client : Requests) (server : ConfigurationOptional) (cfg : Configuration)
    (hc : ∀ r ∈ client.port, r.valid) (hs : ∀ r ∈ server.port, r.valid) :
    Documented serverPreferenceWins client server cfg ↔ Settled client server cfg := by
  have hrx := settle_iff_documented implements_minIgnoringZero client.rx server.rx Configuration.systemDefault.rx cfg.rx
    (fun _ _ => trivial) fun _ _ => trivial
  have htx := settle_iff_documented implements_minIgnoringZero client.tx server.tx Configuration.systemDefault.tx cfg.tx
    (fun _ _ => trivial) fun _ _ => trivial
  have hrtt := settle_iff_documented implements_clientWins client.rtt server.rtt Configuration.systemDefault.rtt cfg.rtt
    (fun _ _ => trivial) fun _ _ => trivial
  have hcc := settle_iff_documented implements_congestion client.congestion server.congestion
    Configuration.systemDefault.congestion cfg.congestion (fun _ _ => trivial) fun _ _ => trivial
  have hicw := settle_iff_documented implements_serverWins client.initialCongestionWindow
    server.initialCongestionWindow Configuration.systemDefault.initialCongestionWindow cfg.initialCongestionWindow
    (fun _ _ => trivial) fun _ _ => trivial
  have hport := settle_iff_documented implements_port client.port server.port Configuration.systemDefault.port cfg.port
    hc hs
  have hto := settle_iff_documented implements_clientWins client.timeout server.timeout
    Configuration.systemDefault.timeout cfg.timeout (fun _ _ => trivial) fun _ _ => trivial
  constructor
  · intro h
    exact ⟨hrx.2 h.rx, htx.2 h.tx, hrtt.2 h.rtt, hcc.2 h.congestion, hicw.2 h.initialCongestionWindow, hport.2 h.port,
      hto.2 h.timeout, h.udpBuffer, h.initialMtu, h.minMtu, h.maxMtu, h.remotePort, h.tlsAuthType, h.ioBufferSize⟩
  · intro h
    exact ⟨hrx.1 h.rx, htx.1 h.tx, hrtt.1 h.rtt, hcc.1 h.congestion, hicw.1 h.initialCongestionWindow, hport.1 h.port,
      hto.1 h.timeout, h.udpBuffer, h.initialMtu, h.minMtu, h.maxMtu, h.remotePort, h.tlsAuthType, h.ioBufferSize⟩

/-- The two tables differ in the window only. -/
theorem documented_client_iff (client : Requests) (server : ConfigurationOptional) (cfg : Configuration) :
    Documented clientPreferenceWins client server cfg ↔
      (∃ w, Documented serverPreferenceWins client server { cfg with initialCongestionWindow := w }) ∧
      cfg.initialCongestionWindow = (client.initialCongestionWindow.or server.initialCongestionWindow).getD
        Configuration.systemDefault.initialCongestionWindow := by
  have hwindow : ∃ w, documented serverPreferenceWins client.initialCongestionWindow server.initialCongestionWindow
      Configuration.systemDefault.initialCongestionWindow = some w := by
    cases client.initialCongestionWindow <;> cases server.initialCongestionWindow <;> exact ⟨_, rfl⟩
  obtain ⟨w, hw⟩ := hwindow
  constructor
  · intro h
    exact ⟨⟨w, ⟨h.rx, h.tx, h.rtt, h.congestion, hw, h.port, h.timeout, h.udpBuffer, h.initialMtu, h.minMtu, h.maxMtu,
      h.remotePort, h.tlsAuthType, h.ioBufferSize⟩⟩, (documented_clientPreferenceWins _ _ _ _).1
      h.initialCongestionWindow⟩
  · rintro ⟨⟨w, h⟩, hicw⟩
    exact ⟨h.rx, h.tx, h.rtt, h.congestion, (documented_clientPreferenceWins _ _ _ _).2 hicw, h.port, h.timeout,
      h.udpBuffer, h.initialMtu, h.minMtu, h.maxMtu, h.remotePort, h.tlsAuthType, h.ioBufferSize⟩

/-! ## The code follows the table -/

section Follow

variable (E : EngRepr) (manager : Manager) (message : ClientMessageV2) (client : Requests)
  (server : ConfigurationOptional)

/-- **The combination succeeds exactly with the documented configuration, when that validates.** -/
theorem combine_eq_ok_iff_acceptable (hs : manager.getOptional E = .ok server)
    (hc : Carries message.attributes client) (hv : ∀ r ∈ client.port, r.valid) (cfg : Configuration) :
    combineBandwidthConfigurations E manager message = .ok cfg ↔
      Acceptable serverPreferenceWins client server cfg := by
  have hreq := ofAttributes_of_carries _ _ hc
  have h := combine_eq_ok_iff E manager message server hs (by rw [hreq]; exact hv) cfg
  rw [hreq] at h
  rw [h, Acceptable, documented_iff_settled client server cfg hv (valid_of_getOptional E manager server hs)]

/-- **The combination follows the table in which the server's initial congestion window wins.** -/
theorem combine_followsTable (hs : manager.getOptional E = .ok server) (hc : Carries message.attributes client)
    (hv : ∀ r ∈ client.port, r.valid) : FollowsTable serverPreferenceWins E manager message client server := by
  have hok := combine_eq_ok_iff_acceptable E manager message client server hs hc hv
  exact ⟨fun cfg h => ((hok cfg).1 h).1, fun hnone cfg hacc => hnone cfg ((hok cfg).2 hacc)⟩

/-- **It follows the table in which the client's window wins exactly when the two sides do not state different ones**,
or that table allows no configuration anyway. -/
theorem combine_followsTable_iff (hs : manager.getOptional E = .ok server) (hc : Carries message.attributes client)
    (hv : ∀ r ∈ client.port, r.valid) :
    FollowsTable clientPreferenceWins E manager message client server ↔
      (∀ c ∈ client.initialCongestionWindow, ∀ s ∈ server.initialCongestionWindow, c = s) ∨
        ∀ cfg, ¬ Acceptable clientPreferenceWins client server cfg := by
  have hvs := valid_of_getOptional E manager server hs
  have hok := combine_eq_ok_iff_acceptable E manager message client server hs hc hv
  have hwindow : ∀ cfg, Documented serverPreferenceWins client server cfg → cfg.initialCongestionWindow =
      (server.initialCongestionWindow.or client.initialCongestionWindow).getD
        Configuration.systemDefault.initialCongestionWindow := fun cfg h =>
    (settle_serverWins _ _ _ _).1 ((documented_iff_settled client server cfg hv hvs).1 h).initialCongestionWindow
  constructor
  · rintro ⟨h1, -⟩
    by_cases ha : ∃ cfg, Acceptable clientPreferenceWins client server cfg
    · obtain ⟨cfg, hd, hval⟩ := ha
      refine Or.inl fun c hcc s hss => ?_
      obtain ⟨⟨w, hst⟩, -⟩ := (documented_client_iff _ _ _).1 hd
      have hd' := h1 _ ((hok _).2 ⟨hst, hval⟩)
      have hwin := ((documented_client_iff _ _ _).1 hd').2
      rw [hwindow _ hst, hcc, hss] at hwin
      exact hwin.symm
    · exact Or.inr fun cfg h => ha ⟨cfg, h⟩
  · intro h
    have same : ∀ cfg, Acceptable serverPreferenceWins client server cfg →
        Documented clientPreferenceWins client server cfg := by
      rintro cfg ⟨hst, hval⟩
      rcases h with h | h
      · have hsame : server.initialCongestionWindow.or client.initialCongestionWindow =
            client.initialCongestionWindow.or server.initialCongestionWindow := by
          cases hci : client.initialCongestionWindow with
          | none => cases server.initialCongestionWindow <;> rfl
          | some c =>
            cases hsi : server.initialCongestionWindow with
            | none => rfl
            | some s => rw [h c hci s hsi]
        exact (documented_client_iff _ _ _).2 ⟨⟨_, hst⟩, by rw [hwindow cfg hst, hsame]⟩
      · refine absurd ⟨(documented_client_iff _ _ _).2 ⟨⟨cfg.initialCongestionWindow, ?_⟩, rfl⟩, ?_⟩
          (h { cfg with initialCongestionWindow := (client.initialCongestionWindow.or
            server.initialCongestionWindow).getD Configuration.systemDefault.initialCongestionWindow })
        · exact hst
        · exact hval
    refine ⟨fun cfg hcfg => same cfg ((hok cfg).1 hcfg), fun hnone cfg hacc => ?_⟩
    obtain ⟨⟨w, hst⟩, -⟩ := (documented_client_iff _ _ _).1 hacc.1
    exact hnone _ ((hok _).2 ⟨hst, hacc.2⟩)

end Follow

/-! ## Two different windows -/

/-- A server that states a window of 1000 bytes. -/
def windowServer : ConfigurationOptional := { ConfigurationOptional.empty with initialCongestionWindow := some 1000 }

/-- A client that asks for a window of 500 bytes. -/
def windowMessage : ClientMessageV2 :=
  ⟨⟨0, .empty⟩, .ipv4, [ClientMessage2Attributes.initialCongestionWindow.withUnsigned 500], 0⟩

def windowRequests : Requests := ⟨none, none, none, none, some 500, none, none⟩

theorem carries_windowRequests : Carries windowMessage.attributes windowRequests := by
  constructor <;> first | rfl | nofun

theorem getOptional_windowServer :
    (Manager.ofOptional EngRepr.decimal windowServer).getOptional EngRepr.decimal = .ok windowServer :=
  Manager.getOptional_ofOptional _ _ nofun nofun

/-- The server's 1000 bytes are what comes of the two windows. -/
theorem combine_followsTable_window :
    combineBandwidthConfigurations EngRepr.decimal (.ofOptional EngRepr.decimal windowServer) windowMessage =
      .ok { Configuration.systemDefault with initialCongestionWindow := 1000 } ∧
    FollowsTable serverPreferenceWins EngRepr.decimal (.ofOptional EngRepr.decimal windowServer) windowMessage
      windowRequests windowServer :=
  ⟨rfl, combine_followsTable EngRepr.decimal _ windowMessage windowRequests windowServer getOptional_windowServer
    carries_windowRequests nofun⟩

/-- **The server's window wins over the client's.** -/
theorem not_followsTable_window :
    ¬ FollowsTable clientPreferenceWins EngRepr.decimal (.ofOptional EngRepr.decimal windowServer) windowMessage
      windowRequests windowServer := by
  rintro ⟨h, -⟩
  have hc : combineBandwidthConfigurations EngRepr.decimal (.ofOptional EngRepr.decimal windowServer) windowMessage =
      .ok { Configuration.systemDefault with initialCongestionWindow := 1000 } := by rfl
  have := (h _ hc).initialCongestionWindow
  exact absurd this (by decide)

end Qcp
