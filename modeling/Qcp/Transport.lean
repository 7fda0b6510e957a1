import Qcp.Config
import Qcp.Host
/-!
# Transport — the windows of an endpoint, and the configuration of its transport

Windows are products of 64 bits, which a build of the program may or may not check; validation is what keeps them from
overflowing (`windows_of_tryValidate`), but not what is shown of them (`computes_iff`).  An endpoint's transport is
made of them for the way the data is to go (`createConfig`), and a validated configuration is only refused for its
controller, or where its rates are too large to be shown (`createConfig_isOk_iff`).
-/
namespace Qcp

open Bare (Bytes Text)

/-! ## The windows -/

/-- A multiplication on 64 bits that may overflow. -/
def checkedMul (a b : UInt64) : Option UInt64 := if a.toNat * b.toNat < 2 ^ 64 then some (a * b) else none

namespace Configuration

def rttBandwidthDelayProductTx (c : Configuration) : Option UInt64 := (checkedMul c.getTx c.rtt.toUInt64).map (· / 1000)

def rttBandwidthDelayProductRx (c : Configuration) : Option UInt64 := (checkedMul c.getRx c.rtt.toUInt64).map (· / 1000)

/-- Nothing if a product overflows. -/
def recvWindow (c : Configuration) : Option UInt64 := c.rttBandwidthDelayProductRx

def sendWindow (c : Configuration) : Option UInt64 := c.rttBandwidthDelayProductTx.bind (checkedMul 8)

/-- What is validated of the rates. -/
structure Sound (c : Configuration) : Prop where
  rx : minimumBandwidth ≤ c.getRx
  rtt : 0 < c.rtt
  rxFits : c.getRx.toNat * c.rtt.toNat < 2 ^ 64
  tx : minimumBandwidth ≤ c.getTx
  txFits : c.getTx.toNat * c.rtt.toNat < 2 ^ 64

/-- And of the rest. -/
structure Sized (c : Configuration) : Prop where
  udpBuffer : minimumUdpBuffer ≤ c.udpBuffer
  minMtu : 1200 ≤ c.minMtu
  maxMtu : 1200 ≤ c.maxMtu
  initialMtu : 1200 ≤ c.initialMtu

theorem getTx_ne_zero {c : Configuration} (h : minimumBandwidth ≤ c.getRx) : c.getTx ≠ 0 := by
  intro h0
  unfold getTx at h0
  split at h0
  · rw [h0] at h
    exact absurd h (by decide)
  · contradiction

/-- A check that is passed. -/
theorem check_eq_ok {P : Prop} [Decidable P] {e : ValidationError} {x : Except ValidationError Unit} :
    (if P then x else .error e) = .ok () ↔ P ∧ x = .ok () := by
  split <;> simp [*]

/-- **What passes validation.** -/
theorem tryValidate_iff (c : Configuration) : c.tryValidate = .ok () ↔ c.Sound ∧ c.Sized := by
  unfold tryValidate mulFits
  simp only [ge_iff_le, gt_iff_lt, decide_eq_true_eq, ite_not, check_eq_ok]
  constructor
  · rintro ⟨h1, h2, h3, h4, h5, h6, h7, h8, h9, -⟩
    have h0 := getTx_ne_zero h1
    exact ⟨⟨h1, h2, h3, h4.resolve_left h0, h5.resolve_left h0⟩, h6, h7, h8, h9⟩
  · rintro ⟨⟨h1, h2, h3, h4, h5⟩, h6, h7, h8, h9⟩
    exact ⟨h1, h2, h3, Or.inr h4, Or.inr h5, h6, h7, h8, h9, trivial⟩

/-- **Validation is what keeps the windows from overflowing.** -/
theorem windows_of_tryValidate (c : Configuration) (h : c.tryValidate = .ok ()) :
    c.recvWindow.isSome = true ∧ c.sendWindow.isSome = true := by
  obtain ⟨hs, -⟩ := c.tryValidate_iff.1 h
  have hrx := hs.rxFits
  have htx := hs.txFits
  unfold recvWindow sendWindow rttBandwidthDelayProductRx rttBandwidthDelayProductTx checkedMul
  have hrtt : c.rtt.toUInt64.toNat = c.rtt.toNat := UInt16.toNat_toUInt64 _
  rw [if_pos (by rw [hrtt]; exact hrx), if_pos (by rw [hrtt]; exact htx)]
  refine ⟨rfl, ?_⟩
  show (if _ then _ else _ : Option UInt64).isSome = true
  rw [if_pos]
  · rfl
  · -- eight times a thousandth of it fits as well
    rw [UInt64.toNat_div]
    have h8 : (8 : UInt64).toNat = 8 := rfl
    have h1000 : (1000 : UInt64).toNat = 1000 := rfl
    have hlt := (c.getTx * c.rtt.toUInt64).toNat_lt
    rw [h8, h1000]
    omega

/-! ## The display -/

/-- How numbers are shown to people. -/
structure Human where
  countBytes : UInt64 → Text
  countBits : UInt64 → Text
  /-- Of milliseconds. -/
  duration : UInt16 → Text

def congestionText : CongestionController → Text
  | .cubic => "cubic".toList
  | .bbr => "bbr".toList
  | .newReno => "newreno".toList

/-- The two thresholds at the end are copied from the configuration. -/
def transportText (R : Human) (thresholds : Text) (c : Configuration) (txbits rxbits swnd rwnd : UInt64) : Text :=
  let iwind := if c.initialCongestionWindow = 0 then "<default>".toList else R.countBytes c.initialCongestionWindow
  "rx ".toList ++ R.countBytes c.getRx ++ " (".toList ++ R.countBits rxbits ++ "), tx ".toList ++
    R.countBytes c.getTx ++ " (".toList ++ R.countBits txbits ++ "), rtt ".toList ++ R.duration c.rtt ++ "; ".toList ++
    "congestion algorithm ".toList ++ congestionText c.congestion ++ " with initial window ".toList ++ iwind ++
    "; ".toList ++ "send window ".toList ++ R.countBytes swnd ++ ", receive window ".toList ++ R.countBytes rwnd ++
    ", ".toList ++ "UDP buffer size ".toList ++ R.countBytes c.udpBuffer ++ "; ".toList ++ thresholds

/-- Nothing if a product overflows. -/
def formatTransportConfig (R : Human) (thresholds : Text) (c : Configuration) : Option Text := do
  let txbits ← checkedMul c.getTx 8
  let rxbits ← checkedMul c.getRx 8
  let swnd ← c.sendWindow
  let rwnd ← c.recvWindow
  return transportText R thresholds c txbits rxbits swnd rwnd

/-- What a configuration is good for: no product overflows that is made of it. -/
structure Computes (R : Human) (thresholds : Text) (c : Configuration) : Prop where
  bdpTx : c.rttBandwidthDelayProductTx.isSome = true
  bdpRx : c.rttBandwidthDelayProductRx.isSome = true
  send : c.sendWindow.isSome = true
  recv : c.recvWindow.isSome = true
  format : (c.formatTransportConfig R thresholds).isSome = true

theorem checkedMul_isSome (a b : UInt64) : (checkedMul a b).isSome = true ↔ a.toNat * b.toNat < 2 ^ 64 := by
  unfold checkedMul
  by_cases h : a.toNat * b.toNat < 2 ^ 64
  · rw [if_pos h]
    exact iff_of_true rfl h
  · rw [if_neg h]
    exact iff_of_false (by simp) h

theorem bits_isSome (a : UInt64) : (checkedMul a 8).isSome = true ↔ a.toNat < 2 ^ 61 := by
  have h8 : (8 : UInt64).toNat = 8 := rfl
  rw [checkedMul_isSome, h8]
  omega

/-- It is shown when nothing that is shown overflows. -/
theorem formatTransportConfig_isSome (R : Human) (thresholds : Text) (c : Configuration) :
    (c.formatTransportConfig R thresholds).isSome = true ↔ (checkedMul c.getTx 8).isSome = true ∧
      (checkedMul c.getRx 8).isSome = true ∧ c.sendWindow.isSome = true ∧ c.recvWindow.isSome = true := by
  unfold formatTransportConfig
  cases checkedMul c.getTx 8 with
  | none => simp
  | some txbits =>
    cases checkedMul c.getRx 8 with
    | none => simp
    | some rxbits => cases c.sendWindow <;> cases c.recvWindow <;> simp

/-- **A validated configuration can be shown exactly when its rates fit in 61 bits**; nothing else overflows. -/
theorem computes_iff (R : Human) (thresholds : Text) (c : Configuration) (h : c.tryValidate = .ok ()) :
    c.Computes R thresholds ↔ c.getRx.toNat < 2 ^ 61 ∧ c.getTx.toNat < 2 ^ 61 := by
  obtain ⟨hrecv, hsend⟩ := c.windows_of_tryValidate h
  have hbdp : c.rttBandwidthDelayProductTx.isSome = true := by
    unfold sendWindow at hsend
    cases hc : c.rttBandwidthDelayProductTx with
    | none => rw [hc] at hsend; cases hsend
    | some n => rfl
  rw [← bits_isSome, ← bits_isSome]
  constructor
  · intro hc
    obtain ⟨htx, hrx, -, -⟩ := (formatTransportConfig_isSome R thresholds c).1 hc.format
    exact ⟨hrx, htx⟩
  · intro hbits
    have hformat := (formatTransportConfig_isSome R thresholds c).2 ⟨hbits.2, hbits.1, hsend, hrecv⟩
    exact ⟨hbdp, hrecv, hsend, hrecv, hformat⟩

def plainHuman : Human := ⟨EngRepr.decimal.toEng, EngRepr.decimal.toEng, fun n => EngRepr.decimal.toEng n.toUInt64⟩

theorem computes_iff_default : systemDefault.Computes plainHuman [] ↔
    systemDefault.getRx.toNat < 2 ^ 61 ∧ systemDefault.getTx.toNat < 2 ^ 61 :=
  computes_iff plainHuman [] systemDefault (by decide)

/-- Two EiB a second, at a round trip of a millisecond. -/
theorem not_computes : ¬ ∀ c : Configuration, c.tryValidate = .ok () → c.Computes plainHuman [] := by
  intro h
  have hv : ({ systemDefault with rx := 2305843009213693952, rtt := 1 } : Configuration).tryValidate =
      .ok () := by decide
  have hbits := (formatTransportConfig_isSome _ _ _).1 (h _ hv).format
  exact absurd hbits.1 (by decide)

end Configuration

/-! ## Builds -/

/-- How the program was built and is run: whether products are checked, whether debug messages are shown, and how. -/
structure Build where
  overflowChecks : Bool
  debugLog : Bool
  human : Configuration.Human
  thresholds : Text

def overflowPanic : Fault := .panic "attempt to multiply with overflow".toList

/-- What a build makes of products: unless one overflows it is `exact`; what wraps around is `wrapped`. -/
def Build.product {α : Type} (B : Build) (exact : Option α) (wrapped : α) : Except Fault α :=
  match exact with
  | some a => .ok a
  | none => if B.overflowChecks then .error overflowPanic else .ok wrapped

theorem Build.product_some {α : Type} (B : Build) (a wrapped : α) : B.product (some a) wrapped = .ok a := rfl

theorem Build.product_ok {α : Type} (B : Build) (h : B.overflowChecks = false) (exact : Option α) (wrapped : α) :
    ∃ a, B.product exact wrapped = .ok a := by
  cases exact with
  | some a => exact ⟨a, rfl⟩
  | none => exact ⟨wrapped, by unfold product; rw [h]; rfl⟩

/-- A build that checks nothing and logs nothing, and one that does both. -/
def releaseBuild : Build := ⟨false, false, Configuration.plainHuman, []⟩

def debugBuild : Build := ⟨true, true, Configuration.plainHuman, []⟩

/-! ## The transport -/

/-- Whether a side is to send much, to receive much, or both. -/
inductive ThroughputMode where
  | tx
  | rx
  | both
deriving DecidableEq, Repr

namespace Direction

def serverMode : Direction → ThroughputMode
  | clientToServer => .rx
  | serverToClient => .tx
  | both => .both

def clientMode : Direction → ThroughputMode
  | clientToServer => .tx
  | serverToClient => .rx
  | both => .both

end Direction

/-- What is set for sending. -/
structure SendSettings where
  sendWindow : UInt64
  datagramSendBufferSize : UInt64
deriving DecidableEq, Repr

/-- And for receiving. -/
structure ReceiveSettings where
  receiveWindow : UInt64
  streamReceiveWindow : UInt64
  datagramReceiveBufferSize : UInt64
deriving DecidableEq, Repr

/-- A transport's configuration, where it is not left to the library; times are in milliseconds. -/
structure TransportConfig where
  maxConcurrentBidiStreams : Nat
  maxConcurrentUniStreams : Nat
  keepAliveInterval : Nat
  allowSpin : Bool
  initialRtt : Nat
  minMtu : UInt16
  initialMtu : UInt16
  mtuUpperBound : UInt16
  send : Option SendSettings
  receive : Option ReceiveSettings
  congestion : CongestionController
  initialWindow : Option UInt64
deriving DecidableEq, Repr

/-- In milliseconds. -/
def protocolKeepalive : Nat := 5000

/-- What a variable-length integer of the transport can hold. -/
def varInt (n : UInt64) : Except Fault UInt64 :=
  if n.toNat < 2 ^ 62 then .ok n else .error (.error "value too large for varint encoding".toList)

def newRenoText : Text := "Remote host does not support NewReno".toList

namespace Configuration

def wrappedSendWindow (c : Configuration) : UInt64 := 8 * (c.getTx * c.rtt.toUInt64 / 1000)

def wrappedRecvWindow (c : Configuration) : UInt64 := c.getRx * c.rtt.toUInt64 / 1000

variable (B : Build) (params : Configuration)

def sendSettings : ThroughputMode → Except Fault (Option SendSettings)
  | .tx | .both => do
    let swnd ← B.product params.sendWindow params.wrappedSendWindow
    return some ⟨swnd, params.udpBuffer⟩
  | .rx => return none

def receiveSettings : ThroughputMode → Except Fault (Option ReceiveSettings)
  | .rx | .both => do
    let rwnd ← B.product params.recvWindow params.wrappedRecvWindow
    let rwnd ← varInt rwnd
    return some ⟨rwnd, rwnd, params.udpBuffer⟩
  | .tx => return none

/-- What the log shows of it; the log itself is left out. -/
def logTransportConfig : Except Fault Text :=
  if B.debugLog then
    B.product (params.formatTransportConfig B.human B.thresholds)
      (transportText B.human B.thresholds params (params.getTx * 8) (params.getRx * 8) params.wrappedSendWindow
        params.wrappedRecvWindow)
  else .ok []

/-- What the transport is, apart from its windows, is as it was configured. -/
def transportConfig (send : Option SendSettings) (receive : Option ReceiveSettings) : TransportConfig where
  maxConcurrentBidiStreams := 1
  maxConcurrentUniStreams := 0
  keepAliveInterval := protocolKeepalive
  allowSpin := true
  initialRtt := 2 * params.rtt.toNat
  minMtu := params.minMtu
  initialMtu := params.initialMtu
  mtuUpperBound := params.maxMtu
  send
  receive
  congestion := params.congestion
  initialWindow := if params.initialCongestionWindow ≠ 0 then some params.initialCongestionWindow else none

/-- The transport of an endpoint. -/
def createConfig (mode : ThroughputMode) (compat : Compatibility) : Except Fault TransportConfig := do
  let send ← params.sendSettings B mode
  let receive ← params.receiveSettings B mode
  if params.congestion = .newReno ∧ compat.supports .newReno = false then .error (.error newRenoText)
  let _ ← params.logTransportConfig B
  return params.transportConfig send receive

/-! ## What can be made -/

variable {B}

/-- Rates that a build can show, if it does. -/
def Shows (B : Build) (c : Configuration) : Prop :=
  B.overflowChecks = true → B.debugLog = true → c.getRx.toNat < 2 ^ 61 ∧ c.getTx.toNat < 2 ^ 61

/-- A window is the bandwidth-delay product, and no more than a thousandth of what 64 bits hold. -/
theorem recvWindow_of_sound {c : Configuration} (h : c.Sound) :
    ∃ n, c.recvWindow = some n ∧ n.toNat = c.getRx.toNat * c.rtt.toNat / 1000 := by
  have hrx := h.rxFits
  have hrtt : c.rtt.toUInt64.toNat = c.rtt.toNat := UInt16.toNat_toUInt64 _
  refine ⟨c.getRx * c.rtt.toUInt64 / 1000, ?_, ?_⟩
  · unfold recvWindow rttBandwidthDelayProductRx checkedMul
    rw [if_pos (by rw [hrtt]; exact hrx)]
    rfl
  · rw [UInt64.toNat_div, UInt64.toNat_mul, hrtt, Nat.mod_eq_of_lt hrx]
    rfl

/-- And eight times that for what is sent. -/
theorem sendWindow_of_sound {c : Configuration} (h : c.Sound) :
    ∃ n, c.sendWindow = some n ∧ n.toNat = 8 * (c.getTx.toNat * c.rtt.toNat / 1000) := by
  have htx := h.txFits
  have hrtt : c.rtt.toUInt64.toNat = c.rtt.toNat := UInt16.toNat_toUInt64 _
  have hq : (c.getTx * c.rtt.toUInt64 / 1000).toNat = c.getTx.toNat * c.rtt.toNat / 1000 := by
    rw [UInt64.toNat_div, UInt64.toNat_mul, hrtt, Nat.mod_eq_of_lt htx]
    rfl
  have h8 : (8 : UInt64).toNat = 8 := rfl
  have hfits : (8 : UInt64).toNat * (c.getTx * c.rtt.toUInt64 / 1000).toNat < 2 ^ 64 := by
    rw [hq, h8]
    omega
  refine ⟨8 * (c.getTx * c.rtt.toUInt64 / 1000), ?_, ?_⟩
  · unfold sendWindow rttBandwidthDelayProductTx checkedMul
    rw [if_pos (by rw [hrtt]; exact htx)]
    show (if _ then _ else _ : Option UInt64) = _
    rw [if_pos hfits]
  · rw [UInt64.toNat_mul, Nat.mod_eq_of_lt hfits, hq, h8]

theorem sendSettings_of_sound {c : Configuration} (h : c.Sound) (mode : ThroughputMode) :
    ∃ send, c.sendSettings B mode = .ok send ∧ (mode = .rx → send = none) ∧
      (mode ≠ .rx → ∃ s, send = some s ∧ s.sendWindow.toNat = 8 * (c.getTx.toNat * c.rtt.toNat / 1000)) := by
  obtain ⟨n, hn, hval⟩ := sendWindow_of_sound h
  cases mode with
  | rx => exact ⟨none, rfl, fun _ => rfl, fun hne => absurd rfl hne⟩
  | tx => exact ⟨some ⟨n, c.udpBuffer⟩, by unfold sendSettings; rw [hn]; rfl, nofun, fun _ => ⟨_, rfl, hval⟩⟩
  | both => exact ⟨some ⟨n, c.udpBuffer⟩, by unfold sendSettings; rw [hn]; rfl, nofun, fun _ => ⟨_, rfl, hval⟩⟩

theorem receiveSettings_of_sound {c : Configuration} (h : c.Sound) (mode : ThroughputMode) :
    ∃ receive, c.receiveSettings B mode = .ok receive ∧ (mode = .tx → receive = none) ∧
      (mode ≠ .tx → ∃ r, receive = some r ∧ r.streamReceiveWindow = r.receiveWindow ∧
        r.streamReceiveWindow.toNat = c.getRx.toNat * c.rtt.toNat / 1000) := by
  obtain ⟨n, hn, hval⟩ := recvWindow_of_sound h
  have hrx := h.rxFits
  have hvar : varInt n = .ok n := if_pos (by rw [hval]; omega)
  have hset : (do
      let rwnd ← B.product c.recvWindow c.wrappedRecvWindow
      let rwnd ← varInt rwnd
      return some ⟨rwnd, rwnd, c.udpBuffer⟩ : Except Fault (Option ReceiveSettings)) = .ok
        (some ⟨n, n, c.udpBuffer⟩) := by
    rw [hn]
    show (varInt n >>= fun rwnd => (.ok (some ⟨rwnd, rwnd, c.udpBuffer⟩) : Except Fault (Option ReceiveSettings))) = _
    rw [hvar]
    rfl
  cases mode with
  | tx => exact ⟨none, rfl, fun _ => rfl, fun hne => absurd rfl hne⟩
  | rx => exact ⟨_, hset, nofun, fun _ => ⟨_, rfl, rfl, hval⟩⟩
  | both => exact ⟨_, hset, nofun, fun _ => ⟨_, rfl, rfl, hval⟩⟩

/-- What a sound configuration is made into. -/
structure Makes (c : Configuration) (mode : ThroughputMode) (t : TransportConfig) : Prop where
  initialRtt : t.initialRtt = 2 * c.rtt.toNat
  congestion : t.congestion = c.congestion
  silent : mode = .rx → t.send = none
  deaf : mode = .tx → t.receive = none
  sends : mode ≠ .rx → ∃ s, t.send = some s ∧ s.sendWindow.toNat = 8 * (c.getTx.toNat * c.rtt.toNat / 1000)
  receives : mode ≠ .tx → ∃ r, t.receive = some r ∧ r.streamReceiveWindow = r.receiveWindow ∧
    r.streamReceiveWindow.toNat = c.getRx.toNat * c.rtt.toNat / 1000

theorem logTransportConfig_of_valid {c : Configuration} (h : c.tryValidate = .ok ()) :
    (c.Shows B → ∃ t, c.logTransportConfig B = .ok t) ∧
      (¬ c.Shows B → c.logTransportConfig B = .error overflowPanic) := by
  have hc := c.computes_iff B.human B.thresholds h
  unfold logTransportConfig
  cases hd : B.debugLog with
  | false => exact ⟨fun _ => ⟨_, rfl⟩, fun hn => absurd (fun _ hl => by rw [hd] at hl; cases hl) hn⟩
  | true =>
    simp only [if_true]
    cases ho : B.overflowChecks with
    | false => exact ⟨fun _ => B.product_ok ho _ _, fun hn => absurd (fun hl => by rw [ho] at hl; cases hl) hn⟩
    | true =>
      constructor
      · intro hs
        obtain ⟨t, ht⟩ := Option.isSome_iff_exists.1 (hc.2 (hs ho hd)).format
        exact ⟨t, by rw [ht]; rfl⟩
      · intro hn
        cases ht : c.formatTransportConfig B.human B.thresholds with
        | none =>
          unfold Build.product
          rw [ho]
          rfl
        | some t =>
          obtain ⟨hrecv, hsend⟩ := c.windows_of_tryValidate h
          obtain ⟨htx, hrx, -, -⟩ := (formatTransportConfig_isSome B.human B.thresholds c).1 (by rw [ht]; rfl)
          exact absurd (fun _ _ => ⟨(bits_isSome _).1 hrx, (bits_isSome _).1 htx⟩) hn

/-- What a valid configuration is made into, unless it is refused or cannot be shown. -/
theorem createConfig_of_valid {c : Configuration} (h : c.tryValidate = .ok ()) (mode : ThroughputMode)
    (compat : Compatibility) : ∃ t, c.Makes mode t ∧ c.createConfig B mode compat =
      if c.congestion = .newReno ∧ compat.supports .newReno = false then .error (.error newRenoText)
      else (c.logTransportConfig B).map fun _ => t := by
  obtain ⟨hsound, -⟩ := c.tryValidate_iff.1 h
  obtain ⟨send, hsend, hsilent, hsends⟩ := sendSettings_of_sound (B := B) hsound mode
  obtain ⟨receive, hreceive, hdeaf, hreceives⟩ := receiveSettings_of_sound (B := B) hsound mode
  unfold createConfig
  rw [hsend, hreceive]
  refine ⟨c.transportConfig send receive, ⟨rfl, rfl, hsilent, hdeaf, hsends, hreceives⟩, ?_⟩
  simp only [bind, Except.bind]
  split
  · rfl
  · cases c.logTransportConfig B <;> rfl

theorem makes_of_createConfig {c : Configuration} (h : c.tryValidate = .ok ()) {mode : ThroughputMode}
    {compat : Compatibility} {t : TransportConfig} (ht : c.createConfig B mode compat = .ok t) : c.Makes mode t := by
  obtain ⟨t', hmakes, heq⟩ := createConfig_of_valid (B := B) h mode compat
  rw [heq] at ht
  split at ht
  · cases ht
  · cases hl : c.logTransportConfig B with
    | error e => rw [hl] at ht; cases ht
    | ok text =>
      rw [hl] at ht
      cases ht
      exact hmakes

/-- What has a transport has a controller that its peer knows. -/
theorem newReno_of_createConfig {c : Configuration} {mode : ThroughputMode} {compat : Compatibility}
    {t : TransportConfig} (h : c.createConfig B mode compat = .ok t) (hc : c.congestion = .newReno) :
    compat.supports .newReno = true := by
  obtain ⟨_, -, h⟩ := (bind_eq_ok _ _ _).1 h
  obtain ⟨_, -, h⟩ := (bind_eq_ok _ _ _).1 h
  cases hs : compat.supports .newReno with
  | true => rfl
  | false =>
    rw [if_pos ⟨hc, hs⟩] at h
    cases h

/-- The controller that only some peers know, and a peer that does not. -/
theorem createConfig_refused {c : Configuration} (h : c.tryValidate = .ok ()) (mode : ThroughputMode)
    {compat : Compatibility} (hc : c.congestion = .newReno) (hs : compat.supports .newReno = false) :
    c.createConfig B mode compat = .error (.error newRenoText) := by
  obtain ⟨t, -, heq⟩ := createConfig_of_valid (B := B) h mode compat
  rw [heq, if_pos ⟨hc, hs⟩]

theorem createConfig_of_shows {c : Configuration} (h : c.tryValidate = .ok ()) (mode : ThroughputMode)
    {compat : Compatibility} (hc : c.congestion = .newReno → compat.supports .newReno = true) (hs : c.Shows B) :
    ∃ t, c.createConfig B mode compat = .ok t := by
  obtain ⟨t, -, heq⟩ := createConfig_of_valid (B := B) h mode compat
  obtain ⟨text, htext⟩ := (logTransportConfig_of_valid h).1 hs
  refine ⟨t, ?_⟩
  rw [heq, if_neg (fun hr => by rw [hc hr.1] at hr; cases hr.2), htext]
  rfl

theorem createConfig_of_not_shows {c : Configuration} (h : c.tryValidate = .ok ()) (mode : ThroughputMode)
    {compat : Compatibility} (hc : c.congestion = .newReno → compat.supports .newReno = true) (hs : ¬ c.Shows B) :
    c.createConfig B mode compat = .error overflowPanic := by
  obtain ⟨t, -, heq⟩ := createConfig_of_valid (B := B) h mode compat
  rw [heq, if_neg (fun hr => by rw [hc hr.1] at hr; cases hr.2), (logTransportConfig_of_valid h).2 hs]
  rfl

/-- **All that a validated configuration can be refused for is its controller**, unless it is shown, and cannot be. -/
theorem createConfig_isOk_iff (c : Configuration) (h : c.tryValidate = .ok ()) (mode : ThroughputMode)
    (compat : Compatibility) : (c.createConfig B mode compat).isOk = true ↔
      (c.congestion = .newReno → compat.supports .newReno = true) ∧ c.Shows B := by
  by_cases hr : c.congestion = .newReno ∧ compat.supports .newReno = false
  · rw [createConfig_refused h mode hr.1 hr.2]
    exact iff_of_false (fun h => by cases h) fun hn => by rw [hn.1 hr.1] at hr; cases hr.2
  · have hc : c.congestion = .newReno → compat.supports .newReno = true := fun hc =>
      Bool.eq_true_of_not_eq_false fun hs => hr ⟨hc, hs⟩
    by_cases hs : c.Shows B
    · obtain ⟨t, ht⟩ := createConfig_of_shows h mode hc hs
      rw [ht]
      exact iff_of_true rfl ⟨hc, hs⟩
    · rw [createConfig_of_not_shows h mode hc hs]
      exact iff_of_false (fun h => by cases h) fun hn => hs hn.2

end Configuration
end Qcp
