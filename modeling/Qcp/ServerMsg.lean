import Qcp.Negotiate
/-!
# ServerMsg — the server message, in its two versions

Each version has its constructor (`ServerMessage.new`); a client turns the first into the second
(`ServerMessageV1.toV2`) and merges the result over its own layers (`ServerMessageV2.learned`).  `says_new` says what
a message of either version carries, and `learned_eq_ok_iff` when a client can merge it.
-/
namespace Qcp

open Bare
open Layers (Dict)

inductive ServerMessage2Attributes where
  | invalid
  | congestionController
  | initialCongestionWindow
  | warningMessage
  | quicTimeout
deriving DecidableEq, Repr

namespace ServerMessage2Attributes

def toRepr : ServerMessage2Attributes → UInt64
  | invalid => 0
  | congestionController => 1
  | initialCongestionWindow => 2
  | warningMessage => 3
  | quicTimeout => 4

def fromRepr (n : UInt64) : Option ServerMessage2Attributes :=
  if n = 0 then some invalid else if n = 1 then some congestionController
  else if n = 2 then some initialCongestionWindow else if n = 3 then some warningMessage
  else if n = 4 then some quicTimeout else none

theorem fromRepr_toRepr (t : ServerMessage2Attributes) : fromRepr t.toRepr = some t := by cases t <;> rfl

def withUnsigned (t : ServerMessage2Attributes) (n : UInt64) : TaggedData := ⟨t.toRepr, .unsigned n⟩

end ServerMessage2Attributes

structure ServerMessageV1 where
  port : UInt16
  cert : Bytes
  name : Text
  bandwidthToServer : UInt64
  bandwidthToClient : UInt64
  rtt : UInt16
  congestion : CongestionController
  initialCongestionWindow : UInt64
  timeout : UInt16
  warning : Text
  «extension» : UInt8

structure ServerMessageV2 where
  port : UInt16
  credentials : TaggedData
  commonName : Text
  bandwidthToServer : UInt64
  bandwidthToClient : UInt64
  rtt : UInt16
  attributes : List TaggedData
  «extension» : UInt8

inductive ServerFailure where
  | malformed
  | negotiationFailed (text : Text)
  | endpointFailed (text : Text)
  | unknown (text : Text)
deriving DecidableEq, Repr

inductive ServerMessage where
  | toFollow
  | v1 (m : ServerMessageV1)
  | failure (f : ServerFailure)
  | v2 (m : ServerMessageV2)

/-! ## Constructors -/

open ServerMessage2Attributes in
/-- The attributes of a version 2 message: what differs from the defaults of the protocol. -/
def ServerMessageV2.applyConfigAttributes (m : ServerMessageV2) (config : Configuration) : ServerMessageV2 :=
  { m with
    attributes := m.attributes ++
      (if config.congestion ≠ default then [congestionController.withUnsigned config.congestion.toRepr] else []) ++
      (if config.initialCongestionWindow ≠ 0 then
        [ServerMessage2Attributes.initialCongestionWindow.withUnsigned config.initialCongestionWindow] else []) ++
      (if config.timeout ≠ 0 then [quicTimeout.withUnsigned config.timeout.toUInt64] else []) }

open ServerMessage2Attributes in
/-- What a client makes of a version 1 message. -/
def ServerMessageV1.toV2 (v1 : ServerMessageV1) : ServerMessageV2 where
  port := v1.port
  credentials := ⟨CredentialsType.x509.toRepr, .bytes v1.cert⟩
  commonName := v1.name
  bandwidthToServer := v1.bandwidthToServer
  bandwidthToClient := v1.bandwidthToClient
  rtt := v1.rtt
  attributes :=
    (if v1.warning ≠ [] then [⟨warningMessage.toRepr, .string v1.warning⟩] else []) ++
    [congestionController.withUnsigned v1.congestion.toRepr] ++
    (if v1.initialCongestionWindow ≠ 0 then
      [ServerMessage2Attributes.initialCongestionWindow.withUnsigned v1.initialCongestionWindow] else []) ++
    (if v1.timeout ≠ 0 then [quicTimeout.withUnsigned v1.timeout.toUInt64] else [])
  «extension» := 0

namespace ServerMessage

/-- The message for the level in use; the credentials have to be bytes. -/
def new (compat : Compatibility) (config : Configuration) (port : UInt16) (credentials : TaggedData)
    (commonName warning : Text) : Option ServerMessage :=
  match credentials.data with
  | .bytes certBytes =>
    let bandwidthToServer := config.getRx
    let bandwidthToClient := config.getTx
    if compat.supports .cmsgSmsg2 then
      some (.v2 (({ port, credentials, commonName, bandwidthToServer, bandwidthToClient, rtt := config.rtt,
                    attributes := [], «extension» := 0 } : ServerMessageV2).applyConfigAttributes config))
    else
      some (.v1 { port, cert := certBytes, name := commonName, bandwidthToServer, bandwidthToClient, rtt := config.rtt,
                  congestion := config.congestion, initialCongestionWindow := config.initialCongestionWindow,
                  timeout := config.timeout, warning, «extension» := 0 })
  | _ => none

/-- What the client works with, whichever version came. -/
def toV2 : ServerMessage → Option ServerMessageV2
  | v1 m => some m.toV2
  | v2 m => some m
  | failure _ => none
  | toFollow => none

end ServerMessage

/-! ## The client's side -/

namespace ServerMessageV2

def unknownTagText (tag : UInt64) : Text :=
  "Unknown ServerMessage2Attributes tag ".toList ++ Decimal.showNat tag.toNat

/-- One attribute added to the dictionary; a tag this build does not know is an error. -/
def addAttribute (dict : Dict Key Value) (attr : TaggedData) : Except ConfigError (Dict Key Value) :=
  match ServerMessage2Attributes.fromRepr attr.tag with
  | some .congestionController =>
    .ok (dict.insert .congestion
      (congestionValue ((CongestionController.fromRepr attr.data.coerceUnsigned).getD default)))
  | some .initialCongestionWindow => .ok (dict.insert .initialCongestionWindow (.num attr.data.coerceUnsigned))
  | some .quicTimeout => .ok (dict.insert .timeout (.num attr.data.coerceUnsigned))
  -- attributes not forming part of the configuration:
  | some .warningMessage => .ok dict
  | some .invalid => .ok dict
  | none => .error (.fused (unknownTagText attr.tag))

/-- The message as a configuration provider, from the client's point of view. -/
def data (m : ServerMessageV2) : Except ConfigError (Dict Key Value) :=
  let dict : Dict Key Value := fun _ => none
  let dict := dict.insert .tx (.num m.bandwidthToServer)
  let dict := dict.insert .rx (.num m.bandwidthToClient)
  let dict := dict.insert .rtt (.num m.rtt.toUInt64)
  m.attributes.foldlM addAttribute dict

/-- The client's manager once the message and the system default are merged in. -/
def mergedInto (m : ServerMessageV2) (E : EngRepr) (manager : Manager) : Manager :=
  (manager.mergeProvider m.data).applySystemDefault E

/-- The client's configuration afterwards. -/
def learned (m : ServerMessageV2) (E : EngRepr) (manager : Manager) : Except ConfigError Configuration :=
  (m.mergedInto E manager).get E

/-- The warnings relayed to the user. -/
def warnings (m : ServerMessageV2) : List Text :=
  m.attributes.filterMap fun attr =>
    if ServerMessage2Attributes.fromRepr attr.tag = some .warningMessage then
      some (attr.data.asStr.getD "<invalid string>".toList)
    else none

end ServerMessageV2

/-! ## What a message carries -/

/-- The dictionary of a message that states a controller, a window and a timeout, or leaves them out. -/
def messageDict (tx rx : UInt64) (rtt : UInt16) (congestion : Option CongestionController) (icw : Option UInt64)
    (timeout : Option UInt16) : Dict Key Value
  | .tx => some (.num tx)
  | .rx => some (.num rx)
  | .rtt => some (u16Value rtt)
  | .congestion => congestion.map congestionValue
  | .initialCongestionWindow => icw.map .num
  | .timeout => timeout.map u16Value
  | _ => none

/-- A value that is left out when it is the protocol's default. -/
def unlessDefault {α : Type} [DecidableEq α] (a dflt : α) : Option α := if a ≠ dflt then some a else none

/-- The controller a message states: always in version 1, in version 2 unless it is the default. -/
def statedCongestion (v2 : Bool) (config : Configuration) : Option CongestionController :=
  if v2 then unlessDefault config.congestion .cubic else some config.congestion

/-- The warnings a message carries: version 2 has none. -/
def statedWarnings (v2 : Bool) (warning : Text) : List Text :=
  if v2 then [] else if warning ≠ [] then [warning] else []

/-- What a message of either version says. -/
structure Says (m : ServerMessageV2) (v2 : Bool) (config : Configuration) (port : UInt16)
    (credentials : TaggedData) (commonName warning : Text) : Prop where
  port : m.port = port
  credentials : m.credentials = credentials
  commonName : m.commonName = commonName
  data : m.data = .ok (messageDict config.getRx config.getTx config.rtt (statedCongestion v2 config)
    (unlessDefault config.initialCongestionWindow 0) (unlessDefault config.timeout 0))
  warnings : m.warnings = statedWarnings v2 warning

theorem addAttribute_congestion (d : Dict Key Value) (c : CongestionController) :
    ServerMessageV2.addAttribute d (ServerMessage2Attributes.congestionController.withUnsigned c.toRepr) =
      .ok (d.insert .congestion (congestionValue c)) := by cases c <;> rfl

theorem addAttribute_icw (d : Dict Key Value) (n : UInt64) :
    ServerMessageV2.addAttribute d (ServerMessage2Attributes.initialCongestionWindow.withUnsigned n) =
      .ok (d.insert .initialCongestionWindow (.num n)) := rfl

theorem addAttribute_timeout (d : Dict Key Value) (n : UInt16) :
    ServerMessageV2.addAttribute d (ServerMessage2Attributes.quicTimeout.withUnsigned n.toUInt64) =
      .ok (d.insert .timeout (u16Value n)) := rfl

theorem addAttribute_warning (d : Dict Key Value) (w : Text) :
    ServerMessageV2.addAttribute d ⟨ServerMessage2Attributes.warningMessage.toRepr, .string w⟩ = .ok d := rfl

/-- The attributes of a message, folded into the dictionary of its fields. -/
theorem foldlM_attributes (tx rx : UInt64) (rtt : UInt16) (cc : Option CongestionController) (icw : UInt64)
    (timeout : UInt16) : (((cc.map fun c =>
        ServerMessage2Attributes.congestionController.withUnsigned c.toRepr).toList ++
      (if icw ≠ 0 then [ServerMessage2Attributes.initialCongestionWindow.withUnsigned icw] else [])) ++
      (if timeout ≠ 0 then [ServerMessage2Attributes.quicTimeout.withUnsigned timeout.toUInt64] else [])).foldlM
        ServerMessageV2.addAttribute
        (Dict.insert (Dict.insert (Dict.insert (fun _ => none) .tx (.num tx)) .rx (.num rx)) .rtt (.num rtt.toUInt64)) =
      .ok (messageDict tx rx rtt cc (unlessDefault icw 0) (unlessDefault timeout 0)) := by
  have done : ∀ d : Dict Key Value,
    (∀ k, d k = messageDict tx rx rtt cc (unlessDefault icw 0) (unlessDefault timeout 0) k) →
      (Except.ok d : Except ConfigError (Dict Key Value)) =
        .ok (messageDict tx rx rtt cc (unlessDefault icw 0) (unlessDefault timeout 0)) :=
    fun d h => by rw [funext h]
  cases cc with
  | none =>
    by_cases h1 : icw = 0 <;> by_cases h2 : timeout = 0 <;>
      simp only [h1, h2, ne_eq, not_true_eq_false, not_false_eq_true, if_true, if_false, Option.map_none,
        Option.toList_none, List.nil_append, List.append_nil, List.foldlM_append, List.foldlM_cons, List.foldlM_nil,
        addAttribute_icw, addAttribute_timeout, unlessDefault, bind, Except.bind] <;>
      refine (congrArg Except.ok (funext fun k => ?_)) <;> cases k <;> rfl
  | some c =>
    by_cases h1 : icw = 0 <;> by_cases h2 : timeout = 0 <;>
      simp only [h1, h2, ne_eq, not_true_eq_false, not_false_eq_true, if_true, if_false, Option.map_some,
        Option.toList_some, List.append_nil, List.foldlM_append, List.foldlM_cons, List.foldlM_nil,
        addAttribute_congestion, addAttribute_icw, addAttribute_timeout, unlessDefault, bind, Except.bind] <;>
      refine (congrArg Except.ok (funext fun k => ?_)) <;> cases k <;> rfl

/-- The attributes of a version 2 message, in the shape of the fold. -/
theorem data_eq (m : ServerMessageV2) (cc : Option CongestionController) (icw : UInt64) (timeout : UInt16)
    (h : m.attributes = ((cc.map fun c => ServerMessage2Attributes.congestionController.withUnsigned c.toRepr).toList ++
      (if icw ≠ 0 then [ServerMessage2Attributes.initialCongestionWindow.withUnsigned icw] else [])) ++
      (if timeout ≠ 0 then [ServerMessage2Attributes.quicTimeout.withUnsigned timeout.toUInt64] else [])) :
    m.data = .ok (messageDict m.bandwidthToServer m.bandwidthToClient m.rtt cc (unlessDefault icw 0)
      (unlessDefault timeout 0)) := by
  unfold ServerMessageV2.data
  rw [h]
  exact foldlM_attributes _ _ _ cc icw timeout

section New

variable (compat : Compatibility) (config : Configuration) (port : UInt16) (certBytes : Bytes)
  (credentials : TaggedData) (commonName warning : Text)

/-- The version 2 message carries no warning. -/
theorem says_v2 : Says
    (({ port, credentials, commonName, bandwidthToServer := config.getRx, bandwidthToClient := config.getTx,
        rtt := config.rtt, attributes := [], «extension» := 0 } : ServerMessageV2).applyConfigAttributes config)
    true config port credentials commonName warning where
  port := rfl
  credentials := rfl
  commonName := rfl
  data := by
    apply data_eq _ (unlessDefault config.congestion .cubic) _ _
    unfold unlessDefault ServerMessageV2.applyConfigAttributes
    by_cases h : config.congestion = .cubic
    · rw [h]; rfl
    · have h' : config.congestion ≠ default := h
      simp only [List.nil_append, if_pos h, if_pos h']
      rfl
  warnings := by
    show List.filterMap _ _ = []
    unfold ServerMessageV2.applyConfigAttributes
    by_cases h1 : config.congestion = default <;> by_cases h2 : config.initialCongestionWindow = 0 <;>
      by_cases h3 : config.timeout = 0 <;> simp only [h1, h2, h3, ne_eq, not_true_eq_false, not_false_eq_true, if_true,
        if_false] <;> rfl

/-- The version 1 message as a client works with it. -/
theorem says_v1 : Says (ServerMessageV1.toV2
      { port, cert := certBytes, name := commonName, bandwidthToServer := config.getRx,
        bandwidthToClient := config.getTx, rtt := config.rtt, congestion := config.congestion,
        initialCongestionWindow := config.initialCongestionWindow, timeout := config.timeout, warning,
        «extension» := 0 }) false config port ⟨CredentialsType.x509.toRepr, .bytes certBytes⟩ commonName warning where
  port := rfl
  credentials := rfl
  commonName := rfl
  data := by
    by_cases h : warning = []
    · apply data_eq _ (some config.congestion) _ _
      unfold ServerMessageV1.toV2
      simp only [h, ne_eq, not_true_eq_false, if_false, List.nil_append]
      rfl
    · unfold ServerMessageV2.data ServerMessageV1.toV2
      simp only [ne_eq, if_pos h, List.append_assoc]
      rw [List.singleton_append, List.foldlM_cons, addAttribute_warning, ← List.append_assoc]
      exact foldlM_attributes config.getRx config.getTx config.rtt (some config.congestion)
        config.initialCongestionWindow config.timeout
  warnings := by
    show List.filterMap _ _ = if warning ≠ [] then [warning] else []
    unfold ServerMessageV1.toV2
    by_cases h1 : warning = [] <;> by_cases h2 : config.initialCongestionWindow = 0 <;>
      by_cases h3 : config.timeout = 0 <;> simp only [h1, h2, h3, ne_eq, not_true_eq_false, not_false_eq_true, if_true,
        if_false, List.nil_append] <;> rfl

/-- **A message for any level says what the configuration has.** -/
theorem says_new (cert : Bytes) : ∃ m, (ServerMessage.new compat config port
      ⟨CredentialsType.x509.toRepr, .bytes cert⟩ commonName warning).bind ServerMessage.toV2 = some m ∧
    Says m (compat.supports .cmsgSmsg2) config port ⟨CredentialsType.x509.toRepr, .bytes cert⟩ commonName warning := by
  unfold ServerMessage.new
  simp only
  cases compat.supports .cmsgSmsg2 with
  | true => exact ⟨_, rfl, says_v2 config port _ commonName warning⟩
  | false => exact ⟨_, rfl, says_v1 config port cert commonName warning⟩

end New

/-! ## What a client learns -/

/-- The dictionary a client reads its configuration from, once a message is merged in. -/
def learnedLook (E : EngRepr) (dict look : Dict Key Value) : Dict Key Value := fun k =>
  ((dict k).or (look k)).or (Configuration.systemDefault.toDict E k)

theorem learned_eq_ok_iff (E : EngRepr) (m : ServerMessageV2) (l : Layers.Layered Key Value) (dict : Dict Key Value)
    (hd : m.data = .ok dict) (c : Configuration) :
    m.learned E ⟨.ok l⟩ = .ok c ↔ Configuration.Reads E (learnedLook E dict l.look) c := by
  rw [← Configuration.extract_eq_ok_iff]
  unfold ServerMessageV2.learned ServerMessageV2.mergedInto
  rw [hd]
  show Configuration.extract E ((l.merge .global dict).join .dflt _).look = _ ↔ _
  have : ((l.merge .global dict).join .dflt (Configuration.systemDefault.toDict E)).look =
      learnedLook E dict l.look := by
    funext k
    rw [Layers.Layered.look_join_default, Layers.Layered.look_merge_global]
    rfl
  rw [this]

end Qcp
