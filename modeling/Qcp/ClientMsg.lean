import Qcp.Config
import Qcp.Variant
/-!
# ClientMsg — the client message, in its two versions

Version 1 is a record of options, version 2 a list of tagged attributes.  Each has a constructor from the client's
preferences (`ClientMessageV1.new`, `ClientMessageV2.applyConfigAttributes`); a server turns the first into the second
(`ClientMessageV1.toV2`).  `stated_v1` and `stated_v2` say what a server finds stated in each.
-/
namespace Qcp

open Bare

inductive ClientMessageAttributes where
  | directionOfTravel
deriving DecidableEq

def ClientMessageAttributes.toRepr : ClientMessageAttributes → UInt64
  | directionOfTravel => 1

inductive ClientMessage2Attributes where
  | directionOfTravel
  | portRangeStart
  | portRangeEnd
  | outputConfig
  | bandwidthToServer
  | bandwidthToClient
  | roundTripTime
  | congestionControllerType
  | initialCongestionWindow
  | quicTimeout
deriving DecidableEq

namespace ClientMessage2Attributes

def toRepr : ClientMessage2Attributes → UInt64
  | directionOfTravel => 1
  | portRangeStart => 2
  | portRangeEnd => 3
  | outputConfig => 4
  | bandwidthToServer => 5
  | bandwidthToClient => 6
  | roundTripTime => 7
  | congestionControllerType => 8
  | initialCongestionWindow => 9
  | quicTimeout => 10

def withUnsigned (t : ClientMessage2Attributes) (n : UInt64) : TaggedData := ⟨t.toRepr, .unsigned n⟩

end ClientMessage2Attributes

structure ClientMessageV1 where
  cert : Bytes
  connectionType : ConnectionType
  port : Option PortRange
  showConfig : Bool
  bandwidthToServer : Option UInt64
  bandwidthToClient : Option UInt64
  rtt : Option UInt16
  congestion : Option CongestionController
  initialCongestionWindow : Option UInt64
  timeout : Option UInt16
  attributes : List TaggedData

structure ClientMessageV2 where
  credentials : TaggedData
  connectionType : ConnectionType
  attributes : List TaggedData
  «extension» : UInt8

inductive ClientMessage where
  | toFollow
  | v1 (m : ClientMessageV1)
  | v2 (m : ClientMessageV2)

/-! ## Constructors -/

namespace ClientMessageV1

def new (cert : Bytes) (connectionType : ConnectionType) (remoteConfig : Bool) (myConfig : ConfigurationOptional) :
    ClientMessageV1 where
  cert
  connectionType
  port := myConfig.remotePort
  showConfig := remoteConfig
  bandwidthToServer := match myConfig.tx with
    | none => none
    | some v => if v = 0 then none else some v
  bandwidthToClient := myConfig.rx
  rtt := myConfig.rtt
  congestion := myConfig.congestion
  initialCongestionWindow := myConfig.initialCongestionWindow
  timeout := myConfig.timeout
  attributes := []

end ClientMessageV1

/-- One attribute when there is a value. -/
def pushOpt {α : Type} (o : Option α) (f : α → List TaggedData) : List TaggedData :=
  match o with
  | none => []
  | some a => f a

open ClientMessage2Attributes in
/-- The attributes a version 2 message carries for the client's preferences, in the order they are pushed. -/
def ClientMessageV2.applyConfigAttributes (m : ClientMessageV2) (remoteConfig : Bool)
    (ourConfig : ConfigurationOptional) : ClientMessageV2 :=
  let rxBw := match ourConfig.tx with
    | none => ourConfig.rx
    | some i => if i = 0 then ourConfig.rx else some i
  { m with
    attributes := m.attributes ++
      (if remoteConfig then [⟨outputConfig.toRepr, .empty⟩] else []) ++
      pushOpt ourConfig.remotePort (fun pr =>
        [portRangeStart.withUnsigned pr.begin.toUInt64, portRangeEnd.withUnsigned pr.end.toUInt64]) ++
      pushOpt rxBw (fun rx => [bandwidthToServer.withUnsigned rx]) ++
      pushOpt ourConfig.rx (fun eq => [bandwidthToClient.withUnsigned eq]) ++
      pushOpt ourConfig.rtt (fun rtt => [roundTripTime.withUnsigned rtt.toUInt64]) ++
      pushOpt ourConfig.congestion (fun cc => [congestionControllerType.withUnsigned cc.toRepr]) ++
      pushOpt ourConfig.initialCongestionWindow (fun icw => [initialCongestionWindow.withUnsigned icw]) ++
      pushOpt ourConfig.timeout (fun t => [quicTimeout.withUnsigned t.toUInt64]) }

def ClientMessageV2.new (credentials : TaggedData) (connectionType : ConnectionType) : ClientMessageV2 :=
  ⟨credentials, connectionType, [], 0⟩

open ClientMessage2Attributes in
/-- What a server makes of a version 1 message. -/
def ClientMessageV1.toV2 (v1 : ClientMessageV1) : ClientMessageV2 where
  credentials := ⟨CredentialsType.x509.toRepr, .bytes v1.cert⟩
  connectionType := v1.connectionType
  attributes :=
    pushOpt v1.port (fun pr =>
      [portRangeStart.withUnsigned pr.begin.toUInt64, portRangeEnd.withUnsigned pr.end.toUInt64]) ++
    (if v1.showConfig then [⟨outputConfig.toRepr, .empty⟩] else []) ++
    pushOpt v1.bandwidthToServer (fun bw => [ClientMessage2Attributes.bandwidthToServer.withUnsigned bw]) ++
    pushOpt v1.bandwidthToClient (fun bw => [ClientMessage2Attributes.bandwidthToClient.withUnsigned bw]) ++
    pushOpt v1.rtt (fun rtt => [roundTripTime.withUnsigned rtt.toUInt64]) ++
    pushOpt v1.congestion (fun cc => [congestionControllerType.withUnsigned cc.toRepr]) ++
    pushOpt v1.initialCongestionWindow
    (fun icw => [ClientMessage2Attributes.initialCongestionWindow.withUnsigned icw]) ++
    pushOpt v1.timeout (fun t => [quicTimeout.withUnsigned t.toUInt64]) ++
    pushOpt (findTag v1.attributes ClientMessageAttributes.directionOfTravel.toRepr)
      (fun v => [⟨directionOfTravel.toRepr, v⟩])
  «extension» := 0

namespace ClientMessage

/-- The message for the level in use; the credentials have to be bytes. -/
def new (compat : Compatibility) (cert : TaggedData) (connectionType : ConnectionType) (remoteConfig : Bool)
    (myConfig : ConfigurationOptional) : Option ClientMessage :=
  match cert.data with
  | .bytes certBytes =>
    if compat.supports .cmsgSmsg2 then
      some (.v2 ((ClientMessageV2.new cert connectionType).applyConfigAttributes remoteConfig myConfig))
    else some (.v1 (ClientMessageV1.new certBytes connectionType remoteConfig myConfig))
  | _ => none

def setDirection (m : ClientMessage) (direction : Direction) : ClientMessage :=
  match m with
  | toFollow => toFollow
  | v1 msg => v1 { msg with
      attributes := msg.attributes ++ [⟨ClientMessageAttributes.directionOfTravel.toRepr, .unsigned direction.toRepr⟩] }
  | v2 msg => v2 { msg with
      attributes := msg.attributes ++ [ClientMessage2Attributes.directionOfTravel.withUnsigned direction.toRepr] }

/-- What the server works with, whichever version came. -/
def toV2 : ClientMessage → Option ClientMessageV2
  | toFollow => none
  | v1 m => some m.toV2
  | v2 m => some m

end ClientMessage

/-! ## Looking attributes up -/

theorem findTag_append (xs ys : List TaggedData) (t : UInt64) :
    findTag (xs ++ ys) t = (findTag xs t).or (findTag ys t) := by
  unfold findTag
  rw [List.find?_append]
  cases xs.find? fun td => td.tag == t <;> rfl

open ClientMessage2Attributes

theorem toRepr_inj (a t : ClientMessage2Attributes) : a.toRepr = t.toRepr ↔ a = t := by
  refine ⟨fun h => ?_, fun h => by rw [h]⟩
  cases a <;> cases t <;> first | rfl | exact absurd h (by decide)

theorem findTag_nil (t : UInt64) : findTag [] t = none := rfl

theorem findTag_cons (td : TaggedData) (tds : List TaggedData) (t : UInt64) :
    findTag (td :: tds) t = if td.tag = t then some td.data else findTag tds t := by
  unfold findTag
  rw [List.find?_cons]
  by_cases h : td.tag = t
  · rw [if_pos h, beq_iff_eq.2 h]; rfl
  · rw [if_neg h, beq_eq_false_iff_ne.2 h]

/-- An attribute pushed for a value answers for its own tag only. -/
theorem findTag_pushOpt {α : Type} (o : Option α) (a : ClientMessage2Attributes) (f : α → Variant)
    (t : ClientMessage2Attributes) : findTag (pushOpt o fun n => [⟨a.toRepr, f n⟩]) t.toRepr =
      if a = t then o.map f else none := by
  cases o with
  | none => rw [Option.map_none, ite_self]; rfl
  | some n =>
    show findTag [⟨a.toRepr, f n⟩] t.toRepr = _
    rw [findTag_cons, findTag_nil, Option.map_some]
    simp only [toRepr_inj]

/-- The two ends of a port range are pushed together. -/
theorem findTag_pushPorts {α : Type} (o : Option α) (a b : ClientMessage2Attributes) (f g : α → Variant)
    (t : ClientMessage2Attributes) : findTag (pushOpt o fun n => [⟨a.toRepr, f n⟩, ⟨b.toRepr, g n⟩]) t.toRepr =
      if a = t then o.map f else if b = t then o.map g else none := by
  cases o with
  | none => rw [Option.map_none, Option.map_none, ite_self, ite_self]; rfl
  | some n =>
    show findTag [⟨a.toRepr, f n⟩, ⟨b.toRepr, g n⟩] t.toRepr = _
    rw [findTag_cons, findTag_cons, findTag_nil, Option.map_some, Option.map_some]
    simp only [toRepr_inj]

theorem findTag_pushConfig (b : Bool) (t : ClientMessage2Attributes) :
    findTag (if b then [⟨outputConfig.toRepr, .empty⟩] else []) t.toRepr =
      if b ∧ outputConfig = t then some .empty else none := by
  cases b with
  | false => simp [findTag_nil]
  | true =>
    rw [if_pos rfl, findTag_cons, findTag_nil]
    simp only [toRepr_inj, true_and]

/-- **What a list of attributes says about each parameter.** -/
structure Stated (attrs : List TaggedData) (o : ConfigurationOptional) (toServer : Option UInt64) (showConfig : Bool)
    (direction : Direction) : Prop where
  direction : findTag attrs directionOfTravel.toRepr = some (.unsigned direction.toRepr)
  portRangeStart : findTag attrs portRangeStart.toRepr = o.remotePort.map fun pr => .unsigned pr.begin.toUInt64
  portRangeEnd : findTag attrs portRangeEnd.toRepr = o.remotePort.map fun pr => .unsigned pr.end.toUInt64
  outputConfig : findTag attrs outputConfig.toRepr = if showConfig then some .empty else none
  bandwidthToServer : findTag attrs bandwidthToServer.toRepr = toServer.map .unsigned
  bandwidthToClient : findTag attrs bandwidthToClient.toRepr = o.rx.map .unsigned
  roundTripTime : findTag attrs roundTripTime.toRepr = o.rtt.map fun n => .unsigned n.toUInt64
  congestion : findTag attrs congestionControllerType.toRepr = o.congestion.map fun c => .unsigned c.toRepr
  initialCongestionWindow : findTag attrs initialCongestionWindow.toRepr = o.initialCongestionWindow.map .unsigned
  timeout : findTag attrs quicTimeout.toRepr = o.timeout.map fun n => .unsigned n.toUInt64

/-- The rate towards the server a version 2 message states: `tx`, or `rx` when that is absent or 0. -/
def ConfigurationOptional.toServer2 (o : ConfigurationOptional) : Option UInt64 :=
  match o.tx with
  | none => o.rx
  | some i => if i = 0 then o.rx else some i

/-- The rate towards the server a version 1 message states: a `tx` that is not 0. -/
def ConfigurationOptional.toServer1 (o : ConfigurationOptional) : Option UInt64 :=
  match o.tx with
  | none => none
  | some v => if v = 0 then none else some v

/-- **A version 2 message states every parameter**, the rate towards the server falling back on `rx`. -/
theorem stated_v2 (cert : TaggedData) (ct : ConnectionType) (rc : Bool) (o : ConfigurationOptional) (d : Direction) :
    Stated (((ClientMessageV2.new cert ct).applyConfigAttributes rc o).attributes ++
      [directionOfTravel.withUnsigned d.toRepr]) o o.toServer2 rc d := by
  constructor <;> unfold ClientMessageV2.applyConfigAttributes ClientMessageV2.new <;>
    simp only [List.nil_append, withUnsigned, findTag_append, findTag_pushPorts, findTag_pushConfig, findTag_pushOpt,
      findTag_cons, toRepr_inj, findTag_nil, reduceCtorEq, and_false, and_true, ite_true, ite_false, Option.or_none,
      Option.none_or]
  rfl

/-- **A version 1 message states every parameter once converted**, the rate towards the server only when `tx` is. -/
theorem stated_v1 (cert : Bytes) (ct : ConnectionType) (rc : Bool) (o : ConfigurationOptional) (d : Direction) :
    Stated ({ ClientMessageV1.new cert ct rc o with
      attributes := [⟨ClientMessageAttributes.directionOfTravel.toRepr, .unsigned d.toRepr⟩] } :
      ClientMessageV1).toV2.attributes o o.toServer1 rc d := by
  constructor <;> unfold ClientMessageV1.toV2 ClientMessageV1.new <;>
    simp only [withUnsigned, findTag_append, findTag_pushPorts, findTag_pushConfig, findTag_pushOpt, findTag_cons,
      findTag_nil, reduceCtorEq, and_false, and_true, ite_true, ite_false, Option.or_none,
      Option.none_or, Option.map_id']
  rfl

end Qcp
