import Qcp.ClientMsg
import Qcp.ServerMsg
/-!
# ControlMsg — the wire forms of the control channel

The two greetings, the client message and the server message, each with its `codec`.  The placeholder `toFollow` of
either message can be read but never written: it is not `wf`.
-/
namespace Qcp

open Bare

structure ClientGreeting where
  compatibility : UInt16
  debug : Bool
  «extension» : UInt8
deriving DecidableEq, Repr

structure ServerGreeting where
  compatibility : UInt16
  «extension» : UInt8
deriving DecidableEq, Repr

def ClientGreeting.codec : Codec ClientGreeting :=
  (Codec.u16.pair (Codec.bool.pair Codec.u8)).iso (fun p => ⟨p.1, p.2.1, p.2.2⟩)
    (fun g => (g.compatibility, g.debug, g.extension)) fun _ => rfl

def ServerGreeting.codec : Codec ServerGreeting :=
  (Codec.u16.pair Codec.u8).iso (fun p => ⟨p.1, p.2⟩) (fun g => (g.compatibility, g.extension)) fun _ => rfl

/-! ## Fields -/

namespace ConnectionType

def toByte : ConnectionType → UInt8
  | ipv4 => 4
  | ipv6 => 6

def fromByte (b : UInt8) : Option ConnectionType := if b = 4 then some ipv4 else if b = 6 then some ipv6 else none

def codec : Codec ConnectionType := Codec.u8.partialIso fromByte toByte fun c => by cases c <;> rfl

end ConnectionType

def CongestionController.codec : Codec CongestionController :=
  Codec.uint.partialIso fromRepr toRepr fromRepr_toRepr

def PortRange.codec : Codec PortRange :=
  (Codec.u16.pair Codec.u16).iso (fun p => ⟨p.1, p.2⟩) (fun r => (r.begin, r.end)) fun _ => rfl

/-! ## The client message -/

def ClientMessageV1.codec : Codec ClientMessageV1 :=
  (Codec.data.pair (ConnectionType.codec.pair ((Codec.option PortRange.codec).pair (Codec.bool.pair
    ((Codec.option Codec.uint).pair ((Codec.option Codec.uint).pair ((Codec.option Codec.u16).pair
      ((Codec.option CongestionController.codec).pair ((Codec.option Codec.uint).pair ((Codec.option Codec.u16).pair
        (Codec.list TaggedData.codec))))))))))).iso
    (fun (cert, connectionType, port, showConfig, toServer, toClient, rtt, congestion, icw, timeout, attributes) =>
      ⟨cert, connectionType, port, showConfig, toServer, toClient, rtt, congestion, icw, timeout, attributes⟩)
    (fun m => (m.cert, m.connectionType, m.port, m.showConfig, m.bandwidthToServer, m.bandwidthToClient, m.rtt,
      m.congestion, m.initialCongestionWindow, m.timeout, m.attributes))
    fun _ => rfl

def ClientMessageV2.codec : Codec ClientMessageV2 :=
  (TaggedData.codec.pair (ConnectionType.codec.pair ((Codec.list TaggedData.codec).pair Codec.u8))).iso
    (fun p => ⟨p.1, p.2.1, p.2.2.1, p.2.2.2⟩) (fun m => (m.credentials, m.connectionType, m.attributes, m.extension))
    fun _ => rfl

namespace ClientMessage

def tag : ClientMessage → UInt64
  | toFollow => 0
  | v1 _ => 1
  | v2 _ => 2

def body : ClientMessage → Bytes
  | toFollow => []
  | v1 m => ClientMessageV1.codec.enc m
  | v2 m => ClientMessageV2.codec.enc m

def arm (t : UInt64) : Decoder ClientMessage :=
  if t = 0 then pure toFollow else if t = 1 then v1 <$> ClientMessageV1.codec.dec
  else if t = 2 then v2 <$> ClientMessageV2.codec.dec else fail

def wf : ClientMessage → Prop
  | toFollow => False
  | v1 m => ClientMessageV1.codec.wf m
  | v2 m => ClientMessageV2.codec.wf m

def codec : Codec ClientMessage := Codec.union tag body arm wf fun m h => by
  cases m with
  | toFollow => exact h.elim
  | v1 m => exact (ClientMessageV1.codec.decodes m h).map v1
  | v2 m => exact (ClientMessageV2.codec.decodes m h).map v2

end ClientMessage

/-! ## The server message -/

def ServerMessageV1.codec : Codec ServerMessageV1 :=
  (Codec.u16.pair (Codec.data.pair (Codec.text.pair (Codec.uint.pair (Codec.uint.pair (Codec.u16.pair
    (CongestionController.codec.pair (Codec.uint.pair (Codec.u16.pair (Codec.text.pair Codec.u8)))))))))).iso
    (fun (port, cert, name, toServer, toClient, rtt, congestion, icw, timeout, warning, ext) =>
      ⟨port, cert, name, toServer, toClient, rtt, congestion, icw, timeout, warning, ext⟩)
    (fun m => (m.port, m.cert, m.name, m.bandwidthToServer, m.bandwidthToClient, m.rtt, m.congestion,
      m.initialCongestionWindow, m.timeout, m.warning, m.extension))
    fun _ => rfl

def ServerMessageV2.codec : Codec ServerMessageV2 :=
  (Codec.u16.pair (TaggedData.codec.pair (Codec.text.pair (Codec.uint.pair (Codec.uint.pair (Codec.u16.pair
    ((Codec.list TaggedData.codec).pair Codec.u8))))))).iso
    (fun (port, credentials, name, toServer, toClient, rtt, attributes, ext) =>
      ⟨port, credentials, name, toServer, toClient, rtt, attributes, ext⟩)
    (fun m => (m.port, m.credentials, m.commonName, m.bandwidthToServer, m.bandwidthToClient, m.rtt, m.attributes,
      m.extension))
    fun _ => rfl

namespace ServerFailure

def tag : ServerFailure → UInt64
  | malformed => 0
  | negotiationFailed _ => 1
  | endpointFailed _ => 2
  | unknown _ => 3

def body : ServerFailure → Bytes
  | malformed => []
  | negotiationFailed t | endpointFailed t | unknown t => Codec.text.enc t

def arm (t : UInt64) : Decoder ServerFailure :=
  if t = 0 then pure malformed else if t = 1 then negotiationFailed <$> Codec.text.dec
  else if t = 2 then endpointFailed <$> Codec.text.dec else if t = 3 then unknown <$> Codec.text.dec else fail

def wf : ServerFailure → Prop
  | malformed => True
  | negotiationFailed t | endpointFailed t | unknown t => Codec.text.wf t

def codec : Codec ServerFailure := Codec.union tag body arm wf fun f h => by
  cases f with
  | malformed => exact Decodes.pure _
  | negotiationFailed t => exact (Codec.text.decodes t h).map negotiationFailed
  | endpointFailed t => exact (Codec.text.decodes t h).map endpointFailed
  | unknown t => exact (Codec.text.decodes t h).map unknown

end ServerFailure

namespace ServerMessage

def tag : ServerMessage → UInt64
  | toFollow => 0
  | v1 _ => 1
  | failure _ => 2
  | v2 _ => 3

def body : ServerMessage → Bytes
  | toFollow => []
  | v1 m => ServerMessageV1.codec.enc m
  | failure f => ServerFailure.codec.enc f
  | v2 m => ServerMessageV2.codec.enc m

def arm (t : UInt64) : Decoder ServerMessage :=
  if t = 0 then pure toFollow else if t = 1 then v1 <$> ServerMessageV1.codec.dec
  else if t = 2 then failure <$> ServerFailure.codec.dec else if t = 3 then v2 <$> ServerMessageV2.codec.dec else fail

def wf : ServerMessage → Prop
  | toFollow => False
  | v1 m => ServerMessageV1.codec.wf m
  | failure f => ServerFailure.codec.wf f
  | v2 m => ServerMessageV2.codec.wf m

def codec : Codec ServerMessage := Codec.union tag body arm wf fun m h => by
  cases m with
  | toFollow => exact h.elim
  | v1 m => exact (ServerMessageV1.codec.decodes m h).map v1
  | failure f => exact (ServerFailure.codec.decodes f h).map failure
  | v2 m => exact (ServerMessageV2.codec.decodes m h).map v2

end ServerMessage

end Qcp
