import Qcp.Closedown
/-!
# Extensions — messages read by peers that do not know all of their fields

Where a message of today ends with a list of attributes, its original layout ended with one byte that had to be zero.
`begins_of_list` is why either layout reads what the other wrote: a list begins with a byte, and one zero byte is the
empty list.  `extension_compatible` says so of the two messages that have grown.
-/
namespace Qcp

open Bare

/-! ## Reading a front -/

section Begins

variable {α β : Type} {a : α} {b : β} {bs : Bytes}

/-- **`p` reads some front of `bs` and returns `a`.** -/
def Begins (p : Decoder α) (bs : Bytes) (a : α) : Prop := ∃ xs ys, bs = xs ++ ys ∧ Decodes p xs a

theorem Begins.decode {c : Codec α} (h : Begins c.dec bs a) : c.decode bs = some a := by
  obtain ⟨xs, ys, rfl, hd⟩ := h
  rw [Codec.decode, hd ys]
  rfl

theorem Begins.pair {c : Codec α} {d : Codec β} (ha : c.wf a) (h : Begins d.dec bs b) :
    Begins (c.pair d).dec (c.enc a ++ bs) (a, b) := by
  obtain ⟨xs, ys, rfl, hd⟩ := h
  refine ⟨c.enc a ++ xs, ys, (List.append_assoc ..).symm, ?_⟩
  exact Decodes.bind (c.decodes a ha) (hd.bind_pure (a, ·))

theorem Begins.map {p : Decoder α} (f : α → β) (h : Begins p bs a) : Begins (f <$> p) bs (f a) := by
  obtain ⟨xs, ys, rfl, hd⟩ := h
  exact ⟨xs, ys, rfl, hd.map f⟩

/-- An arm of a union is read after its tag. -/
theorem Begins.arm {tag : α → UInt64} {body : α → Bytes} {arm : UInt64 → Decoder α} {wf : α → Prop}
    {h : ∀ a, wf a → Decodes (arm (tag a)) (body a) a} (t : UInt64) (hb : Begins (arm t) bs a) :
    Begins (Codec.union tag body arm wf h).dec (Codec.uint.enc t ++ bs) a := by
  obtain ⟨xs, ys, rfl, hd⟩ := hb
  exact ⟨Codec.uint.enc t ++ xs, ys, (List.append_assoc ..).symm, Decodes.bind (Codec.uint.decodes t trivial) hd⟩

/-- A list begins with a byte. -/
theorem begins_of_list (c : Codec α) (as : List α) : ∃ b, Begins Codec.u8.dec ((Codec.list c).enc as) b := by
  cases h : Codec.uint.enc (UInt64.ofNat as.length) with
  | nil => exact absurd h (encVar_ne_nil 9 _)
  | cons b bs =>
    refine ⟨b, [b], bs ++ as.flatMap c.enc, ?_, byte_decodes b⟩
    show Codec.uint.enc _ ++ _ = _
    rw [h]
    rfl

end Begins

/-! ## The original layouts -/

structure OriginalClientMessageV1 where
  cert : Bytes
  connectionType : ConnectionType
  port : Option PortRange
  showConfig : Bool
  bandwidthToServer : Option UInt64
  bandwidthToClient : Option UInt64
  rtt : Option UInt16
  congestion : Option CongestionController
  initialCongestionWindow : Option UInt64
  timeout : Option UInt16
  «extension» : UInt8

def OriginalClientMessageV1.codec : Codec OriginalClientMessageV1 :=
  (Codec.data.pair (ConnectionType.codec.pair ((Codec.option PortRange.codec).pair (Codec.bool.pair
    ((Codec.option Codec.uint).pair ((Codec.option Codec.uint).pair ((Codec.option Codec.u16).pair
      ((Codec.option CongestionController.codec).pair ((Codec.option Codec.uint).pair ((Codec.option Codec.u16).pair
        Codec.u8)))))))))).iso
    (fun (cert, connectionType, port, showConfig, toServer, toClient, rtt, congestion, icw, timeout, ext) =>
      ⟨cert, connectionType, port, showConfig, toServer, toClient, rtt, congestion, icw, timeout, ext⟩)
    (fun m => (m.cert, m.connectionType, m.port, m.showConfig, m.bandwidthToServer, m.bandwidthToClient, m.rtt,
      m.congestion, m.initialCongestionWindow, m.timeout, m.extension))
    fun _ => rfl

inductive OriginalClientMessage where
  | toFollow
  | v1 (m : OriginalClientMessageV1)

namespace OriginalClientMessage

def tag : OriginalClientMessage → UInt64
  | toFollow => 0
  | v1 _ => 1

def body : OriginalClientMessage → Bytes
  | toFollow => []
  | v1 m => OriginalClientMessageV1.codec.enc m

def arm (t : UInt64) : Decoder OriginalClientMessage :=
  if t = 0 then pure toFollow else if t = 1 then v1 <$> OriginalClientMessageV1.codec.dec else fail

def wf : OriginalClientMessage → Prop
  | toFollow => False
  | v1 m => OriginalClientMessageV1.codec.wf m

def codec : Codec OriginalClientMessage := Codec.union tag body arm wf fun m h => by
  cases m with
  | toFollow => exact h.elim
  | v1 m => exact (OriginalClientMessageV1.codec.decodes m h).map v1

end OriginalClientMessage

/-- The closedown report as it was, with a reserved byte for what is now its extended data. -/
structure OriginalClosedownReportV1 where
  cwnd : UInt64
  sentPackets : UInt64
  lostPackets : UInt64
  lostBytes : UInt64
  congestionEvents : UInt64
  blackHoles : UInt64
  sentBytes : UInt64
  «extension» : UInt8

def OriginalClosedownReportV1.codec : Codec OriginalClosedownReportV1 :=
  (Codec.uint.pair (Codec.uint.pair (Codec.uint.pair (Codec.uint.pair (Codec.uint.pair (Codec.uint.pair
    (Codec.uint.pair Codec.u8))))))).iso
    (fun (cwnd, sentPackets, lostPackets, lostBytes, events, blackHoles, sentBytes, ext) =>
      ⟨cwnd, sentPackets, lostPackets, lostBytes, events, blackHoles, sentBytes, ext⟩)
    (fun r => (r.cwnd, r.sentPackets, r.lostPackets, r.lostBytes, r.congestionEvents, r.blackHoles, r.sentBytes,
      r.extension))
    fun _ => rfl

/-- The same fields, and a byte where the attributes were. -/
def ClientMessageV1.original (m : ClientMessageV1) (ext : UInt8) : OriginalClientMessageV1 where
  cert := m.cert
  connectionType := m.connectionType
  port := m.port
  showConfig := m.showConfig
  bandwidthToServer := m.bandwidthToServer
  bandwidthToClient := m.bandwidthToClient
  rtt := m.rtt
  congestion := m.congestion
  initialCongestionWindow := m.initialCongestionWindow
  timeout := m.timeout
  «extension» := ext

/-- The same fields, and no attributes. -/
def OriginalClientMessageV1.current (m : OriginalClientMessageV1) : ClientMessageV1 where
  cert := m.cert
  connectionType := m.connectionType
  port := m.port
  showConfig := m.showConfig
  bandwidthToServer := m.bandwidthToServer
  bandwidthToClient := m.bandwidthToClient
  rtt := m.rtt
  congestion := m.congestion
  initialCongestionWindow := m.initialCongestionWindow
  timeout := m.timeout
  attributes := []

def ClosedownReportV1.original (r : ClosedownReportV1) (ext : UInt8) : OriginalClosedownReportV1 :=
  ⟨r.cwnd, r.sentPackets, r.lostPackets, r.lostBytes, r.congestionEvents, r.blackHoles, r.sentBytes, ext⟩

def OriginalClosedownReportV1.current (r : OriginalClosedownReportV1) : ClosedownReportV1 :=
  ⟨r.cwnd, r.sentPackets, r.lostPackets, r.lostBytes, r.congestionEvents, r.blackHoles, r.sentBytes, []⟩

/-! ## Either reads the other -/

namespace ClientMessageV1

variable {m : ClientMessageV1}

/-- **An original peer reads a message of today**, up to its attributes. -/
theorem begins_original (h : codec.wf m) :
    ∃ ext, Begins OriginalClientMessageV1.codec.dec (codec.enc m) (m.original ext) := by
  obtain ⟨hcert, hconn, hport, hshow, hserver, hclient, hrtt, hcong, hicw, htimeout, -⟩ := h
  obtain ⟨b, hb⟩ := begins_of_list TaggedData.codec m.attributes
  refine ⟨b, ?_⟩
  have := Begins.pair hcert (Begins.pair hconn (Begins.pair hport (Begins.pair hshow (Begins.pair hserver
    (Begins.pair hclient (Begins.pair hrtt (Begins.pair hcong (Begins.pair hicw (Begins.pair htimeout hb)))))))))
  exact this.map _

end ClientMessageV1

namespace OriginalClientMessageV1

variable {m : OriginalClientMessageV1}

/-- With no extension, it looks the same on the wire. -/
theorem enc_current (h : m.extension = 0) : ClientMessageV1.codec.enc m.current = codec.enc m := by
  obtain ⟨cert, connectionType, port, showConfig, toServer, toClient, rtt, congestion, icw, timeout, ext⟩ := m
  cases h
  rfl

theorem wf_current (h : codec.wf m) : ClientMessageV1.codec.wf m.current := by
  obtain ⟨hcert, hconn, hport, hshow, hserver, hclient, hrtt, hcong, hicw, htimeout, -⟩ := h
  exact ⟨hcert, hconn, hport, hshow, hserver, hclient, hrtt, hcong, hicw, htimeout, Nat.two_pow_pos 64,
    fun _ ha => absurd ha List.not_mem_nil⟩

end OriginalClientMessageV1

theorem ClosedownReportV1.begins_original {r : ClosedownReportV1} :
    ∃ ext, Begins OriginalClosedownReportV1.codec.dec (codec.enc r) (r.original ext) := by
  obtain ⟨b, hb⟩ := begins_of_list TaggedData.codec r.extension
  have h : ∀ n : UInt64, Codec.uint.wf n := fun _ => trivial
  have := Begins.pair (h r.cwnd) (Begins.pair (h r.sentPackets) (Begins.pair (h r.lostPackets) (Begins.pair
    (h r.lostBytes) (Begins.pair (h r.congestionEvents)
    (Begins.pair (h r.blackHoles) (Begins.pair (h r.sentBytes) hb))))))
  exact ⟨b, this.map _⟩

theorem OriginalClosedownReportV1.enc_current {r : OriginalClosedownReportV1} (h : r.extension = 0) :
    ClosedownReportV1.codec.enc r.current = codec.enc r := by
  obtain ⟨cwnd, sentPackets, lostPackets, lostBytes, events, blackHoles, sentBytes, ext⟩ := r
  cases h
  rfl

theorem OriginalClosedownReportV1.wf_current {r : OriginalClosedownReportV1} : ClosedownReportV1.codec.wf r.current :=
  ⟨trivial, trivial, trivial, trivial, trivial, trivial, trivial, Nat.two_pow_pos 64, fun _ ha =>
    absurd ha List.not_mem_nil⟩

/-- **Either layout reads the other**: the original one reads every message of today, and today's reads every original
message that has no extension. -/
theorem extension_compatible :
    (∀ m : ClientMessageV1, ClientMessageV1.codec.wf m → ∃ ext,
      OriginalClientMessageV1.codec.decode (ClientMessageV1.codec.enc m) = some (m.original ext) ∧
      OriginalClientMessage.codec.decode (ClientMessage.codec.enc (.v1 m)) = some (.v1 (m.original ext))) ∧
    (∀ m : OriginalClientMessageV1, OriginalClientMessageV1.codec.wf m → m.extension = 0 →
      ClientMessageV1.codec.decode (OriginalClientMessageV1.codec.enc m) = some m.current ∧
      ClientMessage.codec.decode (OriginalClientMessage.codec.enc (.v1 m)) = some (.v1 m.current)) ∧
    (∀ r : ClosedownReportV1, ∃ ext,
      OriginalClosedownReportV1.codec.decode (ClosedownReportV1.codec.enc r) = some (r.original ext)) ∧
    (∀ r : OriginalClosedownReportV1, r.extension = 0 →
      ClosedownReportV1.codec.decode (OriginalClosedownReportV1.codec.enc r) = some r.current) := by
  refine ⟨fun m h => ?_, fun m h h0 => ?_, fun r => ?_, fun r h0 => ?_⟩
  · obtain ⟨b, hb⟩ := ClientMessageV1.begins_original h
    have harm : Begins (OriginalClientMessage.arm 1) (ClientMessageV1.codec.enc m) (.v1 (m.original b)) :=
      hb.map OriginalClientMessage.v1
    exact ⟨b, hb.decode, (harm.arm 1).decode⟩
  · have hw := OriginalClientMessageV1.wf_current h
    have he := OriginalClientMessageV1.enc_current h0
    refine ⟨by rw [← he]; exact ClientMessageV1.codec.decode_enc _ hw, ?_⟩
    have hm : OriginalClientMessage.codec.enc (.v1 m) = ClientMessage.codec.enc (.v1 m.current) :=
      congrArg (Codec.uint.enc 1 ++ ·) he.symm
    rw [hm]
    exact ClientMessage.codec.decode_enc _ hw
  · obtain ⟨b, hb⟩ := ClosedownReportV1.begins_original (r := r)
    exact ⟨b, hb.decode⟩
  · rw [← OriginalClosedownReportV1.enc_current h0]
    exact ClosedownReportV1.codec.decode_enc _ OriginalClosedownReportV1.wf_current

end Qcp
