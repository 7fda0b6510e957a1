import Qcp.Closedown
import Qcp.Wire
/-!
# Messages — every type that is framed, and its round trip

A `ProtocolMessage` is a message type with the variants that are never sent.  `MessageType` lists those of the two
protocols.  `wire_round_trip` says that what `toVec` writes is read back whatever follows, so that no message begins
with another, and that only the placeholders are not written.
-/
namespace Qcp

open Bare (Bytes Text Codec)

/-- The frame's header. -/
structure MessageHeader where
  size : UInt32
deriving DecidableEq, Repr

def MessageHeader.codec : Codec MessageHeader := Codec.u32.iso MessageHeader.mk MessageHeader.size fun _ => rfl

/-- A message type, and why those of its values that are never sent cannot be. -/
structure ProtocolMessage (α : Type) extends Frame.Wire α where
  skipped : α → Option Text

namespace ProtocolMessage

variable {α : Type} (P : ProtocolMessage α)

def toVec (a : α) : Except Text Bytes :=
  match P.skipped a with
  | some e => .error e
  | none => .ok (P.codec.enc a)

def fromSlice (bs : Bytes) : Option α := P.codec.decode bs

/-- **What every value in memory has**, unless it is never sent: lengths that fit a word, and maps in key order. -/
def InMemory (a : α) : Prop := P.skipped a = none → P.codec.wf a

variable {P} {a b : α} {bs cs : Bytes}

theorem toVec_ok (h : P.toVec a = .ok bs) : P.skipped a = none ∧ bs = P.codec.enc a := by
  unfold toVec at h
  split at h
  · cases h
  · rename_i hs
    cases h
    exact ⟨hs, rfl⟩

theorem toVec_fails_iff : (∃ e, P.toVec a = .error e) ↔ (P.skipped a).isSome = true := by
  unfold toVec
  cases P.skipped a <;> simp

/-- **A message is read back, whatever follows it.** -/
theorem dec_toVec (ha : P.InMemory a) (h : P.toVec a = .ok bs) (rest : Bytes) :
    P.codec.dec (bs ++ rest) = some (a, rest) := by
  obtain ⟨hs, rfl⟩ := toVec_ok h
  exact P.codec.decodes a (ha hs) rest

theorem fromSlice_toVec (ha : P.InMemory a) (h : P.toVec a = .ok bs) : P.fromSlice bs = some a := by
  have := dec_toVec ha h []
  rw [List.append_nil] at this
  rw [fromSlice, Codec.decode, this]
  rfl

/-- **No message begins with another.** -/
theorem eq_of_prefix (ha : P.InMemory a) (hb : P.InMemory b) (h : P.toVec a = .ok bs) (h' : P.toVec b = .ok cs)
    (hp : bs <+: cs) : a = b := by
  obtain ⟨t, rfl⟩ := hp
  have h1 := dec_toVec ha h t
  have h2 := dec_toVec hb h' []
  rw [List.append_nil] at h2
  exact (Prod.mk.inj (Option.some.inj (h1.symm.trans h2))).1

end ProtocolMessage

/-! ## The messages -/

/-- A type all of whose values are sent. -/
def ProtocolMessage.always {α : Type} (w : Frame.Wire α) : ProtocolMessage α := ⟨w, fun _ => none⟩

def ClientMessage.protocol : ProtocolMessage ClientMessage where
  toWire := form.toWire
  skipped
    | toFollow => some "the enum variant ClientMessage::ToFollow cannot be serialized".toList
    | _ => none

theorem wireEncodingLimit_lt : wireEncodingLimit < 2 ^ 32 := by decide

def ServerMessage.protocol : ProtocolMessage ServerMessage where
  toWire := form.toWire
  skipped
    | toFollow => some "the enum variant ServerMessage::ToFollow cannot be serialized".toList
    | _ => none

def ClosedownReport.protocol : ProtocolMessage ClosedownReport where
  codec := codec
  limit := wireEncodingLimit
  limit_lt := wireEncodingLimit_lt
  skipped
    | unknown => some "the enum variant ClosedownReport::Unknown cannot be serialized".toList
    | _ => none

inductive MessageType where
  | messageHeader
  | clientGreeting
  | serverGreeting
  | clientMessage
  | serverMessage
  | closedownReport
  | command
  | response
  | listData
  | listEntry
  | fileHeader
  | fileTrailer
deriving DecidableEq, Repr

namespace MessageType

@[reducible] def Value : MessageType → Type
  | messageHeader => MessageHeader
  | clientGreeting => ClientGreeting
  | serverGreeting => ServerGreeting
  | clientMessage => ClientMessage
  | serverMessage => ServerMessage
  | closedownReport => ClosedownReport
  | command => Command
  | response => Response
  | listData => ListData
  | listEntry => ListEntry
  | fileHeader => FileHeader
  | fileTrailer => FileTrailer

def protocol : (k : MessageType) → ProtocolMessage k.Value
  | messageHeader => .always ⟨MessageHeader.codec, wireEncodingLimit, wireEncodingLimit_lt⟩
  | clientGreeting => .always ClientGreeting.form.toWire
  | serverGreeting => .always ServerGreeting.form.toWire
  | clientMessage => ClientMessage.protocol
  | serverMessage => ServerMessage.protocol
  | closedownReport => ClosedownReport.protocol
  | command => .always Command.form.toWire
  | response => .always Response.form.toWire
  | listData => .always ListData.form.toWire
  | listEntry => .always ⟨ListEntry.codec, wireEncodingLimit, wireEncodingLimit_lt⟩
  | fileHeader => .always FileHeader.form.toWire
  | fileTrailer => .always FileTrailer.form.toWire

/-- The values that stand for a message that is yet to come, or is not known. -/
def Placeholder : (k : MessageType) → k.Value → Prop
  | clientMessage, m => m = .toFollow
  | serverMessage, m => m = .toFollow
  | closedownReport, m => m = .unknown
  | _, _ => False

/-- **Placeholders do not encode, and all else does.** -/
theorem toVec_error_iff (k : MessageType) (m : k.Value) : (∃ e, k.protocol.toVec m = .error e) ↔ k.Placeholder m := by
  rw [ProtocolMessage.toVec_fails_iff]
  cases k with
  | clientMessage => cases m <;> simp [protocol, ClientMessage.protocol, Placeholder]
  | serverMessage => cases m <;> simp [protocol, ServerMessage.protocol, Placeholder]
  | closedownReport => cases m <;> simp [protocol, ClosedownReport.protocol, Placeholder]
  | _ => exact iff_of_false Bool.false_ne_true id

end MessageType

/-- **Every message is read back from its encoding, whatever follows it**, and no encoding begins with another. -/
theorem wire_round_trip (k : MessageType) (m : k.Value) (hm : k.protocol.InMemory m) :
    ((∃ e, k.protocol.toVec m = .error e) ↔ k.Placeholder m) ∧
      ∀ bs, k.protocol.toVec m = .ok bs →
        (∀ rest, k.protocol.codec.dec (bs ++ rest) = some (m, rest)) ∧ k.protocol.fromSlice bs = some m ∧
        ∀ (m' : k.Value) (bs' : Bytes), k.protocol.InMemory m' → k.protocol.toVec m' = .ok bs' → bs <+: bs' →
        m = m' := by
  refine ⟨k.toVec_error_iff m, fun bs hbs => ?_⟩
  refine ⟨ProtocolMessage.dec_toVec hm hbs, ProtocolMessage.fromSlice_toVec hm hbs, ?_⟩
  exact fun m' bs' hm' hbs' hp => ProtocolMessage.eq_of_prefix hm hm' hbs hbs' hp

/-- A header with attributes that nest, of a kind no build knows. -/
def nestedHeader : FileHeader :=
  .v2 ⟨300, "f".toList, [⟨99, .list [.map [("a".toList, .signed (-3)), ("b".toList, .list [])], .string "x".toList]⟩]⟩

theorem wire_round_trip_nested :
    ((∃ e, MessageType.fileHeader.protocol.toVec nestedHeader = .error e) ↔
    MessageType.fileHeader.Placeholder nestedHeader) ∧
      ∀ bs, MessageType.fileHeader.protocol.toVec nestedHeader = .ok bs →
        (∀ rest, MessageType.fileHeader.protocol.codec.dec (bs ++ rest) = some (nestedHeader, rest)) ∧
        MessageType.fileHeader.protocol.fromSlice bs = some nestedHeader ∧
        ∀ (m' : MessageType.fileHeader.Value) (bs' : Bytes), MessageType.fileHeader.protocol.InMemory m' →
          MessageType.fileHeader.protocol.toVec m' = .ok bs' → bs <+: bs' → nestedHeader = m' := by
  have hname : (Codec.encText "f".toList).length < 2 ^ 64 := by decide
  have hcount : nestedHeader.toV2.metadata.length < 2 ^ 64 := by decide
  refine wire_round_trip .fileHeader nestedHeader fun _ => ⟨trivial, hname, hcount, ?_⟩
  · intro t ht
    rw [List.mem_singleton.1 ht]
    refine ⟨trivial, ?_⟩
    show Variant.wf _
    simp [Variant.wf, Variant.wfList, Variant.wfMap, Codec.text, Codec.encText]
    decide

end Qcp
