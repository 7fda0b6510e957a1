import Qcp.Feed
import Qcp.Messages
/-!
# Framed — messages written to a stream and read back

`toWriterFramed` and `fromReaderFramed`, on bytes and as tasks on a stream of bytes.  `framing` says that a message that
is not too long is written as one frame and read back as it was, with nothing more read, and one that is too long not
at all; so that messages of any types, written one after the other, are read one by one (`DecodesBack`).
`oversized_completes_iff` says when the refusal of a frame that is too long is not waited for.
-/

namespace Proc

open Bare (Bytes Codec)
open Frame (Wire RecvError frame frameSize recv)

variable {S : Sig} {E A : Type} {s : Local S} {Q : Except E A → Local S → Inbound S.Fault → Prop} {w : Wire A}
  {err : RecvError S.Fault → E} {bs rest hdr : Bytes} {e : Ending S.Fault}

/-- **A frame is read back**, and nothing of what follows it. -/
theorem Completes.recv {a : A} (hs : s.recvLost = false) (hl : bs.length ≤ w.limit) (hd : w.codec.decode bs = some a)
    (h : ∀ s', s'.recvLost = false → Q (.ok a) s' ⟨rest, e⟩) :
    Completes Q ((recv err w, s), ⟨frame bs ++ rest, e⟩) := by
  have hsize : frameSize (Codec.encLe 4 bs.length) = bs.length := frameSize_encLe w hl
  rw [frame, List.append_assoc]
  refine Completes.then (Completes.read hs (Codec.encLe_length 4 _) ?_)
  simp only [hsize]
  rw [if_neg (by omega)]
  refine Completes.then (Completes.read hs rfl ?_)
  simp only [hd]
  exact .ret _ _ _ (h _ hs)

/-- **A frame that is too long is refused** once there is another byte, or the end of the stream. -/
theorem Completes.recv_tooLong (hs : s.recvLost = false) (hh : hdr.length = 4) (hbig : w.limit < frameSize hdr)
    (hr : rest ≠ [] ∨ e ≠ .open) (h : ∀ s i, Q (.error (err (.tooLong (frameSize hdr)))) s i) :
    Completes Q ((Frame.recv err w, s), ⟨hdr ++ rest, e⟩) := by
  refine Completes.then (Completes.read hs hh ?_)
  simp only
  rw [if_pos hbig]
  refine Completes.then (Completes.fill hs (by decide) hr fun r s i => ?_)
  exact .ret _ _ _ (h _ _)

theorem Completes.of_read {B : Type} {R : Except E B → Local S → Inbound S.Fault → Prop}
    {f : Except S.Fault Bytes → Task S E B} (hs : s.recvLost = false)
    (h : Completes R (((Task.read hdr.length >>= f : Task S E B), s), ⟨hdr ++ rest, e⟩)) :
    Completes R ((f (.ok hdr), s.push (.took hdr)), ⟨rest, e⟩) :=
  h.of_step (.read _ s hdr rest e hs)

/-- **Without another byte, the refusal waits for one.** -/
theorem not_completes_recv (hs : s.recvLost = false) (hh : hdr.length = 4) (hbig : w.limit < frameSize hdr) :
    ¬ Completes Q ((Frame.recv err w, s), ⟨hdr, .open⟩) := by
  intro h
  rw [← List.append_nil hdr] at h
  unfold Frame.recv at h
  rw [← hh] at h
  have hread := Completes.of_read hs h
  simp only at hread
  rw [if_pos hbig] at hread
  exact hread.not_waits (waits_fill (by decide))

end Proc

namespace Qcp

open Bare (Bytes Text Codec)
open Proc (Sig Task Local Completes Ending Inbound)
open Frame (frame frameSize RecvError)

inductive FramedError where
  | encode (text : Text)
  | tooLong (size limit : Nat)
  | io (e : IoError)
  | recv (e : RecvError IoError)

/-- A stream of bytes by itself. -/
@[reducible] def byteSig : Sig := ⟨Bytes, id, IoError, Empty, Empty.elim, Unit, fun _ op _ _ => op.elim⟩

/-- So many bytes off the front of what there is. -/
def readExact (n : Nat) (input : Bytes) : Except IoError Bytes × Bytes :=
  if n ≤ input.length then (.ok (input.take n), input.drop n)
  else (.error ⟨.unexpectedEof, "failed to fill whole buffer".toList⟩, [])

theorem readExact_append (bs rest : Bytes) : readExact bs.length (bs ++ rest) = (.ok bs, rest) := by
  unfold readExact
  rw [if_pos (by rw [List.length_append]; omega), List.take_left, List.drop_left]

def ofExcept {ε α : Type} (wrap : ε → FramedError) : Except ε α → Task byteSig FramedError α
  | .ok a => pure a
  | .error e => Task.fail (wrap e)

namespace ProtocolMessage

variable {α : Type} (P : ProtocolMessage α)

/-- Writes a frame, which is what is returned. -/
def toWriterFramed (m : α) : Except FramedError Unit × Bytes :=
  match P.toVec m with
  | .error e => (.error (.encode e), [])
  | .ok vec =>
    if vec.length ≤ P.limit then (.ok (), MessageHeader.codec.enc ⟨UInt32.ofNat vec.length⟩ ++ vec)
    else (.error (.tooLong vec.length P.limit), [])

def toWriterAsyncFramed (m : α) : Task byteSig FramedError Unit := do
  let vec ← ofExcept .encode (P.toVec m)
  if vec.length ≤ P.limit then
    ofExcept .io (← Task.send (S := byteSig) (MessageHeader.codec.enc ⟨UInt32.ofNat vec.length⟩))
    ofExcept .io (← Task.send (S := byteSig) vec)
  else Task.fail (.tooLong vec.length P.limit)

/-- Reads a value from so many bytes; what is left is returned with it. -/
def fromReader (size : Nat) (input : Bytes) : Except FramedError α × Bytes :=
  match readExact size input with
  | (.error e, rest) => (.error (.recv (.short e)), rest)
  | (.ok buffer, rest) =>
    match P.fromSlice buffer with
    | none => (.error (.recv .malformed), rest)
    | some a => (.ok a, rest)

def fromReaderFramed (input : Bytes) : Except FramedError α × Bytes :=
  match MessageType.messageHeader.protocol.fromReader 4 input with
  | (.error e, rest) => (.error e, rest)
  | (.ok header, rest) =>
    if header.size.toNat ≤ P.limit then P.fromReader header.size.toNat rest
    else (.error (.recv (.tooLong header.size.toNat)), rest)

def fromReaderAsyncFramed : Task byteSig FramedError α := Frame.recv .recv P.toWire

end ProtocolMessage

/-! ## One frame -/

section OneFrame

variable {α : Type} {P : ProtocolMessage α} {m : α} {vec hdr rest : Bytes}

theorem header_enc {n : Nat} (h : n < 2 ^ 32) : MessageHeader.codec.enc ⟨UInt32.ofNat n⟩ = Codec.encLe 4 n := by
  show Codec.encLe 4 (UInt32.ofNat n).toNat = _
  rw [UInt32.toNat_ofNat_of_lt' h]

/-- Any four bytes are a header. -/
theorem header_fromReader (hh : hdr.length = 4) :
    MessageType.messageHeader.protocol.fromReader 4 (hdr ++ rest) = (.ok ⟨UInt32.ofNat (frameSize hdr)⟩, rest) := by
  obtain ⟨n, hd, -⟩ := Frame.encLe_decLe 4 hdr hh
  have hn : frameSize hdr = n := by rw [frameSize, hd]; rfl
  have hdec : MessageType.messageHeader.protocol.fromSlice hdr = some ⟨UInt32.ofNat n⟩ := by
    show ((MessageHeader.codec.dec hdr).map Prod.fst) = _
    show (((Codec.decLe 4 hdr).bind fun r => some (UInt32.ofNat r.1, r.2)).bind fun r =>
      some (MessageHeader.mk r.1, r.2)).map Prod.fst = _
    rw [hd]
    rfl
  unfold ProtocolMessage.fromReader
  rw [← hh, readExact_append]
  simp only [hdec, hn]

theorem decLe_lt : ∀ (k : Nat) {bs rest : Bytes} {n : Nat}, Codec.decLe k bs = some (n, rest) → n < 256 ^ k
  | 0, _, _, _, h => by cases h; exact Nat.one_pos
  | k + 1, [], _, _, h => by cases h
  | k + 1, b :: bs, rest, n, h => by
    obtain ⟨⟨q, rest'⟩, hq, hn⟩ := Option.bind_eq_some_iff.1 (show (Codec.decLe k bs).bind _ = _ from h)
    cases hn
    have := decLe_lt k hq
    have := b.toNat_lt
    rw [Nat.pow_succ]
    omega

theorem frameSize_lt (hh : hdr.length = 4) : frameSize hdr < 2 ^ 32 := by
  obtain ⟨n, hd, -⟩ := Frame.encLe_decLe 4 hdr hh
  have hn : frameSize hdr = n := by rw [frameSize, hd]; rfl
  have := decLe_lt 4 hd
  omega

end OneFrame

/-! ## Written and read -/

/-- **What becomes of a message that is not too long**: written as a frame, and read back from the front of a stream. -/
structure Framed {α : Type} (P : ProtocolMessage α) (m : α) (vec : Bytes) : Prop where
  length : (frame vec).length = 4 + vec.length
  written : P.toWriterFramed m = (.ok (), frame vec)
  writtenAsync : ∀ (s : Local byteSig) (i : Inbound IoError), s.sendLost = false →
    Completes (fun r s' i' => r = .ok () ∧ s'.out = s.out ++ frame vec ∧ i' = i) ((P.toWriterAsyncFramed m, s), i)
  read : ∀ rest, P.fromReaderFramed (frame vec ++ rest) = (.ok m, rest)
  readAsync : ∀ (rest : Bytes) (ending : Ending IoError) (s : Local byteSig), s.recvLost = false →
    Completes (fun r s' i => r = .ok m ∧ s'.recvLost = false ∧ i = ⟨rest, ending⟩)
      ((P.fromReaderAsyncFramed, s), ⟨frame vec ++ rest, ending⟩)

/-- **A message that is too long is not written.** -/
structure OverLimit {α : Type} (P : ProtocolMessage α) (m : α) : Prop where
  written : ∃ e, P.toWriterFramed m = (.error e, [])
  writtenAsync : ∀ (s : Local byteSig) (i : Inbound IoError),
    Completes (fun r s' i' => (∃ e, r = .error e) ∧ s' = s ∧ i' = i) ((P.toWriterAsyncFramed m, s), i)

section Framing

variable {α : Type} {P : ProtocolMessage α} {m : α} {vec : Bytes}

theorem framed_of_le (hm : P.InMemory m) (hv : P.toVec m = .ok vec) (hl : vec.length ≤ P.limit) : Framed P m vec where
  length := Frame.frame_length vec
  written := by
    unfold ProtocolMessage.toWriterFramed
    simp only [hv]
    rw [if_pos hl, header_enc (Nat.lt_of_le_of_lt hl P.limit_lt)]
    rfl
  writtenAsync s i hs := by
    unfold ProtocolMessage.toWriterAsyncFramed
    rw [hv]
    refine Completes.then (.ret _ _ _ ?_)
    simp only
    rw [if_pos hl, header_enc (Nat.lt_of_le_of_lt hl P.limit_lt)]
    refine Completes.then (Completes.send hs ?_)
    refine Completes.then (.ret _ _ _ ?_)
    refine Completes.then (Completes.send hs ?_)
    refine .ret _ _ _ ⟨rfl, ?_, rfl⟩
    simp [frame, Proc.Event.wrote]
  read rest := by
    unfold ProtocolMessage.fromReaderFramed
    rw [frame, List.append_assoc, header_fromReader (Codec.encLe_length 4 _)]
    simp only [Proc.frameSize_encLe P.toWire hl, UInt32.toNat_ofNat_of_lt' (Nat.lt_of_le_of_lt hl P.limit_lt)]
    rw [if_pos hl]
    unfold ProtocolMessage.fromReader
    rw [readExact_append]
    simp only [ProtocolMessage.fromSlice_toVec hm hv]
  readAsync rest ending s hs := by
    refine Completes.recv hs hl ?_ fun s' hs' => ⟨rfl, hs', rfl⟩
    exact ProtocolMessage.fromSlice_toVec hm hv

theorem overLimit_of_lt (hv : P.toVec m = .ok vec) (hl : P.limit < vec.length) : OverLimit P m where
  written := by
    unfold ProtocolMessage.toWriterFramed
    simp only [hv]
    rw [if_neg (by omega)]
    exact ⟨_, rfl⟩
  writtenAsync s i := by
    unfold ProtocolMessage.toWriterAsyncFramed
    rw [hv]
    refine Completes.then (.ret _ _ _ ?_)
    simp only
    rw [if_neg (by omega)]
    exact .ret _ _ _ ⟨⟨_, rfl⟩, rfl, rfl⟩

/-- **A frame that is too long is refused**, and its header is all that was read of it. -/
theorem fromReaderFramed_tooLong {hdr : Bytes} (rest : Bytes) (hh : hdr.length = 4) (hbig : P.limit < frameSize hdr) :
    P.fromReaderFramed (hdr ++ rest) = (.error (.recv (.tooLong (frameSize hdr))), rest) := by
  unfold ProtocolMessage.fromReaderFramed
  rw [header_fromReader hh]
  simp only [UInt32.toNat_ofNat_of_lt' (frameSize_lt hh)]
  rw [if_neg (by omega)]

end Framing

/-! ## Messages of any types -/

/-- A message, with its type. -/
structure Packet where
  type : Type
  protocol : ProtocolMessage type
  message : type

namespace Packet

/-- What is in memory, can be sent and is not too long. -/
def Sendable (p : Packet) : Prop :=
  p.protocol.InMemory p.message ∧ ∃ vec, p.protocol.toVec p.message = .ok vec ∧ vec.length ≤ p.protocol.limit

/-- What is written for it. -/
def written (p : Packet) : Bytes := (p.protocol.toWriterFramed p.message).2

end Packet

/-- **These messages are read one by one**, and this is left. -/
def DecodesBack : List Packet → Bytes → Bytes → Prop
  | [], input, rest => input = rest
  | p :: ps, input, rest => ∃ mid, p.protocol.fromReaderFramed input = (.ok p.message, mid) ∧
    (∀ (ending : Ending IoError) (s : Local byteSig), s.recvLost = false →
      Completes (fun r s' i => r = .ok p.message ∧ s'.recvLost = false ∧ i = ⟨mid, ending⟩)
        ((p.protocol.fromReaderAsyncFramed, s), ⟨input, ending⟩)) ∧
    DecodesBack ps mid rest

theorem decodesBack_written : ∀ (ps : List Packet) (rest : Bytes), (∀ p ∈ ps, p.Sendable) →
    DecodesBack ps (ps.flatMap Packet.written ++ rest) rest
  | [], _, _ => rfl
  | p :: ps, rest, h => by
    obtain ⟨hm, vec, hv, hl⟩ := h p List.mem_cons_self
    have hf := framed_of_le hm hv hl
    have hw : p.written = frame vec := congrArg Prod.snd hf.written
    rw [List.flatMap_cons, List.append_assoc, hw]
    exact ⟨_, hf.read _, fun ending s hs => hf.readAsync _ ending s hs,
      decodesBack_written ps rest fun q hq => h q (List.mem_cons_of_mem p hq)⟩

/-- **Framing**: messages of any types are written and read back one by one; what is too long is neither written nor
read. -/
theorem framing :
    (∀ (α : Type) (P : ProtocolMessage α) (m : α) (vec : Bytes), P.InMemory m → P.toVec m = .ok vec →
      (vec.length ≤ P.limit → Framed P m vec) ∧ (P.limit < vec.length → OverLimit P m)) ∧
    (∀ (α : Type) (P : ProtocolMessage α) (hdr rest : Bytes), hdr.length = 4 → P.limit < frameSize hdr →
      P.fromReaderFramed (hdr ++ rest) = (.error (.recv (.tooLong (frameSize hdr))), rest)) ∧
    ∀ (ps : List Packet) (rest : Bytes), (∀ p ∈ ps, p.Sendable) →
      DecodesBack ps (ps.flatMap Packet.written ++ rest) rest := by
  refine ⟨fun α P m vec hm hv => ⟨framed_of_le hm hv, overLimit_of_lt hv⟩, fun α P hdr rest hh hbig => ?_, ?_⟩
  · exact fromReaderFramed_tooLong rest hh hbig
  · exact decodesBack_written

/-! ## Frames that are too long -/

/-- **The refusal of a frame that is too long is not waited for exactly when** there is another byte to be read, or the
stream has come to its end. -/
theorem oversized_completes_iff {α : Type} (P : ProtocolMessage α) (hdr more : Bytes) (ending : Ending IoError)
    (s : Local byteSig) (hs : s.recvLost = false) (hh : hdr.length = 4) (hbig : P.limit < frameSize hdr) :
    Completes (fun r _ _ => ∃ e, r = .error e) ((P.fromReaderAsyncFramed, s), ⟨hdr ++ more, ending⟩) ↔
      more ≠ [] ∨ ending ≠ .open := by
  constructor
  · intro h
    by_contra hno
    rw [not_or, not_not, not_not] at hno
    obtain ⟨rfl, rfl⟩ := hno
    rw [List.append_nil] at h
    exact Proc.not_completes_recv hs hh hbig h
  · intro h
    exact Completes.recv_tooLong hs hh hbig h fun _ _ => ⟨_, rfl⟩

theorem oversized_completes_iff_open :
    Completes (fun r _ _ => ∃ e, r = .error e)
      ((ServerMessage.protocol.fromReaderAsyncFramed, Local.init ()), ⟨[255, 255, 255, 255] ++ [10], .open⟩) ↔
      ([10] : Bytes) ≠ [] ∨ (Ending.open : Ending IoError) ≠ .open :=
  oversized_completes_iff ServerMessage.protocol [255, 255, 255, 255] [10] .open (Local.init ()) rfl rfl (by decide)

/-- **A client that reads the header of an oversized frame hangs** while the server keeps the stream open. -/
theorem oversized_hangs : ¬ ∀ (P : ProtocolMessage ServerMessage) (hdr : Bytes) (ending : Ending IoError)
    (s : Local byteSig), s.recvLost = false → hdr.length = 4 → P.limit < frameSize hdr →
    Completes (fun r _ _ => ∃ e, r = .error e) ((P.fromReaderAsyncFramed, s), ⟨hdr, ending⟩) := by
  intro h
  have hbig : ServerMessage.protocol.limit < frameSize [255, 255, 255, 255] := by decide
  exact Proc.not_completes_recv rfl rfl hbig
    (h ServerMessage.protocol [255, 255, 255, 255] .open (Local.init ()) rfl rfl hbig)

end Qcp
