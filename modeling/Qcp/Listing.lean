import Qcp.Framed
import Qcp.Requests
import Qcp.While
/-!
# Listing — how a listing is split, and put together again

`SplitsTo` is `split_by_size` with its loops as they are, so that it may come to nothing; where it comes to something,
that is what `splitBySize` gives (`splitsTo_ok_iff`).  An entry that does not fit a packet is put back in every round,
and the loop does not end: `split_ends_iff`.  Of a listing whose entries fit, `split_rebuilds` says what the packets
are, and that a client puts the listing together again from them.
-/
namespace Qcp

open Bare (Bytes Text Codec)
open Proc (Task Local Completes Ending)
open Frame (frame)
open While (Runs)

def ProtocolMessage.encodedSize {α : Type} (P : ProtocolMessage α) (a : α) : Except Text Nat :=
  (P.toVec a).map List.length

namespace ListData

/-- What the outer loop goes on with. -/
structure Splitting where
  input : List ListEntry
  result : List ListData

/-- A round of the outer loop: the entries that fit a packet go into one. -/
def splitRound (maxSize : Nat) (s : Splitting) : Splitting :=
  let (fitting, left) := takeFitting maxSize baseSize s.input
  ⟨left, s.result ++ [⟨fitting, !left.isEmpty⟩]⟩

/-- **What a split comes to**, if it comes to an end. -/
def SplitsTo (l : ListData) (maxSize : Nat) (r : Except Text (List ListData)) : Prop :=
  match MessageType.listData.protocol.encodedSize l with
  | .error e => r = .error e
  | .ok size =>
    if size ≤ maxSize then r = .ok [l]
    else ∃ s, Runs (fun s => s.input ≠ []) (splitRound maxSize) ⟨l.entries, []⟩ s ∧ r = .ok s.result

variable {maxSize : Nat}

theorem splitsTo_of_le {l : ListData} {r : Except Text (List ListData)} (h : (codec.enc l).length ≤ maxSize) :
    l.SplitsTo maxSize r ↔ r = .ok [l] := by
  show (if (codec.enc l).length ≤ maxSize then _ else _) ↔ _
  rw [if_pos h]

theorem splitsTo_of_lt {l : ListData} {r : Except Text (List ListData)} (h : maxSize < (codec.enc l).length) :
    l.SplitsTo maxSize r ↔
      ∃ s, Runs (fun s => s.input ≠ []) (splitRound maxSize) ⟨l.entries, []⟩ s ∧ r = .ok s.result := by
  show (if (codec.enc l).length ≤ maxSize then _ else _) ↔ _
  rw [if_neg (by omega)]

/-- Nothing goes wrong but that a split does not end. -/
theorem exists_ok_of_splitsTo {l : ListData} {r : Except Text (List ListData)} (h : l.SplitsTo maxSize r) :
    ∃ ps, r = .ok ps := by
  by_cases hle : (codec.enc l).length ≤ maxSize
  · exact ⟨_, (splitsTo_of_le hle).1 h⟩
  · obtain ⟨s, -, hs⟩ := (splitsTo_of_lt (Nat.lt_of_not_le hle)).1 h
    exact ⟨_, hs⟩

/-! ## Rounds -/

theorem baseSize_eq : baseSize = 9 := by decide

/-- A packet grows while there is room for it. -/
theorem takeFitting_le : ∀ (size : Nat) (es : List ListEntry), size ≤ maxSize →
    size + ((takeFitting maxSize size es).1.flatMap ListEntry.codec.enc).length ≤ maxSize
  | size, [], h => h
  | size, e :: es, h => by
    unfold takeFitting
    by_cases hbig : size + (ListEntry.codec.enc e).length > maxSize
    · rw [if_pos hbig]
      exact h
    · rw [if_neg hbig]
      have ih := takeFitting_le (size + (ListEntry.codec.enc e).length) es (by omega)
      simp only [List.flatMap_cons, List.length_append]
      omega

/-- **An entry that is too big is left.** -/
theorem mem_takeFitting_of_lt {e : ListEntry} : ∀ (size : Nat) (es : List ListEntry), e ∈ es →
    maxSize < size + (ListEntry.codec.enc e).length → e ∈ (takeFitting maxSize size es).2
  | size, x :: es, he, h => by
    unfold takeFitting
    by_cases hbig : size + (ListEntry.codec.enc x).length > maxSize
    · rw [if_pos hbig]
      exact he
    · rw [if_neg hbig]
      rcases List.mem_cons.1 he with rfl | he
      · omega
      · exact mem_takeFitting_of_lt _ es he (by omega)

theorem mem_of_mem_takeFitting {e : ListEntry} {size : Nat} {es : List ListEntry}
    (h : e ∈ (takeFitting maxSize size es).2) : e ∈ es := by
  rw [← takeFitting_append maxSize size es]
  exact List.mem_append_right _ h

/-- An entry that fits by itself is taken. -/
theorem length_takeFitting_lt {e : ListEntry} {es : List ListEntry} {size : Nat}
    (h : size + (ListEntry.codec.enc e).length ≤ maxSize) :
    (takeFitting maxSize size (e :: es)).2.length < (e :: es).length := by
  have happ := congrArg List.length (takeFitting_append maxSize (size + (ListEntry.codec.enc e).length) es)
  rw [List.length_append] at happ
  unfold takeFitting
  rw [if_neg (by omega)]
  simp only [List.length_cons]
  omega

/-- **The loop ends** when every entry fits. -/
theorem runs_of_fit {es : List ListEntry} (acc : List ListData)
    (h : ∀ e ∈ es, (ListEntry.codec.enc e).length + baseSize ≤ maxSize) :
    ∃ s, Runs (fun s : Splitting => s.input ≠ []) (splitRound maxSize) ⟨es, acc⟩ s := by
  have hround : ∀ s : Splitting, (∀ e ∈ s.input, (ListEntry.codec.enc e).length + baseSize ≤ maxSize) → s.input ≠ [] →
      (∀ e ∈ (splitRound maxSize s).input, (ListEntry.codec.enc e).length + baseSize ≤ maxSize) ∧
        (splitRound maxSize s).input.length < s.input.length := by
    intro s hs ha
    refine ⟨fun e he => hs e (mem_of_mem_takeFitting he), ?_⟩
    obtain ⟨_ | ⟨e, es⟩, acc⟩ := s
    · exact absurd rfl ha
    · have := hs e List.mem_cons_self
      exact length_takeFitting_lt (by omega)
  exact While.runs_of_measure (fun s : Splitting => s.input.length) hround ⟨es, acc⟩ h

/-- **The loop does not end** when an entry does not. -/
theorem not_runs_of_lt {es : List ListEntry} {acc : List ListData} {s : Splitting} {e : ListEntry} (he : e ∈ es)
    (h : maxSize < (ListEntry.codec.enc e).length + baseSize) :
    ¬ Runs (fun s : Splitting => s.input ≠ []) (splitRound maxSize) ⟨es, acc⟩ s := by
  have hround : ∀ s : Splitting, e ∈ s.input → s.input ≠ [] ∧ e ∈ (splitRound maxSize s).input :=
    fun s hs => ⟨List.ne_nil_of_mem hs, mem_takeFitting_of_lt _ _ hs (by omega)⟩
  exact While.not_runs hround he

/-- **A split ends** if the listing fits a packet, or else each of its entries does. -/
theorem exists_splitsTo_iff (l : ListData) (maxSize : Nat) :
    (∃ r, l.SplitsTo maxSize r) ↔
      (codec.enc l).length ≤ maxSize ∨ ∀ e ∈ l.entries, (ListEntry.codec.enc e).length + baseSize ≤ maxSize := by
  by_cases hle : (codec.enc l).length ≤ maxSize
  · simp only [splitsTo_of_le hle, exists_eq, hle, true_or]
  · simp only [splitsTo_of_lt (Nat.lt_of_not_le hle), hle, false_or]
    constructor
    · rintro ⟨r, s, hs, -⟩ e he
      by_contra hbig
      exact not_runs_of_lt he (by omega) hs
    · intro h
      obtain ⟨s, hs⟩ := runs_of_fit [] h
      exact ⟨_, s, hs, rfl⟩

/-! ## Sizes -/

theorem enc_length (es : List ListEntry) (more : Bool) : (codec.enc ⟨es, more⟩).length =
    (Codec.uint.enc (UInt64.ofNat es.length)).length + (es.flatMap ListEntry.codec.enc).length + 1 := by
  show ((Codec.uint.enc (UInt64.ofNat es.length) ++ es.flatMap ListEntry.codec.enc) ++ Codec.bool.enc more).length = _
  rw [List.length_append, List.length_append]
  rfl

theorem enc_single_length (e : ListEntry) : (codec.enc ⟨[e], false⟩).length = (ListEntry.codec.enc e).length + 2 := by
  rw [enc_length, List.flatMap_cons, List.flatMap_nil, List.append_nil]
  show 1 + _ + 1 = _
  omega

theorem enc_single_le {l : ListData} {e : ListEntry} (h : e ∈ l.entries) :
    (codec.enc ⟨[e], false⟩).length ≤ (codec.enc l).length := by
  have hl := enc_length l.entries l.moreToCome
  have he := length_le_of_mem_flatMap ListEntry.codec.enc l.entries e h
  have hn := Variant.uint_enc_length_pos (UInt64.ofNat l.entries.length)
  rw [enc_single_length]
  show _ ≤ (codec.enc ⟨l.entries, l.moreToCome⟩).length
  omega

/-- **A split ends**: with an error if some entry fits no packet, and else with the parts. -/
structure SplitEnds (l : ListData) (maxSize : UInt32) (r : Except Text (List ListData)) : Prop where
  ends : l.SplitsTo maxSize.toNat r
  refused : (∃ e ∈ l.entries, maxSize.toNat < (codec.enc ⟨[e], false⟩).length) → ∃ err, r = .error err
  parts : (∀ e ∈ l.entries, (codec.enc ⟨[e], false⟩).length ≤ maxSize.toNat) → ∃ ps, r = .ok ps

/-- **A split ends as it should** if the listing fits a packet, or else each of its entries does with nine bytes to
spare: with any other, the loop goes on for ever. -/
theorem split_ends_iff (l : ListData) (maxSize : UInt32) :
    (∃ r, SplitEnds l maxSize r) ↔ (codec.enc l).length ≤ maxSize.toNat ∨
      ∀ e ∈ l.entries, (ListEntry.codec.enc e).length + baseSize ≤ maxSize.toNat := by
  constructor
  · rintro ⟨r, hr⟩
    exact (exists_splitsTo_iff l maxSize.toNat).1 ⟨r, hr.ends⟩
  · intro h
    have hfit : ∀ e ∈ l.entries, (codec.enc ⟨[e], false⟩).length ≤ maxSize.toNat := by
      intro e he
      rcases h with h | h
      · exact (enc_single_le he).trans h
      · have := h e he
        rw [baseSize_eq] at this
        rw [enc_single_length]
        omega
    obtain ⟨r, hr⟩ := (exists_splitsTo_iff l maxSize.toNat).2 h
    refine ⟨r, hr, ?_, fun _ => exists_ok_of_splitsTo hr⟩
    rintro ⟨e, he, hbig⟩
    have := hfit e he
    omega

/-- A listing of one entry, which takes seven bytes. -/
def oneEntry : ListData := ⟨[⟨"a".toList, false, 0, []⟩], false⟩

/-- **No packet of six bytes holds it**, and its split does not end. -/
theorem not_split_ends : ¬ ∃ r, SplitEnds oneEntry 6 r := by
  rintro ⟨r, hr⟩
  have h := (exists_splitsTo_iff oneEntry (6 : UInt32).toNat).1 ⟨r, hr.ends⟩
  revert h
  decide

/-! ## The parts -/

/-- So many rounds of the loop are packets that are given. -/
theorem runs_of_packets : ∀ (k : Nat) (es : List ListEntry) (acc ps : List ListData), packets maxSize k es = some ps →
    Runs (fun s : Splitting => s.input ≠ []) (splitRound maxSize) ⟨es, acc⟩ ⟨[], acc ++ ps⟩
  | k, [], acc, ps, h => by
    rw [packets_nil] at h
    cases h
    rw [List.append_nil]
    exact .ends _ (fun h => h rfl)
  | k + 1, e :: es, acc, ps, h => by
    unfold packets at h
    obtain ⟨rest, hrest, rfl⟩ := Option.map_eq_some_iff.1 h
    have ih := runs_of_packets k _ (acc ++ [⟨(takeFitting maxSize baseSize (e :: es)).1,
      !(takeFitting maxSize baseSize (e :: es)).2.isEmpty⟩]) rest hrest
    rw [List.append_assoc] at ih
    exact .round _ _ (List.cons_ne_nil e es) ih

/-- Packets are given when every entry fits. -/
theorem exists_packets : ∀ (k : Nat) (es : List ListEntry), es.length ≤ k →
    (∀ e ∈ es, (ListEntry.codec.enc e).length + baseSize ≤ maxSize) → ∃ ps, packets maxSize k es = some ps
  | k, [], _, _ => ⟨[], packets_nil maxSize k⟩
  | k + 1, e :: es, hk, h => by
    have hlt : (takeFitting maxSize baseSize (e :: es)).2.length < (e :: es).length :=
      length_takeFitting_lt (by have := h e List.mem_cons_self; omega)
    obtain ⟨ps, hps⟩ := exists_packets k (takeFitting maxSize baseSize (e :: es)).2 (by omega)
      fun x hx => h x (mem_of_mem_takeFitting hx)
    exact ⟨_, Option.map_eq_some_iff.2 ⟨ps, hps, rfl⟩⟩

/-- **What a split comes to is what `splitBySize` gives.** -/
theorem splitsTo_ok_iff (l : ListData) (maxSize : Nat) (ps : List ListData) :
    l.SplitsTo maxSize (.ok ps) ↔ l.splitBySize maxSize = some ps := by
  unfold splitBySize
  by_cases hle : (codec.enc l).length ≤ maxSize
  · rw [splitsTo_of_le hle, if_pos hle, Except.ok.injEq, Option.some.injEq, eq_comm]
  · rw [splitsTo_of_lt (Nat.lt_of_not_le hle), if_neg hle]
    constructor
    · rintro ⟨s, hs, hps⟩
      have hsplit := (splitsTo_of_lt (Nat.lt_of_not_le hle)).2 ⟨s, hs, rfl⟩
      have hfit := ((exists_splitsTo_iff l maxSize).1 ⟨_, hsplit⟩).resolve_left hle
      obtain ⟨qs, hqs⟩ := exists_packets l.entries.length l.entries (Nat.le_refl _) hfit
      have hrun := runs_of_packets _ _ [] qs hqs
      rw [List.nil_append] at hrun
      cases hs.unique hrun
      cases hps
      exact hqs
    · intro h
      have hrun := runs_of_packets _ _ [] ps h
      rw [List.nil_append] at hrun
      exact ⟨_, hrun, rfl⟩

theorem enc_le_of_flatMap {es : List ListEntry} {more : Bool} (hm : maxSize < 2 ^ 32)
    (h : baseSize + (es.flatMap ListEntry.codec.enc).length ≤ maxSize) : (codec.enc ⟨es, more⟩).length ≤ maxSize := by
  have hn : es.length ≤ (es.flatMap ListEntry.codec.enc).length :=
    length_le_flatMap ListEntry.codec.enc ListEntry.enc_length_pos es
  have hvar : (Codec.uint.enc (UInt64.ofNat es.length)).length ≤ 5 := by
    apply Bare.encVar_length_le 9 4 _
    rw [UInt64.toNat_ofNat_of_lt' (show es.length < 2 ^ 64 by omega)]
    omega
  rw [enc_length]
  rw [baseSize_eq] at h
  omega

/-- **Every packet fits.** -/
theorem enc_le_of_mem_packets (hm : maxSize < 2 ^ 32) (hb : baseSize ≤ maxSize) :
    ∀ (k : Nat) (es : List ListEntry) (ps : List ListData), packets maxSize k es = some ps →
      ∀ p ∈ ps, (codec.enc p).length ≤ maxSize
  | k, [], ps, h, p, hp => by
    rw [packets_nil] at h
    cases h
    exact absurd hp List.not_mem_nil
  | k + 1, e :: es, ps, h, p, hp => by
    unfold packets at h
    obtain ⟨rest, hrest, rfl⟩ := Option.map_eq_some_iff.1 h
    rcases List.mem_cons.1 hp with rfl | hp
    · exact enc_le_of_flatMap hm (takeFitting_le baseSize (e :: es) hb)
    · exact enc_le_of_mem_packets hm hb k _ rest hrest p hp

theorem enc_le_of_mem_splitBySize {l : ListData} {ps : List ListData} (hm : maxSize < 2 ^ 32)
    (hfit : ∀ e ∈ l.entries, (ListEntry.codec.enc e).length + baseSize ≤ maxSize)
    (h : l.splitBySize maxSize = some ps) :
    ∀ p ∈ ps, (codec.enc p).length ≤ maxSize := by
  unfold splitBySize at h
  by_cases hle : (codec.enc l).length ≤ maxSize
  · rw [if_pos hle] at h
    cases h
    simpa using hle
  · rw [if_neg hle] at h
    cases hes : l.entries with
    | nil =>
      rw [hes, packets_nil] at h
      cases h
      simp
    | cons e es =>
      have hb := hfit e (hes ▸ List.mem_cons_self)
      exact enc_le_of_mem_packets hm (by omega) _ _ ps h

end ListData

/-! ## The client's loop -/

section Client

variable {H : Host} {α : Type} {s : Local H.sig} {rest : Bytes} {ending : Ending IoError}

theorem Completes.flushed {Q : Except Err Unit → Local H.sig → Proc.Inbound IoError → Prop} {i : Proc.Inbound IoError}
    (h : Q (.ok ()) s i) : Completes Q (((Act.flush : Act H Unit), s), i) :=
  Completes.then (Completes.flush (.ret _ _ _ h))

/-- What fits is written. -/
theorem Completes.writer {Q : Except Err Unit → Local H.sig → Proc.Inbound IoError → Prop} {i : Proc.Inbound IoError}
    {F : Form α} {a : α} (hf : F.Fits a) (hs : s.sendLost = false) (h : Q (.ok ()) (s.push (.sent (F.msg a))) i) :
    Completes Q (((toWriterFramed F a : Act H Unit), s), i) := by
  unfold toWriterFramed
  rw [if_pos hf]
  exact Completes.then (Completes.send hs (.ret _ _ _ h))

/-- **A frame is read**, and nothing of what follows it. -/
theorem Completes.reader {Q : Except Err α → Local H.sig → Proc.Inbound IoError → Prop} {F : Form α} {a : α}
    (hf : F.Fits a) (hb : F.ReadsBack a) (hs : s.recvLost = false)
    (h : ∀ s', s'.recvLost = false → Q (.ok a) s' ⟨rest, ending⟩) :
    Completes Q (((fromReaderFramed F : Act H α), s), ⟨frame (F.codec.enc a) ++ rest, ending⟩) := by
  refine Completes.then (Completes.recv hs hf hb fun s' hs' => ?_)
  exact Completes.then (Completes.note (.ret _ _ _ (h _ hs')))

namespace ListingHandler

/-- The client's loop, on packets that are there: those it takes. -/
def receive (data : List ListData) : List ListData → Option (List ListData)
  | [] => none
  | packet :: ps => if packet.moreToCome then receive (data ++ [packet]) ps else some (data ++ [packet])

/-- A round of it. -/
def receiveRound (data : List ListData) : Act H (List ListData ⊕ List ListData) := do
  let packet ← fromReaderFramed ListData.form
  if packet.moreToCome then return .inl (data ++ [packet]) else return .inr (data ++ [packet])

theorem receive_closed (last : ListData) (more : List ListData) (hl : last.moreToCome = false) :
    ∀ (front data : List ListData), (∀ p ∈ front, p.moreToCome = true) →
      receive data (front ++ last :: more) = some (data ++ front ++ [last])
  | [], data, _ => by simp [receive, hl]
  | p :: front, data, h => by
    have ih := receive_closed last more hl front (data ++ [p]) fun q hq => h q (List.mem_cons_of_mem p hq)
    simp [receive, h p List.mem_cons_self, ih]

/-- **The loop takes packets up to one that none follows**, and nothing after it. -/
theorem completes_repeated {Q : Except Err (List ListData) → Local H.sig → Proc.Inbound IoError → Prop}
    {last : ListData}
    (hl : last.moreToCome = false) : ∀ (front data : List ListData) (m : Nat) (s : Local H.sig), s.recvLost = false →
      (∀ p ∈ front ++ [last], ListData.form.Fits p ∧ ListData.form.ReadsBack p) → (∀ p ∈ front, p.moreToCome = true) →
      (∀ s', s'.recvLost = false → Q (.ok (data ++ front ++ [last])) s' ⟨rest, ending⟩) →
      Completes Q ((Task.repeated receiveRound (front.length + 1 + m) data, s),
        ⟨(front ++ [last]).flatMap (fun p => frame (ListData.codec.enc p)) ++ rest, ending⟩)
  | [], data, m, s, hs, hp, _, h => by
    rw [show ([] : List ListData).length + 1 + m = m + 1 from by rw [List.length_nil]; omega]
    obtain ⟨hf, hb⟩ := hp last List.mem_cons_self
    refine Completes.again (Completes.then ?_)
    rw [List.nil_append, List.flatMap_cons, List.flatMap_nil, List.append_nil]
    refine Completes.reader hf hb hs fun s' hs' => ?_
    simp only [hl]
    refine .ret _ _ _ ?_
    simpa using h s' hs'
  | p :: front, data, m, s, hs, hp, hmore, h => by
    rw [show (p :: front).length + 1 + m = (front.length + 1 + m) + 1 from by rw [List.length_cons]; omega]
    obtain ⟨hf, hb⟩ := hp p List.mem_cons_self
    refine Completes.again (Completes.then ?_)
    rw [List.cons_append, List.flatMap_cons, List.append_assoc]
    refine Completes.reader hf hb hs fun s' hs' => ?_
    simp only [hmore p List.mem_cons_self]
    refine .ret _ _ _ ?_
    exact completes_repeated hl front (data ++ [p]) m s' hs' (fun q hq => hp q (List.mem_cons_of_mem p hq))
      (fun q hq => hmore q (List.mem_cons_of_mem p hq)) (by simpa using h)

/-- **A client that asks for a listing is given what was split.** -/
theorem completes_sendImpl {inner : SessionCommandInner} {job : CopyJobSpec} {recurse : Bool} {ps : List ListData}
    (hsup : inner.compat.supports .mkdirSetmetaLs = true)
    (hcmd : Command.form.Fits (.list ⟨job.source.filename, if recurse then [CommandParam.recurse.tagged] else []⟩))
    (hc : Closed ps) (hp : ∀ p ∈ ps, ListData.form.Fits p ∧ ListData.form.ReadsBack p) (hs : s.sendLost = false)
    (hr : s.recvLost = false) :
    Completes (fun r _ i => r = .ok ⟨0, some (ListData.join ps)⟩ ∧ i = ⟨rest, ending⟩)
      (((sendImpl inner job recurse : Act H RequestResult), s),
        ⟨frame (Response.codec.enc okResponse) ++ (ps.flatMap (fun p => frame (ListData.codec.enc p)) ++ rest),
        ending⟩) := by
  obtain ⟨front, last, rfl, hmore, hlast⟩ := hc
  unfold sendImpl
  rw [hsup]
  refine Completes.then (.ret _ _ _ ?_)
  refine Completes.then (Completes.writer hcmd hs ?_)
  refine Completes.then (Completes.flushed ?_)
  have hok : Response.form.Fits okResponse := by decide
  refine Completes.then (Completes.reader hok (Response.readsBack_of_fits okResponse hok) hr fun s' hs' => ?_)
  refine Completes.then (.ret _ _ _ ?_)
  refine Completes.then (Completes.loop (front.length + 1) fun m => ?_)
  refine completes_repeated hlast front [] m s' hs' hp hmore fun s'' _ => ?_
  exact .ret _ _ _ ⟨rfl, rfl⟩

end ListingHandler

end Client

namespace ListData

/-- **A listing is split into packets that it is put together from.** -/
structure Rebuilds (l : ListData) (maxSize : UInt32) (parts : List ListData) : Prop where
  returned : l.SplitsTo maxSize.toNat (.ok parts)
  nonempty : parts ≠ []
  fits : ∀ p ∈ parts, (codec.enc p).length ≤ maxSize.toNat
  closed : ∃ front last, parts = front ++ [last] ∧ (∀ p ∈ front, p.moreToCome = true) ∧ last.moreToCome = false
  joined : join parts = l
  /-- The client's loop takes these packets, whatever follows them. -/
  received : ∀ more, ListingHandler.receive [] (parts ++ more) = some parts
  /-- The client is given the listing, if its packets may be sent. -/
  heard : maxSize.toNat ≤ wireEncodingLimit → codec.wf l →
    ∀ (H : Host) (inner : SessionCommandInner) (job : CopyJobSpec) (recurse : Bool) (s : Local H.sig) (rest : Bytes)
      (ending : Ending IoError), inner.compat.supports .mkdirSetmetaLs = true →
      Command.form.Fits (.list ⟨job.source.filename, if recurse then [CommandParam.recurse.tagged] else []⟩) →
      s.sendLost = false → s.recvLost = false →
      Completes (fun r _ i => r = .ok ⟨0, some l⟩ ∧ i = ⟨rest, ending⟩)
        (((ListingHandler.sendImpl inner job recurse : Act H RequestResult), s),
          ⟨frame (Response.codec.enc okResponse) ++ (parts.flatMap (fun p => frame (codec.enc p)) ++ rest), ending⟩)

theorem join_of_flatMap {l : ListData} {ps : List ListData} (hm : l.moreToCome = false)
    (h : ps.flatMap entries = l.entries) : join ps = l := by
  obtain ⟨es, more⟩ := l
  cases hm
  exact congrArg (ListData.mk · false) h

/-- What is in a part is in the listing. -/
theorem wf_of_mem {l p : ListData} {ps : List ListData} (hw : codec.wf l) (h : ps.flatMap entries = l.entries)
    (hp : p ∈ ps) :
    codec.wf p := by
  have hsub : p.entries ⊆ l.entries := fun e he => h ▸ List.mem_flatMap.2 ⟨p, hp, he⟩
  have hlen : p.entries.length ≤ l.entries.length := by
    rw [← h, List.length_flatMap]
    exact List.single_le_sum (fun _ _ => Nat.zero_le _) _ (List.mem_map.2 ⟨p, hp, rfl⟩)
  obtain ⟨⟨hl, he⟩, -⟩ := hw
  exact ⟨⟨Nat.lt_of_le_of_lt hlen hl, fun e hep => he e (hsub hep)⟩, trivial⟩

/-- **A listing is split, sent and put together again**, whatever its size, if each of its entries fits with nine
bytes to spare; if it has none, an empty packet is to fit. -/
theorem split_rebuilds (l : ListData) (maxSize : UInt32) (hmore : l.moreToCome = false)
    (hfit : ∀ e ∈ l.entries, (ListEntry.codec.enc e).length + 9 ≤ maxSize.toNat) (hnil : l.entries = [] → 2 ≤ maxSize) :
    ∃ parts, Rebuilds l maxSize parts := by
  have hm : maxSize.toNat < 2 ^ 32 := maxSize.toNat_lt
  have hbase : ∀ e ∈ l.entries, (ListEntry.codec.enc e).length + baseSize ≤ maxSize.toNat := by
    rw [baseSize_eq]
    exact hfit
  have hempty : (codec.enc ⟨[], false⟩).length ≤ maxSize.toNat := by
    show 2 ≤ maxSize.toNat
    cases hes : l.entries with
    | nil => exact UInt32.le_iff_toNat_le.1 (hnil hes)
    | cons e es =>
      have := hfit e (hes ▸ List.mem_cons_self)
      omega
  obtain ⟨r, hr⟩ := (exists_splitsTo_iff l maxSize.toNat).2 (.inr hbase)
  obtain ⟨ps, rfl⟩ := exists_ok_of_splitsTo hr
  have hsplit := (splitsTo_ok_iff l maxSize.toNat ps).1 hr
  have hl : l = ⟨l.entries, false⟩ := by rw [← hmore]
  rw [hl] at hsplit
  obtain ⟨⟨front, last, rfl, hfront, hlast⟩, hall⟩ := closed_splitBySize l.entries _ _ hempty hsplit
  rw [← hl] at hsplit
  have hle := enc_le_of_mem_splitBySize hm hbase hsplit
  have hjoin := join_of_flatMap hmore hall
  refine ⟨front ++ [last], hr, by simp, hle, ⟨front, last, rfl, hfront, hlast⟩, hjoin, fun more => ?_, ?_⟩
  · rw [List.append_assoc]
    exact ListingHandler.receive_closed last more hlast front [] hfront
  · intro hlim hw H inner job recurse s rest ending hsup hcmd hs hrecv
    have hp : ∀ p ∈ front ++ [last], form.Fits p ∧ form.ReadsBack p := fun p hp =>
      ⟨(hle p hp).trans hlim, Form.readsBack_of_wf (wf_of_mem hw hall hp)⟩
    have hc : Closed (front ++ [last]) := ⟨front, last, rfl, hfront, hlast⟩
    refine (ListingHandler.completes_sendImpl hsup hcmd hc hp hs hrecv).mono fun r s' i h => ?_
    rw [hjoin] at h
    exact h

/-- Three entries of five bytes each, for packets of fourteen bytes. -/
def threeEntries : ListData :=
  ⟨[⟨"a".toList, false, 0, []⟩, ⟨"b".toList, true, 1, []⟩, ⟨"c".toList, false, 2, []⟩], false⟩

theorem split_rebuilds_three : ∃ parts, Rebuilds threeEntries 14 parts :=
  split_rebuilds threeEntries 14 rfl (by decide) (by decide)

/-- **An empty listing is no packet of one byte**, and nothing is sent of it. -/
theorem not_split_rebuilds : ¬ ∀ (l : ListData) (maxSize : UInt32), l.moreToCome = false →
    (∀ e ∈ l.entries, (ListEntry.codec.enc e).length + 9 ≤ maxSize.toNat) → ∃ parts, Rebuilds l maxSize parts := by
  intro h
  obtain ⟨parts, hp⟩ := h ⟨[], false⟩ 1 rfl (fun e he => absurd he List.not_mem_nil)
  have hsplit := (splitsTo_ok_iff ⟨[], false⟩ (1 : UInt32).toNat parts).1 hp.returned
  have hnone : (ListData.mk [] false).splitBySize (1 : UInt32).toNat = some [] := rfl
  rw [hnone] at hsplit
  cases hsplit
  exact hp.nonempty rfl

end ListData

end Qcp
