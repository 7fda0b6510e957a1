import Qcp.Integrity
import Qcp.Robust
import Qcp.Spares
/-!
# Crashes — what the numbers in a header and a trailer can do

A client adds to the size in a header, and either side makes times of the numbers in a trailer.  `Spares` says which
tasks do not panic whatever they are told; `Bears` is for those that do not if the sum and the times are in range.
Where one is not, there is a run that panics: `wire_values_withstood_iff`.
-/
namespace Qcp

open Bare (Bytes Text Codec)
open Posix (Path)
open Proc (Steps Task Local Spares Bears Gives Reaches)

def Err.IsPanic (e : Err) : Prop := ∃ t, e = .panicked t

theorem not_panicked {α : Type} {r : Except Err α} (h : ∀ e, r = .error e → ¬ e.IsPanic) : ¬ Panicked r :=
  fun ⟨t, ht⟩ => h _ ht ⟨t, rfl⟩

/-! ## Tasks that do not panic -/

section Rules

variable {H : Host} {α : Type}

theorem Spares.ofExcept {ε : Type} {wrap : ε → Err} (hw : ∀ e, ¬ (wrap e).IsPanic) (r : Except ε α) :
    Spares Err.IsPanic (Act.ofExcept wrap r : Act H α) := by
  cases r with
  | ok a => exact Spares.pure a
  | error e => exact Spares.fail (hw e)

theorem not_isPanic_io (e : IoError) : ¬ (Err.io e).IsPanic := nofun

theorem Spares.flushed : Spares Err.IsPanic (Act.flush : Act H Unit) :=
  .then .flush fun r => Spares.ofExcept not_isPanic_io r

theorem Spares.writer (F : Form α) (a : α) : Spares Err.IsPanic (toWriterFramed F a : Act H Unit) := by
  unfold toWriterFramed
  split
  · exact .then (.send _) fun r => Spares.ofExcept not_isPanic_io r
  · exact .fail nofun

theorem Spares.recv (w : Frame.Wire α) : Spares Err.IsPanic (Frame.recv .recv w : Act H α) := by
  refine .then (.read 4) fun r => ?_
  cases r with
  | error f => exact .fail nofun
  | ok hdr =>
    simp only
    split
    · exact .then (.fill 252) fun _ => .fail nofun
    · refine .then (.read _) fun r => ?_
      cases r with
      | error f => exact .fail nofun
      | ok bs =>
        simp only
        cases w.codec.decode bs with
        | none => exact .fail nofun
        | some a => exact .pure a

theorem Spares.intoResult (r : Response) : Spares Err.IsPanic (intoResult r : Act H Response) := by
  unfold Qcp.intoResult
  split
  · exact .pure r
  · exact .fail nofun

theorem Spares.asked (op : Op) : Spares Err.IsPanic (Act.call op : Act H op.Ret) := Spares.call (S := H.sig) op

theorem Spares.createOrTruncate (path : Path) (header : FileHeaderV2) :
    Spares Err.IsPanic (createOrTruncate path header : Act H _) := by
  refine .then (Spares.asked (.metadata path)) fun r => ?_
  cases r with
  | error e => exact Spares.asked _
  | ok info =>
    simp only
    split
    · exact Spares.asked _
    · split
      · exact Spares.asked _
      · exact .pure _

theorem Spares.copyIn (limit : Nat) (h : Place) (bufferSize : Nat) :
    Spares Err.IsPanic (copyIn limit h bufferSize : Act H _) := by
  have finish : ∀ amt, Spares Err.IsPanic (copyEnd (TokioFile.flush h : Act H _) amt) := by
    refine fun amt => .then (Spares.asked _) fun r => ?_
    cases r <;> exact .pure _
  refine .loop (fun amt => .then ?_ fun r => ?_) 0
  · split
    · exact .pure _
    · exact .fill _
  · cases r with
    | error e => exact .pure _
    | ok bs =>
      simp only
      split
      · exact finish amt
      · refine .then (Spares.asked _) fun r => ?_
        cases r <;> exact .pure _

theorem Spares.refused (err : Refusal) : Spares Err.IsPanic (errorAndReturn err : Act H Unit) := Spares.writer _ _

theorem Spares.sendOk : Spares Err.IsPanic (sendOk : Act H Unit) := by
  unfold Qcp.sendOk sendResponse
  exact Spares.writer _ _

theorem Spares.isDir (path : Path) : Spares Err.IsPanic (Fs.isDir path : Act H Bool) := by
  refine .then (Spares.asked _) fun r => ?_
  cases r <;> exact .pure _

theorem Spares.isFile (path : Path) : Spares Err.IsPanic (Fs.isFile path : Act H Bool) := by
  refine .then (Spares.asked _) fun r => ?_
  cases r <;> exact .pure _

theorem Spares.appendFilename (destination : Path) :
    Spares Err.IsPanic (PutHandler.appendFilename destination : Act H (Option Bool)) := by
  have last : ∀ extant : Bool, Spares Err.IsPanic (do
      if extant then return some (← Fs.isDir destination)
      else if Posix.endsWithSep destination then return none
      else
        let parentDir := Posix.pop destination
        let parentDir := if parentDir = [] then Posix.dot else parentDir
        if ← Fs.isDir parentDir then return some false else return none : Act H _) := by
    intro extant
    cases extant with
    | true => exact .then (Spares.isDir _) fun _ => .pure _
    | false =>
      simp only [Bool.false_eq_true, if_false]
      split
      · exact .pure _
      · refine .then (Spares.isDir _) fun b => ?_
        cases b <;> exact .pure _
  unfold PutHandler.appendFilename
  split
  · exact .pure _
  · refine .then (Spares.isDir _) fun b => ?_
    cases b with
    | true => exact .then (.pure true) last
    | false => exact .then (Spares.isFile _) last

/-- **Metadata whose times are times can be given to a file.** -/
theorem Spares.updateMetadata (h : Place) {metadata : List TaggedData} (hc : Changes.collect metadata ≠ none) :
    Spares Err.IsPanic (updateMetadata h metadata : Act H Unit) := by
  refine .then (Spares.asked _) fun r => .then (Spares.ofExcept not_isPanic_io r) fun _ => ?_
  cases hm : Changes.collect metadata with
  | none => exact absurd hm hc
  | some c =>
    simp only
    split
    · refine .then (Spares.asked _) fun r => .then (Spares.ofExcept not_isPanic_io r) fun _ => ?_
      split
      · exact .pure _
      · exact .then (Spares.asked _) fun r => Spares.ofExcept not_isPanic_io r
    · exact .pure _

/-- A message that is read counts. -/
theorem Bears.reader {β : Type} {P : List Msg → Prop} {g : List Msg} {F : Form α} {f : α → Act H β}
    (hf : ∀ a, Bears P Err.IsPanic (F.msg a :: g) (f a)) :
    Bears P Err.IsPanic g (fromReaderFramed F >>= f : Act H β) := by
  unfold fromReaderFramed
  rw [Task.bind_assoc]
  refine .then (.of_spares (Spares.recv _)) fun a => ?_
  rw [Task.bind_assoc]
  exact .note (hf a)

end Rules

/-! ## Sums and times -/

/-- The sum that the client makes is a number. -/
def FileHeader.SumFits (header : FileHeader) : Prop := header.toV2.size.toNat + 17 < 2 ^ 64

/-- The numbers that are to be times are. -/
def FileTrailer.TimesFit (trailer : FileTrailer) : Prop :=
  ∀ md ∈ trailer.toV2.metadata, md.metadataAttr = some .accessTime ∨ md.metadataAttr = some .modificationTime →
    ∀ t, md.data = .unsigned t → t.toNat < 2 ^ 63

namespace Changes

/-- One item is none too many, or it is whatever was before it. -/
theorem add_eq_none_iff (c : Changes) (md : TaggedData) : c.add md = none ↔
    (md.metadataAttr = some .accessTime ∨ md.metadataAttr = some .modificationTime) ∧
      ∃ t, md.data = .unsigned t ∧ 2 ^ 63 ≤ t.toNat := by
  have unix : ∀ t : UInt64, SystemTime.fromUnix t = none ↔ 2 ^ 63 ≤ t.toNat := by
    intro t
    unfold SystemTime.fromUnix
    by_cases ht : t.toNat < 2 ^ 63
    · simp
    · simp only [ht, if_false, true_iff]
      omega
  unfold add
  cases hm : md.metadataAttr with
  | none => simp
  | some a =>
    cases hd : md.data with
    | unsigned t => cases a <;> simp [Variant.asUnsigned, unix]
    | _ => cases a <;> simp [Variant.asUnsigned]

theorem foldlM_add_ne_none_iff (mds : List TaggedData) : ∀ c : Changes, mds.foldlM add c ≠ none ↔
    ∀ md ∈ mds, md.metadataAttr = some .accessTime ∨ md.metadataAttr = some .modificationTime →
      ∀ t, md.data = .unsigned t → t.toNat < 2 ^ 63 := by
  induction mds with
  | nil => intro c; simp
  | cons md mds ih =>
    intro c
    rw [List.foldlM_cons, List.forall_mem_cons]
    cases hadd : c.add md with
    | none =>
      obtain ⟨hattr, t, ht, hbig⟩ := (add_eq_none_iff c md).1 hadd
      constructor
      · intro h
        exact absurd rfl h
      · rintro ⟨h, -⟩
        have := h hattr t ht
        omega
    | some c' =>
      have hfit : md.metadataAttr = some .accessTime ∨ md.metadataAttr = some .modificationTime →
          ∀ t, md.data = .unsigned t → t.toNat < 2 ^ 63 := by
        intro hattr t ht
        by_contra hbig
        have hnone := (add_eq_none_iff c md).2 ⟨hattr, t, ht, by omega⟩
        rw [hadd] at hnone
        cases hnone
      rw [and_iff_right hfit]
      exact ih c'

theorem collect_ne_none_iff (trailer : FileTrailer) : collect trailer.toV2.metadata ≠ none ↔ trailer.TimesFit :=
  foldlM_add_ne_none_iff _ empty

end Changes

/-! ## Either side -/

/-- No other header was read, and no other trailer. -/
def Only (header : FileHeader) (trailer : FileTrailer) (got : List Msg) : Prop :=
  (∀ h, .fileHeader h ∈ got → h = header) ∧ ∀ t, .fileTrailer t ∈ got → t = trailer

/-- **A client withstands them**: no run of any build, on any machine, in which it reads no others panics. -/
def GetWithstands (header : FileHeader) (trailer : FileTrailer) : Prop :=
  ∀ (H : Host) (inner : SessionCommandInner) (job : CopyJobSpec) (w : World) (r : Except Err RequestResult)
    (s : Local H.sig), Steps ((GetHandler.sendImpl inner job : Act H RequestResult), Local.init w) (.ret r, s) →
    Only header trailer s.got → ¬ Panicked r

/-- **So does a server.** -/
def PutWithstands (header : FileHeader) (trailer : FileTrailer) : Prop :=
  ∀ (H : Host) (inner : SessionCommandInner) (args : Get2Args) (w : World) (r : Except Err Unit) (s : Local H.sig),
    Steps ((PutHandler.handleImpl inner args : Act H Unit), Local.init w) (.ret r, s) →
    Only header trailer s.got → ¬ Panicked r

section Withstands

variable {H : Host} {header : FileHeader} {trailer : FileTrailer} {g : List Msg}

/-- With another header than this anything may happen. -/
theorem Bears.readHeader {α : Type} {k : FileHeader → Act H α}
    (hk : Bears (S := H.sig) (Only header trailer) Err.IsPanic (.fileHeader header :: g) (k header)) :
    Bears (S := H.sig) (Only header trailer) Err.IsPanic g (fromReaderFramed FileHeader.form >>= k) := by
  refine Bears.reader fun h => ?_
  by_cases heq : h = header
  · subst heq
    exact hk
  · exact .of_not fun got hg ho => heq (ho.1 h (hg _ List.mem_cons_self))

theorem Bears.readTrailer {α : Type} {k : FileTrailer → Act H α}
    (hk : Bears (S := H.sig) (Only header trailer) Err.IsPanic (.fileTrailer trailer :: g) (k trailer)) :
    Bears (S := H.sig) (Only header trailer) Err.IsPanic g (fromReaderFramed FileTrailer.form >>= k) := by
  refine Bears.reader fun t => ?_
  by_cases heq : t = trailer
  · subst heq
    exact hk
  · exact .of_not fun got hg ho => heq (ho.2 t (hg _ List.mem_cons_self))

theorem getWithstands_of (hsum : header.SumFits) (htimes : trailer.TimesFit) : GetWithstands header trailer := by
  intro H inner job w r s hs ho
  have hbar : Spares Err.IsPanic (progressBarFor inner (header.toV2.size.toNat + 17) : Act H Unit) := by
    unfold FileHeader.SumFits at hsum
    unfold progressBarFor
    rw [decide_eq_false (by omega), Bool.and_false]
    exact .pure ()
  refine not_panicked (Bears.run (P := Only header trailer) ?_ hs ho)
  refine .then (.of_spares (Spares.writer _ _)) fun _ => .then (.of_spares Spares.flushed) fun _ => ?_
  refine Bears.reader fun response => .then (.of_spares (Spares.intoResult response)) fun _ => ?_
  apply Bears.readHeader
  refine .then (.of_spares (Spares.createOrTruncate _ _)) fun r => ?_
  refine .then (.of_spares (Spares.ofExcept not_isPanic_io r)) fun file => ?_
  refine .then (.of_spares hbar) fun _ => .then (.of_spares (Spares.copyIn _ _ _)) fun r => ?_
  refine .then (.of_spares (Spares.ofExcept not_isPanic_io r)) fun _ => ?_
  apply Bears.readTrailer
  refine .then (.of_spares (Spares.asked _)) fun r => .then (.of_spares (Spares.ofExcept not_isPanic_io r)) fun _ => ?_
  refine .then (.of_spares (Spares.updateMetadata _ ((Changes.collect_ne_none_iff trailer).2 htimes))) fun _ => ?_
  exact .of_spares (.pure _)

theorem putWithstands_of (htimes : trailer.TimesFit) : PutWithstands header trailer := by
  intro H inner args w r s hs ho
  refine not_panicked (Bears.run (P := Only header trailer) ?_ hs ho)
  refine .then (.of_spares (Spares.appendFilename _)) fun append => ?_
  cases append with
  | none => exact .of_spares (Spares.refused _)
  | some append =>
    simp only
    refine Bears.reader fun h => .then (.of_spares (Spares.createOrTruncate _ _)) fun r => ?_
    cases r with
    | error e => exact .of_spares (Spares.refused _)
    | ok file =>
      simp only
      refine .then (.of_spares Spares.sendOk) fun _ => .then (.of_spares Spares.flushed) fun _ => ?_
      refine .then (.of_spares (Spares.copyIn _ _ _)) fun r => ?_
      cases r with
      | error e => exact .of_spares (Spares.refused _)
      | ok n =>
        simp only
        apply Bears.readTrailer
        refine .then (.of_spares (Spares.asked _)) fun r => ?_
        refine .then (.of_spares (Spares.ofExcept not_isPanic_io r)) fun _ => ?_
        refine .then (.of_spares (Spares.updateMetadata _ ((Changes.collect_ne_none_iff trailer).2 htimes))) fun _ => ?_
        exact .of_spares (.then Spares.sendOk fun _ => Spares.flushed)

end Withstands

/-! ## Runs that panic -/

section Runs

variable {H : Host} {s : Local H.sig}

/-- What is there is read, in whichever bytes. -/
theorem Gives.heard {α : Type} {F : Form α} {bs : Bytes} {a : α} (hr : F.Reads bs a) (hs : s.recvLost = false) :
    ∃ s' : Local H.sig, Gives (fromReaderFramed F : Act H α) s a s' ∧ s'.recvLost = false ∧ s'.sendLost = s.sendLost ∧
      s'.world = s.world ∧ s'.got = s.got ++ [F.msg a] :=
  ⟨_, Gives.then (Gives.recv hs hr.1 hr.2) (Gives.then (Gives.note _ _) (Gives.pure a _)), hs, rfl, rfl,
    by simp [Proc.Event.got?]⟩

/-- A file of any size can be received, if the buffer is as large. -/
theorem Gives.copyIn_all {h : Place} {n : Node} (size : UInt64) (hs : s.recvLost = false) (hn : s.world h = some n) :
    ∃ (s' : Local H.sig) (n' : Node), Gives (Qcp.copyIn size.toNat h size.toNat : Act H _) s (.ok size.toNat) s' ∧
      s'.recvLost = false ∧ s'.world h = some n' ∧ s'.got = s.got := by
  by_cases h0 : size.toNat = 0
  · rw [h0]
    refine ⟨_, n, Gives.copyBuf_none ?_ Gives.flushFile, hs, hn, by simp⟩
    rw [if_pos (Nat.le_refl 0)]
    exact Gives.pure _ s
  · have hne : List.replicate size.toNat (0 : UInt8) ≠ [] := by
      rw [Ne, List.replicate_eq_nil_iff]
      exact h0
    obtain ⟨w, hw, hg⟩ := Gives.copyIn hne (by rw [List.length_replicate]) hs hn
    rw [List.length_replicate] at hg
    exact ⟨_, _, hg, hs, hw, by simp [Proc.Event.got?]⟩

/-- Metadata with a time that is none cannot be given to a file. -/
theorem reaches_updateMetadata {h : Place} {n : Node} {metadata : List TaggedData} {α : Type} {k : Unit → Act H α}
    (hc : Changes.collect metadata = none) (hn : s.world h = some n) :
    Reaches (fun c => c.1 = .ret (.error (.panicked overflowText)) ∧ c.2.got = s.got)
      ((Qcp.updateMetadata h metadata >>= k : Act H α), s) := by
  have hmeta : H.sem s.world (.fileMetadata h) (.ok n.info) s.world :=
    ⟨rfl, fun m hm => by cases hm; exact ⟨n, hn, rfl⟩⟩
  unfold Qcp.updateMetadata
  rw [Task.bind_assoc]
  apply Gives.reaches (Gives.asked hmeta)
  rw [Task.bind_assoc]
  apply Gives.reaches (Gives.pure _ _)
  rw [hc]
  exact Reaches.now ⟨rfl, by simp⟩

/-- **A trailer with such metadata is one too many**, for either side. -/
theorem reaches_trailer {h : Place} {n : Node} {trailer : FileTrailer} {tb : Bytes} {α : Type} {k : Unit → Act H α}
    (ht : FileTrailer.form.Reads tb trailer) (hbad : ¬ trailer.TimesFit) (hs : s.recvLost = false)
    (hn : s.world h = some n) :
    Reaches (fun c => c.1 = .ret (.error (.panicked overflowText)) ∧ c.2.got = s.got ++ [.fileTrailer trailer])
      ((do
        let trailer ← fromReaderFramed FileTrailer.form
        Act.ofExcept .io (← TokioFile.flush h)
        Qcp.updateMetadata h trailer.toV2.metadata >>= k : Act H α), s) := by
  obtain ⟨s', hg, hs', -, hw, hgot⟩ := Gives.heard ht hs
  apply Gives.reaches hg
  apply Gives.reaches Gives.flushFile
  apply Gives.reaches (Gives.pure _ _)
  have hnone : Changes.collect trailer.toV2.metadata = none := by
    by_contra hsome
    exact hbad ((Changes.collect_ne_none_iff trailer).1 hsome)
  have hn' : (ask (.flushFile h) (.ok ()) s'.world s').world h = some n := by
    rw [ask_world, hw, hn]
  obtain ⟨c, hc, hret, hgot'⟩ := reaches_updateMetadata hnone hn'
  refine ⟨c, hc, hret, ?_⟩
  rw [hgot', got_ask, hgot]
  rfl

end Runs

/-- A build with or without overflow checks, and its buffer. -/
def buildWith (overflowChecks : Bool) (buffer : UInt64) : SessionCommandInner :=
  ⟨.level 1, { Configuration.systemDefault with ioBufferSize := buffer }, overflowChecks⟩

section Crash

variable {header : FileHeader} {trailer : FileTrailer} {hb tb : Bytes}

/-- Where nothing is a file can be made, whatever its header asks for. -/
theorem Gives.created {s : Local oneHost.sig} (path : Path) (header : FileHeaderV2) (hw : s.world 0 = none) :
    ∃ (s' : Local oneHost.sig) (n : Node), Gives (Qcp.createOrTruncate path header : Act oneHost _) s (.ok 0) s' ∧
      s'.recvLost = s.recvLost ∧ s'.sendLost = s.sendLost ∧ s'.world 0 = some n ∧ s'.got = s.got := by
  have hnone : oneHost.sem s.world (.metadata path) (.error ⟨.notFound, []⟩) s.world := ⟨rfl, nofun⟩
  have hnew : oneHost.sem s.world (.openWrite path (appliedMode oneHost header.metadata)) (.ok 0)
      (s.world.put 0 ⟨⟨.file, 0, oneHost.createMode (appliedMode oneHost header.metadata), none, none⟩, []⟩) :=
    ⟨rfl, _, hw ▸ .created none none, rfl⟩
  exact ⟨_, _, Gives.createOrTruncate (.error _) hnone nofun hnew, rfl, rfl,
    by rw [ask_world]; exact World.put_same .., by simp⟩

/-- **A client panics** at a sum that is too large, in a build that checks it, and at a time that is none. -/
theorem get_panics (checks : Bool) (hh : FileHeader.form.Reads hb header) (ht : FileTrailer.form.Reads tb trailer)
    (hbad : (checks = true ∧ ¬ header.SumFits) ∨ (checks = false ∧ ¬ trailer.TimesFit)) :
    Reaches (fun c => (∃ t, c.1 = .ret (.error (.panicked t))) ∧ Only header trailer c.2.got)
      ((GetHandler.sendImpl (buildWith checks header.toV2.size) fetching : Act oneHost RequestResult),
        Local.init fun _ => none) := by
  have hok : Response.form.Fits okResponse := by decide
  refine Gives.reaches (Gives.writer (F := Command.form) (a := .get ⟨"f".toList⟩) (by decide) rfl) ?_
  apply Gives.reaches Gives.flushed
  apply Gives.reaches (Gives.reader hok (Response.readsBack_of_fits okResponse hok) rfl)
  apply Gives.reaches (Gives.pure _ _)
  obtain ⟨s1, hg1, hr1, -, hw1, hgot1⟩ :=
    Gives.heard hh (s := hear Response.form okResponse ((Local.init (S := oneHost.sig)
    fun _ => none).push (.sent (.command (.get ⟨"f".toList⟩))))) rfl
  apply Gives.reaches hg1
  obtain ⟨s2, n, hg2, hr2, -, hw2, hgot2⟩ := Gives.created (s := s1) "f".toList header.toV2 (by rw [hw1]; rfl)
  apply Gives.reaches hg2
  apply Gives.reaches (Gives.pure _ _)
  have hgot : s2.got = [.response okResponse, .fileHeader header] := by
    rw [hgot2, hgot1, got_hear]
    rfl
  rcases hbad with ⟨rfl, hsum⟩ | ⟨rfl, htimes⟩
  · refine Reaches.now ⟨⟨"attempt to add with overflow".toList, ?_⟩, ?_⟩
    · unfold progressBarFor
      rw [if_pos]
      · rfl
      · unfold FileHeader.SumFits at hsum
        simpa [buildWith] using hsum
    · show Only header trailer s2.got
      rw [hgot]
      simp [Only]
  · apply Gives.reaches (Gives.pure _ _)
    obtain ⟨s3, n3, hg3, hr3, hw3, hgot3⟩ := Gives.copyIn_all (s := s2) header.toV2.size (hr2.trans hr1) hw2
    apply Gives.reaches hg3
    apply Gives.reaches (Gives.pure _ _)
    obtain ⟨c, hc, hret, hgot4⟩ := reaches_trailer ht htimes hr3 hw3
    refine ⟨c, hc, ⟨_, hret⟩, ?_⟩
    rw [hgot4, hgot3, hgot]
    simp [Only]

/-- **A server panics** at such a time. -/
theorem put_panics (hh : FileHeader.form.Reads hb header) (ht : FileTrailer.form.Reads tb trailer)
    (hbad : ¬ trailer.TimesFit) :
    Reaches (fun c => (∃ t, c.1 = .ret (.error (.panicked t))) ∧ Only header trailer c.2.got)
      ((PutHandler.handleImpl (buildWith false header.toV2.size) ⟨Posix.dot, []⟩ : Act oneHost Unit),
        Local.init fun _ => none) := by
  have hok : Response.form.Fits okResponse := by decide
  apply Gives.reaches (a := some true) (Gives.pure _ _)
  obtain ⟨s1, hg1, hr1, hs1, hw1, hgot1⟩ := Gives.heard hh (s := Local.init (S := oneHost.sig) fun _ => none) rfl
  apply Gives.reaches hg1
  obtain ⟨s2, n, hg2, hr2, hs2, hw2, hgot2⟩ := Gives.created (s := s1) (Posix.push Posix.dot header.toV2.filename)
    header.toV2 (by rw [hw1]; rfl)
  apply Gives.reaches hg2
  apply Gives.reaches (Gives.writer hok (hs2.trans hs1))
  apply Gives.reaches Gives.flushed
  obtain ⟨s3, n3, hg3, hr3, hw3, hgot3⟩ := Gives.copyIn_all (s := s2.push (.sent (.response okResponse)))
    header.toV2.size (hr2.trans hr1) hw2
  apply Gives.reaches hg3
  obtain ⟨c, hc, hret, hgot4⟩ := reaches_trailer ht hbad hr3 hw3
  refine ⟨c, hc, ⟨_, hret⟩, ?_⟩
  have hgot : s2.got = [.fileHeader header] := by
    rw [hgot2, hgot1]
    rfl
  rw [hgot4, hgot3]
  simp [Only, hgot, Proc.Event.got?]

/-- **A header and a trailer are withstood exactly when the sum and the times are in range**; a server makes no sum. -/
theorem wire_values_withstood_iff (header : FileHeader) (trailer : FileTrailer) (hb tb : Bytes)
    (hh : FileHeader.form.Reads hb header) (ht : FileTrailer.form.Reads tb trailer) :
    (GetWithstands header trailer ↔ header.SumFits ∧ trailer.TimesFit) ∧
      (PutWithstands header trailer ↔ trailer.TimesFit) := by
  refine ⟨⟨fun h => ⟨?_, ?_⟩, fun h => getWithstands_of h.1 h.2⟩, ⟨fun h => ?_, putWithstands_of⟩⟩
  · by_contra hbad
    obtain ⟨⟨p, s⟩, hc, ⟨t, rfl⟩, ho⟩ := get_panics true hh ht (.inl ⟨rfl, hbad⟩)
    exact h _ _ _ _ _ _ hc ho ⟨t, rfl⟩
  · by_contra hbad
    obtain ⟨⟨p, s⟩, hc, ⟨t, rfl⟩, ho⟩ := get_panics false hh ht (.inr ⟨rfl, hbad⟩)
    exact h _ _ _ _ _ _ hc ho ⟨t, rfl⟩
  · by_contra hbad
    obtain ⟨⟨p, s⟩, hc, ⟨t, rfl⟩, ho⟩ := put_panics hh ht hbad
    exact h _ _ _ _ _ _ hc ho ⟨t, rfl⟩

end Crash

/-- A header whose size and seventeen are no number. -/
def hugeHeader : FileHeader := .v1 ⟨18446744073709551599, "f".toList⟩

def emptyHeader : FileHeader := .v2 ⟨0, "f".toList, []⟩

/-- A trailer with a time that is one, or none. -/
def trailerAt (t : UInt64) : FileTrailer := .v2 ⟨[MetadataAttr.modificationTime.withUnsigned t]⟩

theorem hugeHeader_reads : FileHeader.form.Reads (FileHeader.codec.enc hugeHeader) hugeHeader :=
  ⟨by decide, FileHeader.readsBack_of_fits _ (fun _ ht => absurd ht List.not_mem_nil) (by decide)⟩

theorem emptyHeader_reads : FileHeader.form.Reads (FileHeader.codec.enc emptyHeader) emptyHeader :=
  ⟨by decide, FileHeader.readsBack_of_fits _ (fun _ ht => absurd ht List.not_mem_nil) (by decide)⟩

theorem trailerAt_reads (t : UInt64) (hf : FileTrailer.form.Fits (trailerAt t)) :
    FileTrailer.form.Reads (FileTrailer.codec.enc (trailerAt t)) (trailerAt t) :=
  ⟨hf, FileTrailer.readsBack_of_fits _ (fun _ ht => List.mem_singleton.1 ht ▸ Or.inr ⟨_, rfl⟩) hf⟩

theorem wire_values_withstood_iff_empty :
    (GetWithstands emptyHeader (trailerAt 1700000000) ↔ emptyHeader.SumFits ∧ (trailerAt 1700000000).TimesFit) ∧
      (PutWithstands emptyHeader (trailerAt 1700000000) ↔ (trailerAt 1700000000).TimesFit) :=
  wire_values_withstood_iff _ _ _ _ emptyHeader_reads (trailerAt_reads _ (by decide))

/-- **A size, and a time, that either side can be sent and that it does not withstand.** -/
theorem not_wire_values_withstood : ¬ GetWithstands hugeHeader (trailerAt 0) ∧
    ¬ GetWithstands emptyHeader (trailerAt 9223372036854775808) ∧
    ¬ PutWithstands emptyHeader (trailerAt 9223372036854775808) := by
  have hlate : ¬ (trailerAt 9223372036854775808).TimesFit := by
    intro h
    have := h _ (List.mem_singleton_self _) (.inr rfl) 9223372036854775808 rfl
    revert this
    decide
  have hread : FileTrailer.form.Reads _ (trailerAt 9223372036854775808) := trailerAt_reads _ (by decide)
  refine ⟨fun h => ?_, fun h => ?_, fun h => ?_⟩
  · obtain ⟨⟨p, s⟩, hc, ⟨t, rfl⟩, ho⟩ := get_panics true hugeHeader_reads (trailerAt_reads 0 (by decide))
      (.inl ⟨rfl, by unfold FileHeader.SumFits; decide⟩)
    exact h _ _ _ _ _ _ hc ho ⟨t, rfl⟩
  · obtain ⟨⟨p, s⟩, hc, ⟨t, rfl⟩, ho⟩ := get_panics false emptyHeader_reads hread (.inr ⟨rfl, hlate⟩)
    exact h _ _ _ _ _ _ hc ho ⟨t, rfl⟩
  · obtain ⟨⟨p, s⟩, hc, ⟨t, rfl⟩, ho⟩ := put_panics emptyHeader_reads hread hlate
    exact h _ _ _ _ _ _ hc ho ⟨t, rfl⟩

end Qcp
