import Qcp.Completion
import Qcp.Destination
/-!
# Preserve — what becomes of a file's mode and times

The mode of a file goes ahead of it in its header, and with its times after it in its trailer if they are to be
preserved.  `collect_toTaggedData` says what a trailer changes, and `Left` what a receiver leaves: a mode as it was
when the file was opened, and then the changes of the trailer it has read.  `metadata_kept` says what that comes to
when a client is done, unless a part of the file was taken for its trailer.
-/
namespace Qcp

open Bare (Bytes Text Codec)
open Posix (Path)
open Proc (Pair View Local Steps Gives Reaches Ok Avoids)
open Frame (frame)

/-! ## Times -/

namespace SystemTime

/-- A time without what there is of its second. -/
def truncated (t : SystemTime) : SystemTime := ⟨t.seconds, 0⟩

/-- What a time becomes on its way: one before the epoch becomes the epoch. -/
def arrived (t : SystemTime) : SystemTime := if t.seconds < 0 then 0 else t.truncated

theorem arrived_of_le {t : SystemTime} (h : 0 ≤ t.seconds) : t.arrived = t.truncated := if_neg (Int64.not_lt.2 h)

/-- **A time that is sent is a time when it is read.** -/
theorem fromUnix_toUnix (t : SystemTime) : fromUnix t.toUnix = some t.arrived := by
  unfold toUnix arrived
  by_cases ht : t.seconds < 0
  · simp only [if_pos ht]
    rfl
  · have hlt : t.seconds.toUInt64.toNat < 2 ^ 63 := by
      rw [Int64.toNat_toUInt64_of_le (Int64.not_lt.1 ht)]
      exact t.seconds.toNatClampNeg_lt
    simp only [if_neg ht]
    unfold fromUnix
    rw [if_pos hlt, Int64.toInt64_toUInt64]
    rfl

end SystemTime

/-! ## Metadata, there and back -/

/-- The permissions of a mode are what a mode is on the wire. -/
theorem modeOf_toUInt64 (m : UInt32) : modeOf (m &&& 0o777).toUInt64 = m &&& 0o777 := by
  have hmask : (0o777 : UInt64).toUInt32 = 0o777 := by decide
  unfold modeOf
  rw [UInt64.toUInt32_and, UInt32.toUInt32_toUInt64, hmask, UInt32.and_assoc, UInt32.and_self]

namespace Changes

theorem add_newMode (c : Changes) (info : Metadata) : c.add (MetadataAttr.newMode info.mode) =
    some { c with permissions := some info.mode, changed := true } := by
  have hmode : modeOf info.mode.toUInt64 = info.mode := modeOf_toUInt64 info.permissions
  show some { c with permissions := some (modeOf info.mode.toUInt64), changed := true } = _
  rw [hmode]

theorem add_newAtime (c : Changes) (t : SystemTime) : c.add (MetadataAttr.newAtime t) =
    some { c with accessed := some t.arrived, changed := true } := by
  show (SystemTime.fromUnix t.toUnix).map _ = _
  rw [SystemTime.fromUnix_toUnix]
  rfl

theorem add_newMtime (c : Changes) (t : SystemTime) : c.add (MetadataAttr.newMtime t) =
    some { c with modified := some t.arrived, changed := true } := by
  show (SystemTime.fromUnix t.toUnix).map _ = _
  rw [SystemTime.fromUnix_toUnix]
  rfl

/-- **What is sent of a file to preserve it changes its mode, and the times there are.** -/
theorem collect_toTaggedData (info : Metadata) : collect (info.toTaggedData true) =
    some ⟨info.accessed.map .arrived, info.modified.map .arrived, some info.mode, true⟩ := by
  unfold collect Metadata.toTaggedData
  rw [if_pos rfl, List.foldlM_cons, add_newMode]
  cases info.accessed with
  | none =>
    cases info.modified with
    | none => rfl
    | some m => simp [add_newMtime, empty]
  | some a =>
    cases info.modified with
    | none => simp [add_newAtime, empty]
    | some m => simp [add_newAtime, add_newMtime, empty]

end Changes

/-- The mode a header asks for, with the user's mask applied. -/
theorem appliedMode_toTaggedData (H : Host) (info : Metadata) :
    appliedMode H (info.toTaggedData false) = some (info.mode &&& ~~~H.umask) := by
  have hmode : modeOf info.mode.toUInt64 = info.mode := modeOf_toUInt64 info.permissions
  show some (modeOf info.mode.toUInt64 &&& ~~~H.umask) = _
  rw [hmode]

/-! ## What a receiver leaves -/

section Leaves

variable {H : Host} {w : World}

/-- It sets the times of a file. -/
def Op.SetsTimes : Op → Prop
  | setTimes _ _ _ => True
  | _ => False

theorem timesSet_of_not_setsTimes (d : List (Σ op, Op.Ret op)) (op : Op) (r : op.Ret) (hop : ¬ op.SetsTimes)
    (hd : timesSet d = []) : timesSet (d ++ [⟨op, r⟩]) = [] := by
  rw [timesSet_append, hd]
  cases op with
  | setTimes h a m => exact absurd trivial hop
  | _ => rfl

/-- The mode of a file that was opened: a new one has what its header asks for, another one its own. -/
def openedMode (H : Host) (header : FileHeader) : Option Node → UInt32
  | none => H.createMode (appliedMode H header.toV2.metadata)
  | some n => n.info.permissions

theorem Host.Opened.permissions {header : FileHeader} {o : Option Node} {n : Node}
    (h : H.Opened (appliedMode H header.toV2.metadata) o n) :
    Cleared (openedMode H header o) n.info.permissions := by
  cases h with
  | created => exact .refl _
  | truncated n permissions modified hd hp => exact hp

/-- **What the receiver of a file leaves**: one opened file, with the mode it was opened with but for the bits that
writing clears, changed as its trailer has it; no times are set if that has nothing. -/
structure Left (H : Host) (w : World) (header : FileHeader) (trailer : FileTrailer) (v : View H.sig) : Prop where
  got : ∃ m, v.got = [m, .fileHeader header, .fileTrailer trailer]
  node : ∃ path c info bs, opens v.done = [(path, H.place path)] ∧ Changes.collect trailer.toV2.metadata = some c ∧
    v.world (H.place path) = some ⟨c.apply info, bs⟩ ∧
    Cleared (openedMode H header (w (H.place path))) info.permissions ∧ (c.changed = false → timesSet v.done = [])

def Leaves (H : Host) (w : World) (v : View H.sig) : Prop := ∃ header trailer, Left H w header trailer v

/-- While a file is received no times are set. -/
theorem Ok.received {I : View H.sig → Prop} {v : View H.sig} {Q : Except IoError Nat → View H.sig → Prop}
    {limit cap : Nat} {h : Place} {n : Node} (hn : v.world h = some n) (hv : timesSet v.done = [])
    (hi : ∀ bs l n' d, I { v with world := v.world.put h n', taken := v.taken ++ bs, done := v.done ++ d, lost := l })
    (hok : ∀ bs l n' d, Host.Wrote n bs n' → opens d = [] → timesSet (v.done ++ d) = [] → Q (.ok bs.length)
      { v with world := v.world.put h n', taken := v.taken ++ bs, done := v.done ++ d, lost := l })
    (herr : ∀ e bs l n' d, Q (.error e)
      { v with world := v.world.put h n', taken := v.taken ++ bs, done := v.done ++ d, lost := l }) :
    Ok I Q (Qcp.copyIn limit h cap) v := by
  have havoids : Avoids (S := H.sig) Op.SetsTimes (Qcp.copyIn limit h cap : Act H _) :=
    Avoids.copyIn limit h cap (fun hs => hs) fun _ hs => hs
  apply Ok.avoids havoids timesSet_of_not_setsTimes hv
  apply Ok.copyIn hn
  · exact fun bs l n' d _ => hi bs l n' d
  · exact fun bs l n' d hw _ _ _ hd ht => hok bs l n' d hw hd ht
  · exact fun e bs l n' d _ _ => herr e bs l n' d

/-- **The client of a GET leaves its file so.** -/
theorem Ok.getClient_leaves (inner : SessionCommandInner) (job : CopyJobSpec) (w : World) :
    Ok (fun _ => True) (fun _ v => Leaves H w v) (GetHandler.sendImpl inner job) (View.init w) := by
  apply Ok.then (Ok.writer trivial (fun _ _ => trivial) fun _ => ?_)
  apply Ok.then (Ok.flushed trivial ?_)
  apply Ok.then (Ok.reader (fun _ _ => trivial) (fun _ _ _ _ _ => trivial) fun rb r _ _ _ => ?_)
  apply Ok.then (Ok.intoResult trivial fun _ => ?_)
  apply Ok.then (Ok.reader (fun _ _ => trivial) (fun _ _ _ _ _ => trivial) fun hb header _ _ _ => ?_)
  apply Ok.then (Ok.createOrTruncate trivial (fun _ => trivial) (fun _ _ => Ok.fail trivial) fun found o wo _ ho => ?_)
  generalize destPath job.destination.filename header.toV2.filename found = path at ho
  refine ⟨trivial, ?_⟩
  cases o with
  | error e => exact Ok.fail trivial
  | ok file =>
    obtain ⟨rfl, n, hopen, rfl⟩ := ho
    apply Ok.then (Ok.pure trivial ?_)
    apply Ok.then (Ok.progressBarFor trivial ?_)
    apply Ok.then (Ok.received (World.put_same w _ n) rfl (fun _ _ _ _ => trivial)
      (fun bs l n' d hw hd ht => ?_) fun e bs l n' d => Ok.fail trivial)
    apply Ok.then (Ok.pure trivial ?_)
    apply Ok.finish (World.put_same _ _ n') (fun _ _ _ _ _ _ _ => trivial)
    intro tb t c d' _ _ hc hd' hset
    refine Ok.pure trivial ⟨header, t, ⟨_, rfl⟩, path, c, n'.info, n'.content, ?_, hc, ?_, ?_, ?_⟩
    · exact (opens_more hd').trans (opens_more hd)
    · exact World.put_same ..
    · exact hopen.permissions.trans hw.2.2
    · intro hno
      show timesSet (_ ++ _) = []
      rw [timesSet_append, hset hno, List.append_nil]
      exact ht

/-- It has consented twice. -/
def Twice (ms : List Msg) : Prop := [.response okResponse, .response okResponse] <+: ms

theorem not_twice_of_length {ms : List Msg} (h : ms.length ≤ 1) : ¬ Twice ms := fun ht => by
  have := ht.length_le
  simp only [List.length_cons, List.length_nil] at this
  omega

/-- All along a stream: whoever has consented twice has left a file. -/
def LeavesOnTwice (H : Host) (w : World) (v : View H.sig) : Prop := Twice v.tried → Leaves H w v

theorem leavesOnTwice_of_length {v : View H.sig} (h : v.tried.length ≤ 1) : LeavesOnTwice H w v := fun ht =>
  absurd ht (not_twice_of_length h)

/-- A refusal is not consent. -/
theorem Ok.refusal_leaves {err : Refusal} {v : View H.sig} (herr : err ≠ .status .ok)
    (hv : v.tried = [] ∨ v.tried = [.response okResponse]) :
    Ok (LeavesOnTwice H w) (fun _ _ => True) (Qcp.errorAndReturn err) v := by
  apply Ok.errorAndReturn herr
  · apply leavesOnTwice_of_length
    rcases hv with hv | hv <;> simp [hv]
  · intro r sent _ hne ht
    exfalso
    rcases hv with hv | hv
    · exact not_twice_of_length (by simp [hv]) ht
    · have ht : Twice (v.tried ++ [.response r]) := ht
      rw [hv] at ht
      have hr := (List.cons_prefix_cons.1 (List.cons_prefix_cons.1 ht).2).1
      cases hr
      exact hne rfl
  · exact fun _ => trivial

/-- **A server of a PUT that consents for the second time has left its file so.** -/
theorem Ok.putServer_leaves (inner : SessionCommandInner) (args : Get2Args) (w : World) (c : Command) (cb : Bytes) :
    Ok (LeavesOnTwice H w) (fun _ _ => True) (PutHandler.handleImpl inner args) (heard w c cb) := by
  have first : ∀ v : View H.sig, v.tried = [] → LeavesOnTwice H w v :=
    fun v hv => leavesOnTwice_of_length (by simp [hv])
  have second : ∀ v : View H.sig, v.tried = [.response okResponse] → LeavesOnTwice H w v := fun v hv =>
    leavesOnTwice_of_length (by simp [hv])
  have havoids : Avoids (S := H.sig) Op.SetsTimes (PutHandler.appendFilename args.filename : Act H _) :=
    Avoids.appendFilename (fun _ hs => hs) _
  apply Ok.then
  apply Ok.avoids havoids timesSet_of_not_setsTimes rfl
  apply Ok.appendFilename _ (fun d _ => first _ rfl)
  intro r d hd ht
  cases r with
  | none => exact Ok.refusal_leaves (fun h => by cases h) (Or.inl rfl)
  | some append =>
    apply Ok.then (Ok.reader (fun _ _ => first _ rfl) (fun _ _ _ _ _ => first _ rfl) fun hb header _ _ _ => ?_)
    apply Ok.then (Ok.createOrTruncate (first _ rfl) (fun _ => first _ rfl)
      (fun _ _ => Ok.refusal_leaves (fun h => by cases h) (Or.inl rfl)) fun found o wo _ ho => ?_)
    generalize destPath _ header.toV2.filename found = path at ho
    refine ⟨first _ rfl, ?_⟩
    cases o with
    | error e => exact Ok.refusal_leaves (fun h => by cases h) (Or.inl rfl)
    | ok file =>
      obtain ⟨rfl, n, hopen, rfl⟩ := ho
      apply Ok.then (Ok.sendOk (first _ rfl) (fun _ => second _ rfl) ?_)
      apply Ok.then (Ok.flushed (second _ rfl) ?_)
      have hset : ∀ given, timesSet (d ++ [⟨.metadata given, found⟩,
          ⟨.openWrite path (appliedMode H header.toV2.metadata), .ok (H.place path)⟩]) = [] := fun given => by
        rw [timesSet_append, show timesSet d = [] from ht]
        rfl
      apply Ok.then (Ok.received (World.put_same w _ n) (hset _) (fun _ _ _ _ => second _ rfl)
        (fun bs l n' d' hw hd' ht' => ?_) fun e bs l n' d' => Ok.refusal_leaves (fun h => by cases h) (Or.inr rfl))
      apply Ok.finish (World.put_same _ _ n') (fun _ _ _ _ _ _ _ => second _ rfl)
      intro tb t ch d2 _ _ hc hd2 hset2
      -- the last word comes once all is done
      have last : ∀ v : View H.sig, v.got = [.command c, .fileHeader header, .fileTrailer t] →
          opens v.done = [(path, H.place path)] → v.world (H.place path) = some ⟨ch.apply n'.info, n'.content⟩ →
          (ch.changed = false → timesSet v.done = []) → Leaves H w v :=
        fun v hg ho hw' hs => ⟨header, t, ⟨_, hg⟩, path, ch, n'.info, n'.content, ho, hc, hw',
          hopen.permissions.trans hw.2.2, hs⟩
      have hopens : ∀ given, opens (d ++ [⟨.metadata given, found⟩,
          ⟨.openWrite path (appliedMode H header.toV2.metadata), .ok (H.place path)⟩] ++ d' ++ d2) =
          [(path, H.place path)] := fun given => by
        rw [opens_more hd2, opens_more hd', opens_append, hd]
        rfl
      have hsets : ∀ e : List (Σ op, Op.Ret op), timesSet (e ++ d') = [] → ch.changed = false →
          timesSet (e ++ d' ++ d2) = [] := fun e he hno => by
        rw [timesSet_append, he, hset2 hno]
        rfl
      apply Ok.then (Ok.sendOk (second _ rfl) (fun _ _ => last _ rfl (hopens _) (World.put_same ..) (hsets _ ht')) ?_)
      exact Ok.flushed (fun _ => last _ rfl (hopens _) (World.put_same ..) (hsets _ ht')) trivial

theorem Answered.of_twice {rest : List Msg → Prop} {ms : List Msg} (h : Answered rest ms) (ht : Twice ms) :
    ∃ ms', rest (.response okResponse :: ms') := by
  cases h with
  | nothing => exact absurd ht (not_twice_of_length (by simp))
  | refused r hfit hne => exact absurd ht (not_twice_of_length (by simp))
  | accepted ms h =>
    obtain ⟨ms', rfl⟩ := (List.cons_prefix_cons.1 ht).2
    exact ⟨ms', h⟩

/-- A file is not sent with a response in front. -/
theorem not_fileSends_response {cap : Nat} {content : Bytes} {header : FileHeader} {trailer : FileTrailer}
    {r : Response} {ms : List Msg} : ¬ FileSends cap content header trailer (.response r :: ms) := fun h => by cases h

theorem Ok.commandHandler_leaves (inner : SessionCommandInner) (w : World) (c : Command) (cb : Bytes) :
    Ok (LeavesOnTwice H w) (fun _ _ => True) (Qcp.commandHandler inner c) (heard w c cb) := by
  -- the other handlers consent once
  have other : (∀ v, Served H inner w cb v c → ¬ Twice v.tried) →
      Ok (LeavesOnTwice H w) (fun _ _ => True) (Qcp.commandHandler inner c) (heard w c cb) := fun h =>
    (Ok.commandHandler inner w cb c).mono (fun v hs ht => absurd ht (h v hs)) fun _ _ _ h => h
  cases c with
  | put args => exact Ok.putServer_leaves inner ⟨args.filename, []⟩ w _ cb
  | put2 args => exact Ok.putServer_leaves inner args w _ cb
  | get args =>
    apply other
    intro v hs ht
    obtain ⟨ms, n, name, -, h⟩ := hs.tried.of_twice ht
    exact not_fileSends_response h
  | get2 args =>
    apply other
    intro v hs ht
    obtain ⟨ms, n, name, -, h⟩ := hs.tried.of_twice ht
    exact not_fileSends_response h
  | createDirectory args =>
    apply other
    intro v hs ht
    obtain ⟨ms, h, -⟩ := hs.tried.of_twice ht
    cases h
  | setMetadata args =>
    apply other
    intro v hs ht
    obtain ⟨ms, n, -, h, -⟩ := hs.tried.of_twice ht
    cases h
  | list args =>
    apply other
    intro v hs ht
    obtain ⟨ms, ps, qs, -, -, -, h, -⟩ := hs.tried.of_twice ht
    cases qs <;> cases h

/-- **A server that consents twice on one stream has left a file so.** -/
theorem Ok.handleStream_leaves (inner : SessionCommandInner) (w : World) :
    Ok (LeavesOnTwice H w) (fun _ _ => True) (Qcp.handleStream inner) (View.init w) := by
  apply (Ok.handleStream_of inner w fun c cb => Ok.commandHandler_leaves inner w c cb).mono
  · rintro v (hv | ⟨c, cb, -, -, h⟩) ht
    · exact absurd ht (not_twice_of_length (by simp [hv]))
    · exact h ht
  · exact fun _ _ _ h => h

end Leaves

/-! ## The trailer -/

/-- **The trailer that was read is the sender's**, unless a part of the file was taken for it: its front by a receiver
without a buffer, or what it has past its length if no trailer was sent. -/
theorem Stored.trailer_sent {H : Host} {v : View H.sig} {cap capS : Nat} {before payload content : Bytes}
    {hdr header : FileHeader} {t trailer : FileTrailer} {ms : List Msg} (hst : Stored H cap before hdr payload t v)
    (hsends : FileSends capS content header trailer ms)
    (hback : FileHeader.form.Fits header → FileHeader.form.ReadsBack header)
    (hplain : ∀ d ∈ trailer.toV2.metadata, d.Plain) (hbytes : ∀ y, v.taken = before ++ y → y <+: ms.flatMap Msg.enc)
    (hclear : Unmistakable cap header.toV2.size.toNat content trailer)
    (hend : (∃ t, .fileTrailer t ∈ ms) ∨ ¬ StartsWithTrailer (content.drop header.toV2.size.toNat)) :
    hdr = header ∧ t = trailer := by
  obtain ⟨hb, tb, htaken, hhr, htr⟩ := hst.taken
  obtain ⟨rfl, -, cs, hcs, hcase⟩ := hsends.received hback hhr (hbytes _ htaken)
  refine ⟨rfl, ?_⟩
  by_cases hlen : payload.length = hdr.toV2.size.toNat
  · rcases hcase with ⟨rfl, hp⟩ | ⟨rfl, htfit, -, -, hclen, hp⟩
    · -- no trailer was sent
      exfalso
      rcases hend with ⟨t', hmem⟩ | hend
      · simp at hmem
      · apply hend
        obtain ⟨z, hz⟩ := hp.trans hcs
        refine ⟨tb, t, htr, z, ?_⟩
        rw [← hz, List.append_assoc, ← hlen, List.drop_left]
    · exact (trailer_of_sent (hlen.trans hclen.symm) htr htfit hplain hp).2.1
  · -- nothing of the file was received
    exfalso
    have hcap : cap = 0 := hst.whole.resolve_left hlen
    have hnil : payload = [] := hst.zero hcap
    have hsize : hdr.toV2.size.toNat ≠ 0 := fun h0 => hlen (by rw [hnil, h0]; rfl)
    rw [hnil, List.nil_append] at hcase
    rcases hclear with h | h | h
    · exact h hcap
    · exact hsize h
    · apply h
      refine ⟨tb, t, htr, ?_⟩
      rcases hcase with ⟨-, hp⟩ | ⟨-, -, hzero, hall, hclen, hp⟩
      · exact (hp.trans hcs).trans (List.prefix_append _ _)
      · rcases hall with h0 | hall
        · rw [hzero h0] at hclen
          exact absurd hclen.symm hsize
        · rwa [hall] at hp

/-! ## Preserved or not -/

/-- What a file's metadata is to be if it is preserved: the source's permissions, and its times to the second. -/
structure Preserved (source info : Metadata) : Prop where
  mode : info.permissions = source.permissions &&& 0o777
  accessed : ∀ t, source.accessed = some t → 0 ≤ t.seconds → info.accessed = some t.truncated
  modified : ∀ t, source.modified = some t → 0 ≤ t.seconds → info.modified = some t.truncated

/-- What is to become of it otherwise: no times are set, and only a new file gets the source's permissions, masked. -/
structure Unpreserved (H : Host) (source : Metadata) (before : Option Node) (info : Metadata)
    (done : List (Σ op, Op.Ret op)) : Prop where
  times : timesSet done = []
  created : before = none → info.permissions = source.permissions &&& 0o777 &&& ~~~H.umask
  existing : ∀ n, before = some n → info.permissions = n.info.permissions

/-- **The metadata of the one file that was written is what it is to be.** -/
def MetadataKept {H : Host} (preserve : Bool) (source : Metadata) (before : World) (v : View H.sig) : Prop :=
  ∃ path n, opens v.done = [(path, H.place path)] ∧ v.world (H.place path) = some n ∧
    if preserve then Preserved source n.info else Unpreserved H source (before (H.place path)) n.info v.done

/-- **Writing takes nothing from the mode of a file that is not preserved**: no set-uid and no set-gid bit, wherever a
file is opened. -/
def Lasting {H : Host} (preserve : Bool) (before : World) (v : View H.sig) : Prop :=
  preserve = false → ∀ path h n, (path, h) ∈ opens v.done → before h = some n → n.info.permissions &&& 0o6000 = 0

/-- The permissions of a mode hold neither bit. -/
theorem plain_mode (m mask : UInt32) : m &&& 0o777 &&& mask &&& 0o6000 = 0 := by
  rw [UInt32.and_assoc m, UInt32.and_comm 0o777 mask, ← UInt32.and_assoc m, UInt32.and_assoc (m &&& mask)]
  exact UInt32.and_zero

/-- What a trailer changes if it is to preserve a file. -/
theorem preserved_apply (info source : Metadata) :
    Preserved source (Changes.apply ⟨source.accessed.map .arrived, source.modified.map .arrived, some source.mode, true⟩
      info) := by
  constructor
  · rfl
  · intro t ht hle
    simp [Changes.apply, ht, SystemTime.arrived_of_le hle]
  · intro t ht hle
    simp [Changes.apply, ht, SystemTime.arrived_of_le hle]

/-- **What is left with a sender's own header and trailer** is the metadata as it is to be. -/
theorem Left.metadataKept {H : Host} {w : World} {v : View H.sig} {compat : Compatibility} {info : Metadata}
    {name : Text} {preserve : Bool} (hc : compat.supports .get2Put2 = true)
    (h : Left H w (.forFile compat info name) (.forFile compat info preserve) v) (hlast : Lasting preserve w v) :
    MetadataKept preserve info w v := by
  obtain ⟨path, c, old, bs, hopens, hcollect, hw, hmode, hset⟩ := h.node
  refine ⟨path, _, hopens, hw, ?_⟩
  unfold FileTrailer.forFile at hcollect
  unfold FileHeader.forFile at hmode
  rw [if_pos hc] at hcollect hmode
  cases preserve with
  | true =>
    cases (Changes.collect_toTaggedData info).symm.trans hcollect
    exact preserved_apply old info
  | false =>
    cases (show some Changes.empty = some c from hcollect)
    refine ⟨hset rfl, fun hnone => ?_, fun n hn => ?_⟩
    · rw [hnone] at hmode
      have hnew : H.createMode (appliedMode H (info.toTaggedData false)) =
          info.permissions &&& 0o777 &&& ~~~H.umask := by
        rw [appliedMode_toTaggedData]
        show info.mode &&& ~~~H.umask &&& ~~~H.umask = _
        rw [UInt32.and_assoc, UInt32.and_self]
        rfl
      have hmode : Cleared (H.createMode (appliedMode H (info.toTaggedData false))) old.permissions := hmode
      rw [hnew] at hmode
      exact hmode.eq_of_plain (plain_mode _ _)
    · rw [hn] at hmode
      refine hmode.eq_of_plain (hlast rfl path _ n ?_ hn)
      rw [hopens]
      exact List.mem_singleton_self _

/-! ## Both ways -/

namespace Way

/-- **No part of the file can be taken for its trailer**: not its front by a receiver without a buffer, and, if it is
asked for, not what it has past its length. -/
structure Clear (inner inner' : SessionCommandInner) (job : CopyJobSpec) (n : Node) (way : Way) : Prop where
  front : Unmistakable (way.bufferSize inner inner') n.info.len.toNat n.content (way.trailer inner inner' job n)
  rest : way = .get → ¬ StartsWithTrailer (n.content.drop n.info.len.toNat)

variable {G H : Host}

/-- The file that was written has the metadata it is to have. -/
def MetadataKept (job : CopyJobSpec) (source : Metadata) (u w : World) (x : Joint G H) : Way → Prop
  | get => Qcp.MetadataKept job.preserve source u x.1.2.view
  | put => Qcp.MetadataKept job.preserve source w x.2.2.view

/-- Writing takes nothing from the mode of the file that was there. -/
def Lasting (job : CopyJobSpec) (u w : World) (x : Joint G H) : Way → Prop
  | get => Qcp.Lasting job.preserve u x.1.2.view
  | put => Qcp.Lasting job.preserve w x.2.2.view

end Way

section Both

variable {G H : Host} {inner inner' : SessionCommandInner} {job : CopyJobSpec} {u w : World} {x : Joint G H} {n : Node}

theorem get_metadataKept (hc : inner.compat.supports .get2Put2 = true) (hc' : inner'.compat.supports .get2Put2 = true)
    (hr : Pair.Reach (GetHandler.sendImpl inner job) (handleStream inner') u w x) {a : RequestResult}
    (ha : x.1.1 = .ret (.ok a)) (hn : w (H.place job.source.filename) = some n)
    (hclear : Way.Clear inner inner' job n .get) (hlast : Qcp.Lasting job.preserve u x.1.2.view) :
    Qcp.MetadataKept job.preserve n.info u x.1.2.view := by
  obtain ⟨n', name, hdr, t, payload, tb, ms, h⟩ := get_exchange hr ha
  cases h.source.symm.trans hn
  have hsize := FileHeader.forFile_size inner'.compat n.info name
  obtain ⟨rfl, rfl⟩ := h.stored.trailer_sent h.sends
    (FileHeader.readsBack_of_fits _ (FileHeader.forFile_plain _ _ _)) (FileTrailer.forFile_plain _ _ _) h.bytes
    (by rw [hsize]; exact hclear.front) (Or.inr (by rw [hsize]; exact hclear.rest rfl))
  have hcs : Steps (GetHandler.sendImpl inner job, Local.init u) (.ret (.ok a), x.1.2) := ha ▸ (Pair.reach hr).1
  obtain ⟨hdr', t', hleft⟩ := (Ok.getClient_leaves inner job u).run_ok hcs
  obtain ⟨m, hm⟩ := hleft.got
  cases (show x.1.2.got = _ from hm).symm.trans h.got
  have htrailer : Way.trailer inner inner' job n .get = .forFile inner'.compat n.info job.preserve := by
    show FileTrailer.forFile inner'.compat n.info (inner.compat.supports .get2Put2 && job.preserve) = _
    rw [hc, Bool.true_and]
  rw [htrailer] at hleft
  exact hleft.metadataKept hc' hlast

theorem put_metadataKept (hc : inner.compat.supports .get2Put2 = true)
    (hr : Pair.Reach (PutHandler.sendImpl inner job) (handleStream inner') u w x) {a : RequestResult}
    (ha : x.1.1 = .ret (.ok a)) (hn : u (G.place job.source.filename) = some n)
    (hclear : Way.Clear inner inner' job n .put) (hlast : Qcp.Lasting job.preserve w x.2.2.view) :
    Qcp.MetadataKept job.preserve n.info w x.2.2.view := by
  obtain ⟨n', name, hdr, t, payload, ms, h⟩ := put_exchange hr ha
  cases h.source.symm.trans hn
  obtain ⟨rfl, rfl⟩ := h.stored.trailer_sent h.sends
    (FileHeader.readsBack_of_fits _ (FileHeader.forFile_plain _ _ _)) (FileTrailer.forFile_plain _ _ _) h.bytes
    (by rw [FileHeader.forFile_size]; exact hclear.front) (Or.inl h.whole)
  obtain ⟨hdr', t', hleft⟩ := (Ok.handleStream_leaves inner' w).run (Pair.reach hr).2.1 (by
    show Twice x.2.2.tried
    rw [h.tried]
    exact List.prefix_refl _)
  obtain ⟨m, hm⟩ := hleft.got
  cases (show x.2.2.got = _ from hm).symm.trans h.heard
  exact hleft.metadataKept hc hlast

end Both

/-- **When a client is done the file that was written has the metadata it is to have**, whatever was at the
destination, unless a part of the file could be taken for its trailer, or the file that was there could lose a bit of
its mode by being written to. -/
theorem metadata_kept (G H : Host) (inner inner' : SessionCommandInner) (job : CopyJobSpec) (u w : World) (way : Way)
    (x : Joint G H) (hc : inner.compat.supports .get2Put2 = true) (hc' : inner'.compat.supports .get2Put2 = true)
    (hr : Pair.Reach (way.sendImpl inner job) (handleStream inner') u w x) (a : RequestResult)
    (ha : x.1.1 = .ret (.ok a))
    (n : Node) (hn : way.source G H u w job = some n) (hclear : way.Clear inner inner' job n)
    (hlast : way.Lasting job u w x) : way.MetadataKept job n.info u w x := by
  cases way with
  | get => exact get_metadataKept hc hc' hr ha hn hclear hlast
  | put => exact put_metadataKept hc hr ha hn hclear hlast

/-! ## A run -/

/-- A file is given what changes. -/
theorem Gives.updateMetadata_changed {H : Host} {s : Local H.sig} {h : Place} {n : Node} {metadata : List TaggedData}
    {c : Changes} {mode : UInt32} (hn : s.world h = some n) (hc : Changes.collect metadata = some c)
    (hch : c.changed = true)
    (hm : c.permissions = some mode) : ∃ s', Gives (Qcp.updateMetadata h metadata : Act H _) s () s' ∧
      s'.taken = s.taken ∧ s'.got = s.got := by
  have hinfo : H.sem s.world (.fileMetadata h) (.ok n.info) s.world :=
    ⟨rfl, fun m hm => by cases hm; exact ⟨n, hn, rfl⟩⟩
  obtain ⟨w, hw, n', hn'⟩ : ∃ w, H.sem s.world (.setTimes h c.accessed c.modified) (.ok ()) w ∧ ∃ n', w h = some n' :=
    ⟨_, ⟨n, hn, rfl⟩, _, World.put_same ..⟩
  obtain ⟨w', hw'⟩ : ∃ w', H.sem w (.setFilePermissions h mode) (.ok ()) w' := ⟨_, n', hn', rfl⟩
  refine ⟨ask (.setFilePermissions h mode) (.ok ()) w' (ask (.setTimes h c.accessed c.modified) (.ok ()) w
    (ask (.fileMetadata h) (.ok n.info) s.world s)), ?_, ?_, ?_⟩
  · apply Gives.then (Gives.asked hinfo)
    apply Gives.then (Gives.pure _ _)
    simp only [hc, if_pos hch]
    apply Gives.then (Gives.asked (s := ask (.fileMetadata h) (.ok n.info) s.world s) hw)
    apply Gives.then (Gives.pure _ _)
    simp only [hm]
    apply Gives.then (Gives.asked (s := ask (.setTimes h c.accessed c.modified) (.ok ()) w _) hw')
    exact Gives.pure _ _
  · rw [taken_ask, taken_ask, taken_ask]
  · rw [got_ask, got_ask, got_ask]

theorem Gives.ensure {H : Host} {s : Local H.sig} {c : Bool} {text : Text} (hc : c = true) :
    Gives (Qcp.ensure c text : Act H Unit) s () s := by
  cases hc
  exact Gives.pure () s

/-- A file with times. -/
def datedInfo (len : UInt64) : Metadata := ⟨.file, len, 0o666, some ⟨1000, 5⟩, some ⟨2000, 7⟩⟩

/-- A world of one. -/
def dated (bs : Bytes) : World := fun h => if h = 0 then some ⟨datedInfo (UInt64.ofNat bs.length), bs⟩ else none

def maskedHost : Host := ⟨fun _ => 0, 0o022⟩

def atLevel2 (size : UInt64) : SessionCommandInner :=
  ⟨.level 2, { Configuration.systemDefault with ioBufferSize := size }, false⟩

def preserving : CopyJobSpec := { fetching with preserve := true }

def preservingCommand : Command := .get2 ⟨"f".toList, [CommandParam.preserveMetadata.tagged]⟩

def datedHeader (len : UInt64) : FileHeader := .forFile (.level 2) (datedInfo len) "f".toList

def datedTrailer (len : UInt64) : FileTrailer := .forFile (.level 2) (datedInfo len) true

/-- The server sends all of the file, and its trailer. -/
theorem server_sends_dated (bs : Bytes) (hne : bs ≠ []) (hlen : bs.length ≤ 1000)
    (hfit : FileHeader.form.Fits (datedHeader (UInt64.ofNat bs.length)))
    (htfit : FileTrailer.form.Fits (datedTrailer (UInt64.ofNat bs.length))) :
    Reaches (fun c => c.1 = .ret (.ok ()) ∧ c.2.taken = (Msg.command preservingCommand).enc ∧
      c.2.out = (Msg.response okResponse).enc ++ ((Msg.fileHeader (datedHeader (UInt64.ofNat bs.length))).enc ++
        (bs ++ (Msg.fileTrailer (datedTrailer (UInt64.ofNat bs.length))).enc)))
      (handleStream (H := maskedHost) (atLevel2 1048576), Local.init (dated bs)) := by
  have hplain : ∀ t ∈ preservingCommand.tagged, t.Plain := preserving.plain_options
  refine Gives.reaches (Gives.attempt (Gives.reader (F := Command.form) (a := preservingCommand) (by decide)
    (Command.readsBack_of_fits _ hplain (by decide)) rfl)) ?_
  refine Gives.reaches (Gives.openWithMeta (H := maskedHost) (n := ⟨datedInfo (UInt64.ofNat bs.length), bs⟩) rfl rfl) ?_
  simp only [datedInfo, Metadata.isDir, reduceCtorEq, decide_false, Bool.false_eq_true, if_false]
  apply Gives.reaches (Gives.writer (F := Response.form) (a := okResponse) (by decide) rfl)
  apply Gives.reaches (Gives.pure "f".toList _)
  apply Gives.reaches (Gives.writer (F := FileHeader.form) (a := datedHeader (UInt64.ofNat bs.length)) hfit rfl)
  refine Gives.reaches (Gives.copyOut (H := maskedHost) (h := 0) 1048576 hne (by show bs.length ≤ _; omega) rfl) ?_
  have hsize : bs.length = (UInt64.ofNat bs.length).toNat := by
    rw [UInt64.toNat_ofNat']
    omega
  refine Gives.reaches (Gives.ensure (decide_eq_true hsize)) ?_
  refine Gives.reaches (Gives.writer (F := FileTrailer.form) (a := datedTrailer (UInt64.ofNat bs.length)) htfit rfl) ?_
  refine ⟨_, Gives.flushed, rfl, ?_, ?_⟩
  · have h0 : (Local.init (S := maskedHost.sig) (dated bs)).taken = [] := rfl
    simp [Proc.Event.read, h0]
    rfl
  · simp
    rfl

/-- What is at the destination once it is opened. -/
def newFile (len : UInt64) : Node :=
  ⟨⟨.file, 0, maskedHost.createMode (appliedMode maskedHost (datedHeader len).toV2.metadata), none, none⟩, []⟩

/-- The client is done, having received these bytes as the file and read this as the trailer. -/
def DoneWith (len : UInt64) (bs : Bytes) (t : FileTrailer)
    (c : Proc.Config maskedHost.sig (Except Err RequestResult)) : Prop :=
  (∃ a, c.1 = .ret (.ok a)) ∧ c.2.got = [Msg.response okResponse, .fileHeader (datedHeader len), .fileTrailer t] ∧
    c.2.taken = (Msg.response okResponse).enc ++
      ((Msg.fileHeader (datedHeader len)).enc ++ (bs ++ (Msg.fileTrailer t).enc))

/-- What the client does: it receives so much of the file, and reads what is next as the trailer. -/
theorem client_reads (len cap : UInt64) (bs : Bytes) (t : FileTrailer) (hfit : FileHeader.form.Fits (datedHeader len))
    (hbs : (bs = [] ∧ cap = 0 ∧ len ≠ 0) ∨ (bs ≠ [] ∧ bs.length = len.toNat ∧ bs.length ≤ cap.toNat))
    (htfit : FileTrailer.form.Fits t) (hplain : ∀ d ∈ t.toV2.metadata, d.Plain)
    (hup : ∀ (s : Local maskedHost.sig) n, s.world 0 = some n → ∃ s',
    Gives (updateMetadata 0 t.toV2.metadata : Act _ _) s () s' ∧
      s'.taken = s.taken ∧ s'.got = s.got) :
    Reaches (fun c => c.2.taken = [] ∧ c.2.out = (Msg.command preservingCommand).enc ∧ Reaches (DoneWith len bs t) c)
      (GetHandler.sendImpl (H := maskedHost) (atLevel2 cap) preserving, Local.init (fun _ => none)) := by
  have hback := FileHeader.readsBack_of_fits (datedHeader len) (FileHeader.forFile_plain _ _ _) hfit
  have hok := Response.readsBack_of_fits okResponse (by decide)
  have htr := FileTrailer.readsBack_of_fits t hplain htfit
  refine Gives.reaches (Gives.writer (F := Command.form) (a := preservingCommand) (by decide) rfl) ?_
  apply Gives.reaches Gives.flushed
  refine Reaches.now ⟨rfl, rfl, ?_⟩
  apply Gives.reaches (Gives.reader (by decide) hok rfl)
  apply Gives.reaches (Gives.pure _ _)
  apply Gives.reaches (Gives.reader hfit hback rfl)
  have hnone : Host.sem maskedHost (fun _ => none) (.metadata "f".toList) (.error ⟨.notFound, []⟩) (fun _ => none) :=
    ⟨rfl, nofun⟩
  have hnew : Host.sem maskedHost (fun _ => none)
    (.openWrite "f".toList (appliedMode maskedHost (datedHeader len).toV2.metadata))
      (.ok 0) (World.put (fun _ => none) 0 (newFile len)) := ⟨rfl, _, .created none none, rfl⟩
  refine Gives.reaches (Gives.createOrTruncate (.error _) hnone nofun hnew) ?_
  apply Gives.reaches (Gives.pure _ _)
  apply Gives.reaches (Gives.pure _ _)
  have hsize : (datedHeader len).toV2.size = len := FileHeader.forFile_size _ _ _
  simp only [hsize]
  refine reaches_copyIn hbs (World.put_same (fun _ => none) 0 (newFile len)) rfl fun s' n' htaken hgot hlost hn' => ?_
  apply Gives.reaches (Gives.pure _ _)
  apply Gives.reaches (Gives.reader htfit htr hlost)
  apply Gives.reaches Gives.flushFile
  apply Gives.reaches (Gives.pure _ _)
  obtain ⟨s'', hs, htaken', hgot'⟩ := hup (ask (.flushFile 0) (.ok ()) s'.world (hear FileTrailer.form t s')) n' hn'
  refine Gives.reaches hs (Reaches.now ⟨⟨_, rfl⟩, ?_, ?_⟩)
  · show s''.got = _
    rw [hgot', got_ask, got_hear, hgot]
    rfl
  · show s''.taken = _
    rw [htaken', taken_ask, taken_hear, htaken]
    simp only [taken_ask, taken_hear, Local.taken_push, List.append_assoc]
    rfl

/-- **A run in which both sides are done**, whatever the client has taken for the trailer. -/
theorem dated_run (bs front : Bytes) (cap : UInt64) (t : FileTrailer) (hne : bs ≠ []) (hlen : bs.length ≤ 1000)
    (hfit : FileHeader.form.Fits (datedHeader (UInt64.ofNat bs.length)))
    (htfit : FileTrailer.form.Fits (datedTrailer (UInt64.ofNat bs.length)))
    (hfront : (front = [] ∧ cap = 0 ∧ UInt64.ofNat bs.length ≠ 0) ∨
      (front ≠ [] ∧ front.length = (UInt64.ofNat bs.length).toNat ∧ front.length ≤ cap.toNat))
    (htfit' : FileTrailer.form.Fits t) (hplain : ∀ d ∈ t.toV2.metadata, d.Plain)
    (hup : ∀ (s : Local maskedHost.sig) n, s.world 0 = some n → ∃ s',
    Gives (updateMetadata 0 t.toV2.metadata : Act _ _) s () s' ∧
      s'.taken = s.taken ∧ s'.got = s.got)
    (hread : front ++ (Msg.fileTrailer t).enc <+: bs ++ (Msg.fileTrailer (datedTrailer (UInt64.ofNat bs.length))).enc) :
    ∃ x : Joint maskedHost maskedHost, Pair.Reach (GetHandler.sendImpl (atLevel2 cap) preserving)
      (handleStream (atLevel2 1048576)) (fun _ => none) (dated bs) x ∧ x.2.1 = .ret (.ok ()) ∧
      DoneWith (UInt64.ofNat bs.length) front t x.1 := by
  obtain ⟨c, hc, hct, hco, c', hc', hdone⟩ := client_reads _ cap front t hfit hfront htfit' hplain hup
  obtain ⟨d, hd, hret, hdt, hdo⟩ := server_sends_dated bs hne hlen hfit htfit
  refine ⟨(c', d), Pair.Reach.turns hc hct hd (by rw [hdt, hco]) hc' ?_, hret, hdone⟩
  rw [hdone.2.2, hdo]
  exact (List.prefix_append_right_inj _).2 ((List.prefix_append_right_inj _).2 hread)

theorem metadata_kept_dated : ∃ x : Joint maskedHost maskedHost,
    Way.MetadataKept preserving (datedInfo 1) (fun _ => none) (dated [7]) x .get := by
  have hplain : ∀ d ∈ (datedTrailer 1).toV2.metadata, d.Plain := FileTrailer.forFile_plain _ _ _
  obtain ⟨x, hx, -, ⟨a, ha⟩, -⟩ :=
    dated_run [7] [7] 1048576 (datedTrailer 1) (by decide) (by decide) (by decide) (by decide)
    (Or.inr ⟨by decide, by decide, by decide⟩) (by decide) hplain
    (fun s n hn => Gives.updateMetadata_changed (c := ⟨some ⟨1000, 0⟩, some ⟨2000, 0⟩, some 0o666, true⟩) hn
      (Changes.collect_toTaggedData (datedInfo 1)) rfl rfl) (List.prefix_refl _)
  refine ⟨x, metadata_kept maskedHost maskedHost (atLevel2 1048576) (atLevel2 1048576) preserving (fun _ => none)
    (dated [7]) .get x (by decide) (by decide) hx a ha ⟨datedInfo 1, [7]⟩ rfl ⟨Or.inl (by decide), fun _ => ?_⟩ nofun⟩
  rintro ⟨tb, t, -, ht⟩
  exact Frame.not_frame_prefix_nil tb [] (by rw [List.append_nil]; exact ht)

/-- **Without a buffer a file that looks like a trailer keeps nothing of its mode and times.** -/
theorem not_metadata_kept : ¬ ∀ (G H : Host) (inner inner' : SessionCommandInner) (job : CopyJobSpec) (u w : World)
    (way : Way) (x : Joint G H), inner.config.tryValidate = .ok () → inner'.config.tryValidate = .ok () →
    inner.compat.supports .get2Put2 = true → inner'.compat.supports .get2Put2 = true →
    Pair.Reach (way.sendImpl inner job) (handleStream inner') u w x → (∃ a, x.1.1 = .ret (.ok a)) →
    x.2.1 = .ret (.ok ()) → ∀ n, way.source G H u w job = some n → (∃ t, n.info.accessed = some t ∧ 0 ≤ t.seconds) →
    (∃ t, n.info.modified = some t ∧ 0 ≤ t.seconds) → way.MetadataKept job n.info u w x := by
  intro hall
  obtain ⟨x, hx, hret, ⟨a, ha⟩, hgot, -⟩ :=
    dated_run lastTrailer [] 0 .v1 (by decide) (by decide) (by decide) (by decide)
    (Or.inl ⟨rfl, rfl, by decide⟩) (by decide) (fun d hd => absurd hd List.not_mem_nil)
    (fun s n hn => ⟨_, Gives.updateMetadata hn, by simp, by simp⟩) (List.prefix_append _ _)
  have hk := hall maskedHost maskedHost (atLevel2 0) (atLevel2 1048576) preserving _ _ .get x (by decide) (by decide)
    (by decide) (by decide) hx ⟨a, ha⟩ hret ⟨datedInfo 5, lastTrailer⟩ rfl ⟨_, rfl, by decide⟩ ⟨_, rfl, by decide⟩
  obtain ⟨path, n, ho, hn, hp⟩ := hk
  have hmode : n.info.permissions = 0o666 &&& 0o777 := Preserved.mode hp
  have hcs : Steps (GetHandler.sendImpl (atLevel2 0) preserving, Local.init (fun _ => none)) (.ret (.ok a), x.1.2) :=
    ha ▸ (Pair.reach hx).1
  obtain ⟨hdr, t, hleft⟩ := (Ok.getClient_leaves (atLevel2 0) preserving _).run_ok hcs
  obtain ⟨m, hm⟩ := hleft.got
  cases (show x.1.2.got = _ from hm).symm.trans hgot
  obtain ⟨path', c, old, bs, ho', hc, hw, hold, -⟩ := hleft.node
  cases ho.symm.trans ho'
  cases (show some Changes.empty = some c from hc)
  cases hn.symm.trans hw
  have hold : Cleared 0o644 old.permissions := hold
  have hnew : old.permissions = 0o644 := hold.eq_of_plain (by decide)
  have hsame : old.permissions = 0o666 &&& 0o777 := hmode
  rw [hnew] at hsame
  exact absurd hsame (by decide)

end Qcp
