import Qcp.Session
/-!
# Transfer — what each side of a GET or a PUT sends, reads and leaves behind

`FileSends` are the messages a file is sent as, `Stored` is what its receiver is left with.  `Ok.getClient`,
`Ok.getServer`, `Ok.putClient` and `Ok.putServer` follow the four programs from their start to their end.
-/
namespace Qcp

open Bare (Bytes Text Codec)
open Posix (Path)
open Proc (Task View Ok)
open Frame (frame)

/-- A payload that was read as a message. -/
structure Form.Reads {α : Type} (F : Form α) (bs : Bytes) (a : α) : Prop where
  short : bs.length ≤ F.limit
  decode : F.codec.decode bs = some a

theorem Form.Reads.lt {α : Type} {F : Form α} {bs : Bytes} {a : α} (h : F.Reads bs a) : bs.length < 2 ^ 32 :=
  Nat.lt_of_le_of_lt h.short F.limit_lt

/-- **What is read in the place of a message is that message.** -/
theorem Form.Reads.of_sent {α : Type} {F : Form α} {bs : Bytes} {a b : α} (h : F.Reads bs a) (hf : F.Fits b)
    (hb : F.ReadsBack b) {x y : Bytes} (hp : frame bs ++ x <+: (F.msg b).enc ++ y) :
    a = b ∧ bs = F.codec.enc b ∧ x <+: y := by
  rw [F.enc_msg] at hp
  obtain ⟨rfl, hxy⟩ := Frame.frame_cancel _ _ x y h.lt hf.lt hp
  exact ⟨Option.some.inj (h.decode.symm.trans hb), rfl, hxy⟩

/-! ## A file on the stream -/

/-- **The messages a file is sent as**: its header, its content in pieces, its trailer, as far as it gets.  What is
sent is the front of the content; before the trailer it is all of it, and as much as the header said. -/
inductive FileSends (cap : Nat) (content : Bytes) (header : FileHeader) (trailer : FileTrailer) : List Msg → Prop where
  | nothing : FileSends cap content header trailer []
  | pieces (cs : List Bytes) (hfit : FileHeader.form.Fits header) (h : cs.flatten <+: content) :
      FileSends cap content header trailer (.fileHeader header :: cs.map .payload)
  | whole (cs : List Bytes) (hfit : FileHeader.form.Fits header) (h : cs.flatten <+: content)
      (hzero : cap = 0 → cs.flatten = []) (hall : cap = 0 ∨ cs.flatten = content)
      (hlen : cs.flatten.length = header.toV2.size.toNat) (htfit : FileTrailer.form.Fits trailer) :
      FileSends cap content header trailer (.fileHeader header :: (cs.map .payload ++ [.fileTrailer trailer]))

/-- **What the receiver of a file is left with**: one opened file that holds what was read as its content. -/
structure Stored (H : Host) (cap : Nat) (before : Bytes) (header : FileHeader) (payload : Bytes) (trailer : FileTrailer)
    (v : View H.sig) : Prop where
  taken : ∃ hb tb, v.taken = before ++ (frame hb ++ (payload ++ frame tb)) ∧ FileHeader.form.Reads hb header ∧
    FileTrailer.form.Reads tb trailer
  zero : cap = 0 → payload = []
  whole : payload.length = header.toV2.size.toNat ∨ cap = 0
  kept : ∃ path h c info, opens v.done = [(path, h)] ∧ Changes.collect trailer.toV2.metadata = some c ∧
    v.world h = some ⟨c.apply info, payload⟩

/-! ## Answers -/

def okResponse : Response := ⟨Status.ok.toRepr, none⟩

/-- **What a server answers a command with**: nothing, a refusal, or its consent and then the rest. -/
inductive Answered (rest : List Msg → Prop) : List Msg → Prop where
  | nothing : Answered rest []
  | refused (r : Response) (hfit : Response.form.Fits r) (h : r.status ≠ Status.ok.toRepr) :
      Answered rest [.response r]
  | accepted (ms : List Msg) (h : rest ms) : Answered rest (.response okResponse :: ms)

theorem Answered.mono {p q : List Msg → Prop} {ms : List Msg} (h : Answered p ms) (hpq : ∀ ms, p ms → q ms) :
    Answered q ms := by
  cases h with
  | nothing => exact .nothing
  | refused r hfit h => exact .refused r hfit h
  | accepted ms h => exact .accepted ms (hpq ms h)

/-- A server that has read a command. -/
def heard {H : Host} (w : World) (c : Command) (cb : Bytes) : View H.sig :=
  ⟨w, [], [], [.command c], frame cb, [], false⟩

section Rules

variable {H : Host} {I : View H.sig → Prop} {v : View H.sig}

theorem Ok.sendOk {Q : Unit → View H.sig → Prop} (hi : I v)
    (hi' : ∀ sent, I { v with tried := v.tried ++ [.response okResponse], sent := sent })
    (h : Q () { v with tried := v.tried ++ [.response okResponse], sent := v.sent ++ [.response okResponse] }) :
    Ok I Q (Qcp.sendOk : Act H Unit) v :=
  Ok.writer (F := Response.form) (a := okResponse) hi (fun _ => hi') fun _ => h

theorem Ok.errorAndReturn {err : Refusal} {Q : Unit → View H.sig → Prop} (herr : err ≠ .status .ok) (hi : I v)
    (hi' : ∀ r sent, Response.form.Fits r → r.status ≠ Status.ok.toRepr →
      I { v with tried := v.tried ++ [.response r], sent := sent })
    (h : ∀ r, Q () { v with tried := v.tried ++ [.response r], sent := v.sent ++ [.response r] }) :
    Ok I Q (Qcp.errorAndReturn err : Act H Unit) v := by
  have hne : (errorToStatus err).1.toRepr ≠ Status.ok.toRepr := fun he =>
    errorToStatus_ne_ok err herr ((Status.toRepr_eq_zero_iff _).1 he)
  exact Ok.writer hi (fun hfit sent => hi' _ sent hfit hne) fun _ => h _

end Rules

section Finish

variable {H : Host} {α : Type} {I : View H.sig → Prop} {v : View H.sig}

/-- **The end of a file**: its trailer is read, and its metadata becomes what that says. -/
theorem Ok.finish {Q : α → View H.sig → Prop} {file : Place} {n : Node} {k : Act H α} (hn : v.world file = some n)
    (hi : ∀ bs got info d l, opens d = [] → v.got <+: got → I { v with
      world := v.world.put file ⟨info, n.content⟩, taken := v.taken ++ bs, got := got, done := v.done ++ d, lost := l })
    (hok : ∀ tb t c d, v.lost = false → FileTrailer.form.Reads tb t → Changes.collect t.toV2.metadata = some c →
      opens d = [] → (c.changed = false → timesSet d = []) → Ok I Q k { v with
        world := v.world.put file ⟨c.apply n.info, n.content⟩, taken := v.taken ++ frame tb,
        got := v.got ++ [.fileTrailer t], done := v.done ++ d }) :
    Ok I Q (do
      let trailer := (← fromReaderFramed FileTrailer.form).toV2
      Act.ofExcept .io (← TokioFile.flush file)
      Qcp.updateMetadata file trailer.metadata
      k) v := by
  have hself : v.world.put file ⟨n.info, n.content⟩ = v.world := v.world.put_self file n hn
  have hi0 : ∀ bs got d l, opens d = [] → v.got <+: got →
      I { v with taken := v.taken ++ bs, got := got, done := v.done ++ d, lost := l } := fun bs got d l hd hg => by
    have := hi bs got n.info d l hd hg
    rwa [hself] at this
  have hi1 := fun bs l => hi0 bs v.got [] l rfl (List.prefix_refl _)
  simp only [List.append_nil] at hi1
  have hi2 := fun bs got l hg => hi0 bs got [] l rfl hg
  simp only [List.append_nil] at hi2
  have hgot : ∀ t : FileTrailer, v.got <+: v.got ++ [.fileTrailer t] := fun t => List.prefix_append _ _
  refine Ok.then (Ok.reader hi1 (fun bs t _ _ _ => hi2 _ _ _ (hgot t)) fun tb t hlost hl hd => ?_)
  refine Ok.then (Ok.asked (hi2 _ _ _ (hgot t)) fun r w hw => ?_)
  cases hw
  refine ⟨hi0 _ _ _ _ rfl (hgot t), Ok.then (Ok.ofExcept (hi0 _ _ _ _ rfl (hgot t)) fun _ _ => ?_)⟩
  refine Ok.then (Ok.updateMetadata hn (fun info d' hd' => ?_) fun c d' hc hd' hset => ?_)
  · simp only [List.append_assoc]
    exact hi _ _ info ([⟨Op.flushFile file, r⟩] ++ d') _ hd' (hgot t)
  · simp only [List.append_assoc]
    exact hok tb t c ([⟨Op.flushFile file, r⟩] ++ d') hlost ⟨hl, hd⟩ hc hd' hset

end Finish

/-! ## GET -/

section GetClient

variable {H : Host}

/-- How a client has opened a path: it comes from the destination, what was found there, and a header that was read. -/
def OpenedFrom (H : Host) (w : World) (dest : Path) (got : List Msg) (path : Path) : Prop :=
  ∃ header found, .fileHeader header ∈ got ∧ (∀ m, found = .ok m → ∃ n, w (H.place dest) = some n ∧ m = n.info) ∧
    path = destPath dest header.toV2.filename found ∧ ∃ mode n, H.Opened mode (w (H.place path)) n

/-- All along a GET the client has sent no more than its command, and opened paths only so. -/
structure Getting (H : Host) (w : World) (cmd : Command) (dest : Path) (v : View H.sig) : Prop where
  tried : v.tried = [] ∨ v.tried = [.command cmd]
  opened : ∀ path h, (path, h) ∈ opens v.done → OpenedFrom H w dest v.got path

theorem Getting.before {w : World} {cmd : Command} {dest : Path} {v : View H.sig}
    (ht : v.tried = [] ∨ v.tried = [.command cmd]) (hd : opens v.done = []) : Getting H w cmd dest v :=
  ⟨ht, fun path h hm => by rw [hd] at hm; cases hm⟩

/-- A response and a file. -/
structure Fetched (H : Host) (cmd : Command) (cap : Nat) (header : FileHeader) (v : View H.sig) : Prop where
  fits : Command.form.Fits cmd
  sent : v.sent = [.command cmd]
  tried : v.tried = [.command cmd]
  read : ∃ rb r payload trailer, Response.form.Reads rb r ∧ r.status = Status.ok.toRepr ∧
    v.got = [.response r, .fileHeader header, .fileTrailer trailer] ∧
    Stored H cap (frame rb) header payload trailer v

/-- **The client of a GET.** -/
theorem Ok.getClient (inner : SessionCommandInner) (job : CopyJobSpec) (w : World) :
    Ok (Getting H w (GetHandler.command inner job) job.destination.filename)
      (fun _ v => ∃ header, Fetched H (GetHandler.command inner job) inner.config.ioBufferSize.toNat header v)
      (GetHandler.sendImpl inner job) (View.init w) := by
  refine Ok.then (Ok.writer (.before (Or.inl rfl) rfl) (fun _ _ => .before (Or.inr rfl) rfl) fun hfit => ?_)
  have quiet : ∀ v : View H.sig, v.tried = [.command (GetHandler.command inner job)] → opens v.done = [] →
      Getting H w (GetHandler.command inner job) job.destination.filename v := fun v ht hd => .before (Or.inr ht) hd
  refine Ok.then (Ok.flushed (quiet _ rfl rfl) ?_)
  refine Ok.then (Ok.reader (fun _ _ => quiet _ rfl rfl) (fun _ _ _ _ _ => quiet _ rfl rfl) fun rb r _ hrl hrd => ?_)
  refine Ok.then (Ok.intoResult (quiet _ rfl rfl) fun hok => ?_)
  refine Ok.then (Ok.reader (fun _ _ => quiet _ rfl rfl) (fun _ _ _ _ _ => quiet _ rfl rfl)
    fun hb header _ hhl hhd => ?_)
  refine Ok.then (Ok.createOrTruncate (quiet _ rfl rfl) (fun _ => quiet _ rfl rfl)
    (fun _ _ => Ok.fail (quiet _ rfl rfl)) fun found o wo hf ho => ?_)
  generalize hpath : destPath job.destination.filename header.toV2.filename found = path at ho
  cases o with
  | error e => exact ⟨quiet _ rfl rfl, Ok.fail (quiet _ rfl rfl)⟩
  | ok file =>
    obtain ⟨rfl, n, hopen, rfl⟩ := ho
    -- from here on the path stays opened, and nothing else is
    have later : ∀ v : View H.sig, v.tried = [.command (GetHandler.command inner job)] → .fileHeader header ∈ v.got →
        opens v.done = [(path, H.place path)] →
        Getting H w (GetHandler.command inner job) job.destination.filename v := by
      refine fun v ht hg hd => ⟨Or.inr ht, fun path' h' hm => ?_⟩
      rw [hd] at hm
      cases List.mem_singleton.1 hm
      exact ⟨header, found, hg, hf, hpath.symm, _, n, hopen⟩
    have hgot : ∀ {got : List Msg}, [.response r, .fileHeader header] <+: got → .fileHeader header ∈ got :=
      fun hp => hp.subset (by simp)
    refine ⟨later _ rfl (hgot (List.prefix_refl _)) rfl, Ok.then
      (Ok.pure (later _ rfl (hgot (List.prefix_refl _)) rfl) ?_)⟩
    refine Ok.then (Ok.progressBarFor (later _ rfl (hgot (List.prefix_refl _)) rfl) ?_)
    refine Ok.then (Ok.copyIn (World.put_same w _ n)
      (fun bs l n' d hd => later _ rfl (hgot (List.prefix_refl _)) (opens_more hd))
      (fun bs l n' d hw hle hzero hend hd => ?_) fun e bs l n' d hd =>
        Ok.fail (later _ rfl (hgot (List.prefix_refl _)) (opens_more hd)))
    refine Ok.then (Ok.pure (later _ rfl (hgot (List.prefix_refl _)) (opens_more hd)) ?_)
    refine Ok.finish (World.put_same _ _ n') (fun bs' got info d' l' hd' hg => ?_)
      fun tb t c d' hlost htr hc hd' _ => ?_
    · exact later _ rfl (hgot hg) ((opens_more hd').trans (opens_more hd))
    · refine Ok.pure (later _ rfl (hgot (List.prefix_append _ _)) ((opens_more hd').trans (opens_more hd)))
        ⟨header, hfit, rfl, rfl, rb, r, bs, t, ⟨hrl, hrd⟩, hok, rfl, ?_, hzero, ?_, path, H.place path, c, n'.info,
          (opens_more hd').trans (opens_more hd), hc, ?_⟩
      · refine ⟨hb, tb, ?_, ⟨hhl, hhd⟩, htr⟩
        simp [View.init]
      · exact hend.imp id fun h => h.resolve_left fun hl => by rw [hl] at hlost; cases hlost
      · show (World.put _ _ _) _ = _
        rw [World.put_same, hw.1, hopen.content, List.nil_append]

end GetClient

section GetServer

variable {H : Host}

/-- What a server sends for a file: what it knew of it when it opened it, and its content. -/
def Offers (H : Host) (inner : SessionCommandInner) (w : World) (path : Path) (preserve : Bool)
    (ms : List Msg) : Prop :=
  ∃ n name, w (H.place path) = some n ∧ FileSends inner.config.ioBufferSize.toNat n.content
    (.forFile inner.compat n.info name) (.forFile inner.compat n.info preserve) ms

/-- All along a GET. -/
structure Giving (H : Host) (inner : SessionCommandInner) (w : World) (args : Get2Args) (got : List Msg)
    (v : View H.sig) :
    Prop where
  got : v.got = got
  tried : Answered (Offers H inner w args.filename (findOption args.options .preserveMetadata).isSome) v.tried

/-- **The server of a GET.** -/
theorem Ok.getServer (inner : SessionCommandInner) (args : Get2Args) (w : World) (c : Command) (cb : Bytes) :
    Ok (Giving H inner w args [.command c]) (fun _ _ => True) (GetHandler.handleImpl inner args) (heard w c cb) := by
  refine Ok.then (Ok.openWithMeta (fun d hd => ⟨rfl, .nothing⟩) fun r d hr hd => ?_)
  cases r with
  | error e =>
    exact Ok.errorAndReturn nofun ⟨rfl, .nothing⟩ (fun r sent hf hs => ⟨rfl, .refused r hf hs⟩) fun _ => trivial
  | ok p =>
    obtain ⟨file, info⟩ := p
    obtain ⟨rfl, n, hn, rfl⟩ := hr _ rfl
    simp only
    split
    · exact Ok.errorAndReturn nofun ⟨rfl, .nothing⟩ (fun r sent hf hs => ⟨rfl, .refused r hf hs⟩) fun _ => trivial
    · refine Ok.then (Ok.sendOk ⟨rfl, .nothing⟩ (fun _ => ⟨rfl, .accepted [] ⟨n, [], hn, .nothing⟩⟩) ?_)
      have hok : Answered (Offers H inner w args.filename (findOption args.options .preserveMetadata).isSome)
          [.response okResponse] := .accepted [] ⟨n, [], hn, .nothing⟩
      refine Ok.then (Ok.protocolFilename ⟨rfl, hok⟩ fun name _ => ?_)
      refine Ok.then (Ok.writer ⟨rfl, hok⟩ (fun hf sent => ?_) fun hf => ?_)
      · exact ⟨rfl, .accepted _ ⟨n, name, hn, .pieces [] hf List.nil_prefix⟩⟩
      · have hcs : ∀ cs : List Bytes, cs.flatten <+: n.content →
            Answered (Offers H inner w args.filename (findOption args.options .preserveMetadata).isSome)
              (.response okResponse :: .fileHeader (.forFile inner.compat n.info name) :: cs.map .payload) :=
          fun cs h => .accepted _ ⟨n, name, hn, .pieces cs hf h⟩
        have hcontent : w.content (H.place args.filename) = n.content := World.content_of hn
        refine Ok.then (Ok.copyOut (fun cs sent d hp hd => ⟨rfl, hcs cs (hcontent ▸ hp)⟩)
          (fun cs d hp hzero hall hd => ?_) fun e cs sent d hp hd => Ok.fail ⟨rfl, hcs cs (hcontent ▸ hp)⟩)
        have hi := hcs cs (hcontent ▸ hp)
        refine Ok.then (Ok.ensure ⟨rfl, hi⟩ fun hlen => ?_)
        have hall' : ∀ hft, Answered (Offers H inner w args.filename (findOption args.options .preserveMetadata).isSome)
            (.response okResponse :: .fileHeader (.forFile inner.compat n.info name) :: (cs.map .payload ++
              [.fileTrailer (.forFile inner.compat n.info
                (findOption args.options .preserveMetadata).isSome)])) := fun hft =>
          .accepted _ ⟨n, name, hn, .whole cs hf (hcontent ▸ hp) hzero (hcontent ▸ hall)
            (by rw [FileHeader.forFile_size]; exact of_decide_eq_true hlen) hft⟩
        refine Ok.then (Ok.writer ⟨rfl, hi⟩ (fun hft _ => ⟨rfl, hall' hft⟩) fun hft => ?_)
        exact Ok.flushed ⟨rfl, hall' hft⟩ trivial

end GetServer

/-! ## PUT -/

section PutClient

variable {H : Host}

/-- All along a PUT the client has sent its command, and then no more than its file. -/
structure Putting (H : Host) (inner : SessionCommandInner) (w : World) (job : CopyJobSpec) (v : View H.sig) : Prop where
  tried : v.tried = [] ∨ Command.form.Fits (PutHandler.command inner job) ∧
    ∃ ms, v.tried = .command (PutHandler.command inner job) :: ms ∧
      Offers H inner w job.source.filename job.preserve ms

/-- The whole file was sent, and consented to twice. -/
structure PutDone (H : Host) (inner : SessionCommandInner) (w : World) (job : CopyJobSpec) (v : View H.sig) : Prop where
  sent : v.sent = v.tried
  fits : Command.form.Fits (PutHandler.command inner job)
  whole : ∃ ms t, v.tried = .command (PutHandler.command inner job) :: ms ∧
    Offers H inner w job.source.filename job.preserve ms ∧ .fileTrailer t ∈ ms
  read : ∃ rb r rb' r', Response.form.Reads rb r ∧ r.status = Status.ok.toRepr ∧ Response.form.Reads rb' r' ∧
    r'.status = Status.ok.toRepr ∧ v.got = [.response r, .response r'] ∧ v.taken = frame rb ++ frame rb'

/-- A failed PUT only reads on. -/
theorem Ok.explainFailure {I : View H.sig → Prop} {v : View H.sig} {Q : RequestResult → View H.sig → Prop} (e : IoError)
    (hi : ∀ bs got l, I { v with taken := v.taken ++ bs, got := got, lost := l }) :
    Ok I Q (PutHandler.explainFailure e) v := by
  have hi0 : I v := by simpa using hi [] v.got v.lost
  unfold PutHandler.explainFailure
  split
  · refine Ok.then (Ok.attempt (J := I) (Q := fun _ _ => True) (Ok.reader (fun bs l => hi bs _ l)
      (fun _ _ _ _ _ => hi _ _ _) fun _ _ _ _ _ => trivial) (fun _ h => h) ?_ ?_)
    · exact fun _ v' h _ => Ok.fail h
    · exact fun _ v' h => Ok.fail h
  · exact Ok.fail hi0

/-- **The client of a PUT.** -/
theorem Ok.putClient (inner : SessionCommandInner) (job : CopyJobSpec) (w : World) :
    Ok (Putting H inner w job) (fun _ v => PutDone H inner w job v) (PutHandler.sendImpl inner job) (View.init w) := by
  refine Ok.then (Ok.openWithMeta (fun d hd => ⟨.inl rfl⟩) fun r d hr hd => ?_)
  refine Ok.then (Ok.ofExcept ⟨.inl rfl⟩ fun p hp => ?_)
  obtain ⟨file, info⟩ := p
  obtain ⟨rfl, n, hn, rfl⟩ := hr _ hp
  have hcontent : w.content (H.place job.source.filename) = n.content := World.content_of hn
  simp only
  split
  · exact Ok.fail ⟨.inl rfl⟩
  refine Ok.then (Ok.progressBarFor ⟨.inl rfl⟩ ?_)
  refine Ok.then (Ok.writer ⟨.inl rfl⟩ (fun hf _ => ⟨.inr ⟨hf, [], rfl, n, [], hn, .nothing⟩⟩) fun hf => ?_)
  refine Ok.then (Ok.flushed ⟨.inr ⟨hf, [], rfl, n, [], hn, .nothing⟩⟩ ?_)
  refine Ok.then (Ok.protocolFilename ⟨.inr ⟨hf, [], rfl, n, [], hn, .nothing⟩⟩ fun name _ => ?_)
  have hi : ∀ (ms : List Msg) (v : View H.sig), v.tried = .command (PutHandler.command inner job) :: ms →
      FileSends inner.config.ioBufferSize.toNat n.content (.forFile inner.compat n.info name)
        (.forFile inner.compat n.info job.preserve) ms → Putting H inner w job v :=
    fun ms v ht h => ⟨.inr ⟨hf, ms, ht, n, name, hn, h⟩⟩
  refine Ok.then (Ok.writer (hi _ _ rfl .nothing) (fun hh _ => hi _ _ rfl (.pieces [] hh List.nil_prefix)) fun hh => ?_)
  have h1 : FileSends inner.config.ioBufferSize.toNat n.content (.forFile inner.compat n.info name)
      (.forFile inner.compat n.info job.preserve) [.fileHeader (.forFile inner.compat n.info name)] :=
    .pieces [] hh List.nil_prefix
  refine Ok.then (Ok.reader (fun _ _ => hi _ _ rfl h1) (fun _ _ _ _ _ => hi _ _ rfl h1) fun rb r _ hrl hrd => ?_)
  refine Ok.then (Ok.intoResult (hi _ _ rfl h1) fun hok => ?_)
  refine Ok.then (Ok.copyOut (fun cs sent d hp hd => hi _ _ rfl (.pieces cs hh (hcontent ▸ hp)))
    (fun cs d hp hzero hall hd => ?_) fun e cs sent d hp hd =>
      Ok.explainFailure e fun bs got l => hi _ _ rfl (.pieces cs hh (hcontent ▸ hp)))
  have h2 : FileSends inner.config.ioBufferSize.toNat n.content (.forFile inner.compat n.info name)
      (.forFile inner.compat n.info job.preserve)
        (.fileHeader (.forFile inner.compat n.info name) :: cs.map .payload) :=
    .pieces cs hh (hcontent ▸ hp)
  refine Ok.then (Ok.ensure (hi _ _ rfl h2) fun hlen => ?_)
  have h3 : FileTrailer.form.Fits (.forFile inner.compat n.info job.preserve) →
      FileSends inner.config.ioBufferSize.toNat n.content (.forFile inner.compat n.info name)
        (.forFile inner.compat n.info job.preserve) _ := FileSends.whole cs hh (hcontent ▸ hp) hzero
    (hcontent ▸ hall) (by rw [FileHeader.forFile_size]; exact of_decide_eq_true hlen)
  refine Ok.then (Ok.writer (hi _ _ rfl h2) (fun ht _ => hi _ _ rfl (h3 ht)) fun ht => ?_)
  refine Ok.then (Ok.flushed (hi _ _ rfl (h3 ht)) ?_)
  refine Ok.then (Ok.reader (fun _ _ => hi _ _ rfl (h3 ht)) (fun _ _ _ _ _ => hi _ _ rfl (h3 ht))
    fun rb' r' _ hrl' hrd' => ?_)
  refine Ok.then (Ok.ensure (hi _ _ rfl (h3 ht)) fun hok' => Ok.pure (hi _ _ rfl (h3 ht)) ?_)
  have hmem := List.mem_cons_of_mem (Msg.fileHeader (.forFile inner.compat n.info name))
    (List.mem_append_right (cs.map Msg.payload) (List.mem_singleton_self
      (Msg.fileTrailer (.forFile inner.compat n.info job.preserve))))
  exact ⟨rfl, hf, ⟨_, _, rfl, ⟨n, name, hn, h3 ht⟩, hmem⟩, rb, r, rb', r', ⟨hrl, hrd⟩, hok, ⟨hrl', hrd'⟩,
    of_decide_eq_true hok', rfl, rfl⟩

end PutClient

section PutServer

variable {H : Host}

/-- Finding out where a file is to go only looks. -/
theorem Ok.appendFilename {I : View H.sig → Prop} {v : View H.sig} {Q : Option Bool → View H.sig → Prop} (path : Path)
    (hi : ∀ d, opens d = [] → I { v with done := v.done ++ d })
    (h : ∀ r d, opens d = [] → Q r { v with done := v.done ++ d }) : Ok I Q (PutHandler.appendFilename path) v := by
  have hi0 : I v := by simpa using hi [] rfl
  have more : ∀ d d', opens d = [] → opens d' = [] → opens (d ++ d') = [] :=
    fun d d' hd hd' => by rw [opens_more hd', hd]
  have isDir : ∀ (p : Path) (k : Bool → Act H (Option Bool)) d, opens d = [] →
      (∀ b d, opens d = [] → Ok I Q (k b) { v with done := v.done ++ d }) →
      Ok I Q (Fs.isDir p >>= k) { v with done := v.done ++ d } := fun p k d hd hk => by
    refine Ok.then (Ok.isDir (fun d' hd' => ?_) fun b d' _ hd' => ?_)
    · simp only [List.append_assoc]
      exact hi _ (more d d' hd hd')
    · simp only [List.append_assoc]
      exact hk b _ (more d d' hd hd')
  have last : ∀ (extant : Bool) d, opens d = [] → Ok I Q (do
      if extant then return some (← Fs.isDir path)
      else if Posix.endsWithSep path then return none
      else
        let parentDir := Posix.pop path
        let parentDir := if parentDir = [] then Posix.dot else parentDir
        if ← Fs.isDir parentDir then return some false else return none) { v with done := v.done ++ d } := by
    intro extant d hd
    cases extant with
    | true => exact isDir _ _ d hd fun b d hd => Ok.pure (hi d hd) (h _ d hd)
    | false =>
      simp only [Bool.false_eq_true, if_false]
      split
      · exact Ok.pure (hi d hd) (h _ d hd)
      · refine isDir _ _ d hd fun b d hd => ?_
        cases b <;> exact Ok.pure (hi d hd) (h _ d hd)
  unfold PutHandler.appendFilename
  split
  · exact Ok.pure hi0 (by simpa using h _ [] rfl)
  · refine Ok.then (Ok.isDir hi fun b d _ hd => ?_)
    cases b with
    | true => exact Ok.then (Ok.pure (hi d hd) (last true d hd))
    | false =>
      refine Ok.then (Ok.isFile (fun d' hd' => ?_) fun b d' hd' => ?_)
      · simp only [List.append_assoc]
        exact hi _ (more d d' hd hd')
      · simp only [List.append_assoc]
        exact last b _ (more d d' hd hd')

/-- How a PUT goes on after the server's consent. -/
inductive PutRest (H : Host) (cap : Nat) (c : Command) (cb : Bytes) (v : View H.sig) : List Msg → Prop where
  | waiting : PutRest H cap c cb v []
  | failed (r : Response) (hfit : Response.form.Fits r) (h : r.status ≠ Status.ok.toRepr) :
      PutRest H cap c cb v [.response r]
  | finished (header : FileHeader) (payload : Bytes) (trailer : FileTrailer)
      (hgot : v.got = [.command c, .fileHeader header, .fileTrailer trailer])
      (h : Stored H cap (frame cb) header payload trailer v) : PutRest H cap c cb v [.response okResponse]

/-- **The server of a PUT.** -/
theorem Ok.putServer (inner : SessionCommandInner) (args : Get2Args) (w : World) (c : Command) (cb : Bytes) :
    Ok (fun v => Answered (PutRest H inner.config.ioBufferSize.toNat c cb v) v.tried) (fun _ _ => True)
      (PutHandler.handleImpl inner args) (heard w c cb) := by
  have refuse : ∀ (err : Refusal) (v : View H.sig), err ≠ .status .ok → v.tried = [] →
      Ok (fun v => Answered (PutRest H inner.config.ioBufferSize.toNat c cb v) v.tried) (fun _ _ => True)
        (Qcp.errorAndReturn err) v := by
    rintro err ⟨w, tried, sent, got, taken, done, lost⟩ herr rfl
    exact Ok.errorAndReturn herr .nothing (fun r sent hf hs => .refused r hf hs) fun _ => trivial
  refine Ok.then (Ok.appendFilename _ (fun d hd => .nothing) fun r d hd => ?_)
  cases r with
  | none => exact refuse _ _ nofun rfl
  | some append =>
    refine Ok.then (Ok.reader (fun _ _ => .nothing) (fun _ _ _ _ _ => .nothing) fun hb header _ hhl hhd => ?_)
    refine Ok.then (Ok.createOrTruncate .nothing (fun _ => .nothing) (fun _ _ => refuse _ _ nofun rfl)
      fun found o wo _ ho => ⟨.nothing, ?_⟩)
    generalize destPath _ header.toV2.filename found = path at ho
    cases o with
    | error e => exact refuse _ _ nofun rfl
    | ok file =>
      obtain ⟨rfl, n, hopen, rfl⟩ := ho
      refine Ok.then (Ok.sendOk .nothing (fun _ => .accepted [] .waiting) ?_)
      refine Ok.then (Ok.flushed (.accepted [] .waiting) ?_)
      refine Ok.then (Ok.copyIn (World.put_same _ _ n) (fun bs l n' d hd => .accepted [] .waiting)
        (fun bs l n' d' hw hle hzero hend hd' => ?_) fun e bs l n' d' hd' => ?_)
      · refine Ok.finish (World.put_same _ _ n') (fun _ _ _ _ _ _ _ => .accepted [] .waiting)
          fun tb t ch d2 hlost htr hc hd2 _ => ?_
        have hwhole : bs.length = header.toV2.size.toNat ∨ inner.config.ioBufferSize.toNat = 0 :=
          hend.imp id fun h => h.resolve_left fun hl => by rw [hl] at hlost; cases hlost
        -- the last word comes once all is done
        have hlast : ∀ v : View H.sig, v.got = [.command c, .fileHeader header, .fileTrailer t] →
            v.taken = frame cb ++ (frame hb ++ (bs ++ frame tb)) → opens v.done = [(path, H.place path)] →
            v.world (H.place path) = some ⟨ch.apply n'.info, n'.content⟩ →
            PutRest H inner.config.ioBufferSize.toNat c cb v [.response okResponse] := fun v hg ht hd hw' =>
          .finished header bs t hg ⟨⟨hb, tb, ht, ⟨hhl, hhd⟩, htr⟩, hzero, hwhole, path, H.place path, ch,
            n'.info, hd, hc, by rw [hw', hw.1, hopen.content, List.nil_append]⟩
        have h0 : ∀ given, opens (d ++ [⟨.metadata given, found⟩,
            ⟨.openWrite path (appliedMode H header.toV2.metadata), .ok (H.place path)⟩]) =
            [(path, H.place path)] := fun given => by rw [opens_append, hd]; rfl
        have hopens := fun given => (opens_more hd2).trans ((opens_more hd').trans (h0 given))
        have htaken : ((frame cb ++ frame hb) ++ bs) ++ frame tb = frame cb ++ (frame hb ++ (bs ++ frame tb)) := by
          simp only [List.append_assoc]
        refine Ok.then (Ok.sendOk (.accepted [] .waiting)
          (fun _ => .accepted [_] (hlast _ rfl htaken (hopens _) ?_)) ?_)
        · exact World.put_same ..
        · exact Ok.flushed (.accepted [_] (hlast _ rfl htaken (hopens _) (World.put_same ..))) trivial
      · exact Ok.errorAndReturn nofun (.accepted [] .waiting) (fun r sent hf hs => .accepted [_] (.failed r hf hs))
          fun _ => trivial

end PutServer

end Qcp
