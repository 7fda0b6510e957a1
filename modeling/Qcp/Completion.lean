import Qcp.Integrity
/-!
# Completion — a client that succeeds has been served

`no_false_success_iff`: when the client of a request is done, its server has done all that was asked, has said its last
word, and either side has read the messages the other one sent; but for a GET of a file that holds more than its length
says, and goes on there with what can be read as a trailer.  The parts are one lemma for each request.
-/
namespace Qcp

open Bare (Bytes Text Codec)
open Posix (Path)
open Proc (Pair View Local Steps Gives Reaches Ok)
open Frame (frame)

/-- **What a server has to have done** when it was asked for this. -/
def Request.Performed (G H : Host) (u w : World) (y : Local H.sig) : Request → Prop
  | .get _ => ∃ t, .fileTrailer t ∈ y.sent
  | .put job => y.sent = [.response okResponse, .response okResponse] ∧ ∃ n t path h c info,
      u (G.place job.source.filename) = some n ∧ opens y.done = [(path, h)] ∧ .fileTrailer t ∈ y.got ∧
      Changes.collect t.toV2.metadata = some c ∧ y.world h = some ⟨c.apply info, n.content⟩
  | .createDirectory job => y.sent = [.response okResponse] ∧ y.world.isDir (H.place job.destination.filename)
  | .setMetadata job => y.sent = [.response okResponse] ∧ ∃ args n, y.got = [.command (.setMetadata args)] ∧
      args.path = job.destination.filename ∧ w (H.place args.path) = some n ∧ NoTimes args.metadata ∧
      y.world (H.place args.path) = some ⟨args.metadata.foldl Metadata.applyAttr n.info, n.content⟩
  | .list _ _ => ∃ p, .listData p ∈ y.sent ∧ p.moreToCome = false

/-- **Each side has read what the other one sent**, in order; the pieces of a file are no messages. -/
structure Heard {G H : Host} (x : Joint G H) : Prop where
  client : x.1.2.got = x.2.2.sent.filter Msg.isMessage
  server : x.2.2.got = x.1.2.sent.filter Msg.isMessage

/-- A file that is asked for does not go on, past the length it is said to have, with what can be read as a trailer. -/
def Request.EndsClean (H : Host) (w : World) : Request → Prop
  | .get job => ∀ n, w (H.place job.source.filename) = some n → ¬ StartsWithTrailer (n.content.drop n.info.len.toNat)
  | _ => True

theorem filter_isMessage_payloads (cs : List Bytes) : (cs.map Msg.payload).filter Msg.isMessage = [] := by
  induction cs with
  | nil => rfl
  | cons c cs ih => rw [List.map_cons]; exact ih

theorem enc_framed_ne_nil {α : Type} (F : Form α) (a : α) : (F.msg a).enc ≠ [] := by
  intro h
  have := congrArg List.length h
  rw [F.enc_msg, Frame.frame_length, List.length_nil] at this
  omega

section Requests

variable {G H : Host} {inner inner' : SessionCommandInner} {job : CopyJobSpec} {u w : World} {x : Joint G H}

/-- **All that was begun was sent**, once it was read. -/
theorem sent_of_read {p : Act G RequestResult} (hr : Pair.Reach p (handleStream inner') u w x) (ms : List Msg) {m : Msg}
    (ht : x.2.2.tried = ms ++ [m]) (hm : m.enc ≠ []) (hread : x.2.2.tried.flatMap Msg.enc <+: x.1.2.taken) :
    x.2.2.sent = x.2.2.tried := by
  obtain ⟨-, hs, htaken, -⟩ := Pair.reach hr
  obtain ⟨tail, hw⟩ := Proc.written_of_steps hs
  exact hw.sent_eq ht hm (hread.trans htaken)

theorem sent_prefix_tried {p : Act G RequestResult} (hr : Pair.Reach p (handleStream inner') u w x) :
    x.2.2.sent <+: x.2.2.tried := by
  obtain ⟨tail, hw⟩ := Proc.written_of_steps (Pair.reach hr).2.1
  exact hw.sent

/-- Pieces of the same length in front of two trailers are the same, and so are the trailers. -/
theorem trailer_of_sent {payload content tb : Bytes} {t trailer : FileTrailer} (hl : payload.length = content.length)
    (htr : FileTrailer.form.Reads tb t) (hfit : FileTrailer.form.Fits trailer)
    (hp : ∀ d ∈ trailer.toV2.metadata, d.Plain)
    (h : payload ++ frame tb <+: content ++ (Msg.fileTrailer trailer).enc) :
    payload = content ∧ t = trailer ∧ tb = FileTrailer.codec.enc trailer := by
  obtain ⟨z, hz⟩ := h
  rw [List.append_assoc] at hz
  obtain ⟨h1, h2⟩ := List.append_inj hz hl
  obtain ⟨h3, h4, -⟩ := htr.of_sent (x := z) (y := []) hfit (FileTrailer.readsBack_of_fits trailer hp hfit)
    (by rw [List.append_nil, h2]; exact List.prefix_refl _)
  exact ⟨h1, h3, h4⟩

/-! ## GET -/

theorem get_completes (hr : Pair.Reach (GetHandler.sendImpl inner job) (handleStream inner') u w x)
    (hin : inner.config.ioBufferSize ≠ 0) (hin' : inner'.config.ioBufferSize ≠ 0) {a : RequestResult}
    (ha : x.1.1 = .ret (.ok a)) :
    (Request.Performed G H u w x.2.2 (.get job) ∧ Heard x) ↔ Request.EndsClean H w (.get job) := by
  obtain ⟨n, name, hdr, t, payload, tb, ms, h⟩ := get_exchange hr ha
  obtain ⟨hb, htaken, hhr⟩ := h.taken
  obtain ⟨rfl, rfl, cs, hcs, hcase⟩ :=
    h.sends.received (FileHeader.readsBack_of_fits _ (FileHeader.forFile_plain _ _ _))
    hhr (h.bytes _ htaken)
  have hcap : inner.config.ioBufferSize.toNat ≠ 0 := fun h0 => hin (UInt64.toNat_inj.1 h0)
  have hcap' : inner'.config.ioBufferSize.toNat ≠ 0 := fun h0 => hin' (UInt64.toNat_inj.1 h0)
  have hlen := h.stored.whole.resolve_right hcap
  rw [FileHeader.forFile_size] at hlen hcase
  rcases hcase with ⟨hms, hp⟩ | ⟨hms, htfit, -, hall, hclen, hp⟩
  · -- the trailer was taken from the file
    refine ⟨fun hperf => ?_, fun hclean => absurd ?_ (hclean n h.source)⟩
    · obtain ⟨⟨t', ht'⟩, -⟩ := hperf
      have hm := (sent_prefix_tried hr).subset ht'
      rw [h.tried, hms] at hm
      simp at hm
    · obtain ⟨z, hz⟩ := hp.trans hcs
      refine ⟨tb, t, h.trailer, z, ?_⟩
      rw [← hz, List.append_assoc, ← hlen, List.drop_left]
  · have hcontent : cs.flatten = n.content := hall.resolve_left hcap'
    obtain ⟨rfl, rfl, rfl⟩ :=
      trailer_of_sent (hlen.trans hclen.symm) h.trailer htfit (FileTrailer.forFile_plain _ _ _) hp
    have htried : x.2.2.tried = [.response okResponse, .fileHeader (.forFile inner'.compat n.info name)] ++
        cs.map .payload ++ [.fileTrailer (Way.trailer inner inner' job n .get)] := by rw [h.tried, hms]; rfl
    have hsent := sent_of_read hr _ htried (enc_framed_ne_nil FileTrailer.form _) (by
      rw [htried, htaken, List.flatMap_append, List.flatMap_append, enc_payloads]
      simp only [List.flatMap_cons, List.flatMap_nil, List.append_nil, List.append_assoc]
      exact List.prefix_refl _)
    refine ⟨fun _ n' hn' => ?_, fun _ => ⟨⟨Way.trailer inner inner' job n .get, ?_⟩, ?_, ?_⟩⟩
    · cases h.source.symm.trans hn'
      rintro ⟨tb, t, -, ht⟩
      rw [← hcontent, ← hclen, List.drop_length] at ht
      exact Frame.not_frame_prefix_nil tb [] (by rwa [List.append_nil])
    · rw [hsent, htried]
      exact List.mem_append_right _ (List.mem_singleton_self _)
    · rw [hsent, htried, h.got, List.filter_append, List.filter_append, filter_isMessage_payloads]
      rfl
    · rw [h.heard, h.asked]
      rfl

/-! ## PUT -/

/-- **A PUT whose client is done**: what either side has read and sent. -/
structure PutExchange (inner inner' : SessionCommandInner) (job : CopyJobSpec) (u : World) (x : Joint G H) (n : Node)
    (name : Text) (hdr : FileHeader) (t : FileTrailer) (payload : Bytes) (ms : List Msg) : Prop where
  asked : x.1.2.sent = .command (PutHandler.command inner job) :: ms
  got : x.1.2.got = [.response okResponse, .response okResponse]
  heard : x.2.2.got = [.command (PutHandler.command inner job), .fileHeader hdr, .fileTrailer t]
  tried : x.2.2.tried = [.response okResponse, .response okResponse]
  answered : x.2.2.sent = [.response okResponse, .response okResponse]
  stored : Stored H inner'.config.ioBufferSize.toNat (frame (Command.codec.enc (PutHandler.command inner job))) hdr
    payload t x.2.2.view
  source : u (G.place job.source.filename) = some n
  sends : FileSends inner.config.ioBufferSize.toNat n.content (.forFile inner.compat n.info name)
    (Way.trailer inner inner' job n .put) ms
  whole : ∃ t, .fileTrailer t ∈ ms
  bytes : ∀ y, x.2.2.taken = frame (Command.codec.enc (PutHandler.command inner job)) ++ y → y <+: ms.flatMap Msg.enc

theorem put_exchange (hr : Pair.Reach (PutHandler.sendImpl inner job) (handleStream inner') u w x) {a : RequestResult}
    (ha : x.1.1 = .ret (.ok a)) :
    ∃ n name hdr t payload ms, PutExchange inner inner' job u x n name hdr t payload ms := by
  have hcs : Steps (PutHandler.sendImpl inner job, Local.init u) (.ret (.ok a), x.1.2) := ha ▸ (Pair.reach hr).1
  obtain ⟨hsent, hfit, ⟨ms, t', htried, ⟨n, name, hn, hsends⟩, hmem⟩, rb, r, rb', r', hrr, hok, hrr', hok', hgot,
      htaken⟩ :=
    (Ok.putClient inner job u).run_ok hcs
  have hsent : x.1.2.sent = x.1.2.tried := hsent
  have htried : x.1.2.tried = .command (PutHandler.command inner job) :: ms := htried
  have hgot : x.1.2.got = [.response r, .response r'] := hgot
  have htaken : x.1.2.taken = frame rb ++ frame rb' := htaken
  have hread := Pair.taken_left hr
  rw [htaken] at hread
  have hne : x.2.2.tried ≠ [] := ne_nil_of_frame hread
  obtain ⟨cb, hcr, rfl, hserved⟩ := served hr htried hfit (PutHandler.plain_command inner job) hne
  obtain ⟨ms', hms', hrest, rfl, rfl, hlast⟩ := (putRest_of_served hserved).consented hrr hok hread
  have hms' : x.2.2.tried = .response okResponse :: ms' := hms'
  have hlast : frame rb' ++ [] <+: ms'.flatMap Msg.enc := by rwa [List.append_nil]
  cases hrest with
  | waiting => exact absurd hlast (Frame.not_frame_prefix_nil _ _)
  | failed r'' hfit'' hne'' =>
    obtain ⟨rfl, -, -⟩ := hrr'.of_sent hfit'' (Response.readsBack_of_fits r'' hfit'') hlast
    exact absurd hok' hne''
  | finished hdr payload t hheard hst =>
    have hokfit : Response.form.Fits okResponse := by decide
    obtain ⟨rfl, rfl, -⟩ := hrr'.of_sent hokfit (Response.readsBack_of_fits okResponse hokfit) hlast
    have hsent' := sent_of_read hr [.response okResponse] (m := .response okResponse) hms'
      (enc_framed_ne_nil Response.form _) (by rw [hms', htaken]; exact List.prefix_refl _)
    refine ⟨n, name, hdr, t, payload, ms, hsent.trans htried, hgot, hheard, hms', hsent'.trans hms', hst, hn, hsends,
      ⟨t', hmem⟩, fun y hy => ?_⟩
    have hread' := Pair.taken_right hr
    rw [htried, hy] at hread'
    exact (hcr.of_sent (y := ms.flatMap Msg.enc) hfit
      (Command.readsBack_of_fits _ (PutHandler.plain_command inner job) hfit) hread').2.2

theorem put_completes (hr : Pair.Reach (PutHandler.sendImpl inner job) (handleStream inner') u w x)
    (hin : inner.config.ioBufferSize ≠ 0) (hin' : inner'.config.ioBufferSize ≠ 0) {a : RequestResult}
    (ha : x.1.1 = .ret (.ok a)) : Request.Performed G H u w x.2.2 (.put job) ∧ Heard x := by
  obtain ⟨n, name, hdr, t, payload, ms, h⟩ := put_exchange hr ha
  -- the server has read the whole file
  obtain ⟨hb, tb, htaken, hhr, htr⟩ := h.stored.taken
  obtain ⟨rfl, -, cs, hcs, hcase⟩ := h.sends.received (FileHeader.readsBack_of_fits _ (FileHeader.forFile_plain _ _ _))
    hhr (h.bytes _ htaken)
  have hcap : inner.config.ioBufferSize.toNat ≠ 0 := fun h0 => hin (UInt64.toNat_inj.1 h0)
  have hcap' : inner'.config.ioBufferSize.toNat ≠ 0 := fun h0 => hin' (UInt64.toNat_inj.1 h0)
  obtain ⟨t', hmem⟩ := h.whole
  rcases hcase with ⟨rfl, -⟩ | ⟨rfl, htfit, -, hall, hclen, hp⟩
  · simp at hmem
  · obtain ⟨rfl, rfl, -⟩ := trailer_of_sent ((h.stored.whole.resolve_right hcap').trans hclen.symm) htr htfit
      (FileTrailer.forFile_plain _ _ _) hp
    obtain ⟨path, place, c, info, hopens, hc, hw⟩ := h.stored.kept
    rw [hall.resolve_left hcap] at hw
    refine ⟨⟨h.answered, n, _, path, place, c, info, h.source, hopens, ?_, hc, hw⟩, ?_, ?_⟩
    · rw [h.heard]; simp [Way.trailer]
    · rw [h.got, h.answered]; rfl
    · rw [h.heard, h.asked]
      simp [Msg.isMessage, List.filter_cons, filter_isMessage_payloads]

/-! ## The other requests -/

/-- **Consent that ends a request was the server's last word**, if that is all it says to such a command. -/
theorem consented_completes {p : Act G RequestResult} {q : Command → Prop}
    (rest : Command → View H.sig → List Msg → Prop) (hr : Pair.Reach p (handleStream inner') u w x)
    (hplain : ∀ c, q c → ∀ t ∈ c.tagged, t.Plain)
    (hans : ∀ c cb, q c → Served H inner' w cb x.2.2.view c → Answering c (rest c) x.2.2.view)
    (hnil : ∀ c ms, rest c x.2.2.view ms → ms = []) (hcons : Consented G q x.1.2.view) :
    ∃ c, q c ∧ rest c x.2.2.view [] ∧ x.2.2.sent = [.response okResponse] ∧ x.2.2.got = [.command c] ∧ Heard x := by
  obtain ⟨c, rb, r, hq, hasked, hgot, htaken⟩ := hcons
  have htaken : x.1.2.taken = frame rb ++ [] := by rw [List.append_nil]; exact htaken
  have hread := Pair.taken_left hr
  rw [htaken] at hread
  have hne : x.2.2.tried ≠ [] := ne_nil_of_frame hread
  obtain ⟨cb, -, -, hserved⟩ := served hr hasked.tried hasked.fits (hplain c hq) hne
  have ha := hans c cb hq hserved
  obtain ⟨ms, hms, hrest, rfl, rfl, -⟩ := ha.tried.consented hasked.reads hasked.ok hread
  cases hnil c ms hrest
  have hms : x.2.2.tried = [.response okResponse] := hms
  have hsent := sent_of_read hr [] hms (enc_framed_ne_nil Response.form _) (by
    rw [hms, htaken, List.append_nil]
    exact List.prefix_refl _)
  refine ⟨c, hq, hrest, by rw [hsent, hms], ha.got, ?_, ?_⟩
  · rw [hsent, hms, show x.1.2.got = _ from hgot]
    rfl
  · rw [show x.2.2.got = _ from ha.got, show x.1.2.sent = _ from hasked.sent]
    rfl

theorem createDirectory_completes
    (hr : Pair.Reach (CreateDirectoryHandler.sendImpl inner job) (handleStream inner') u w x)
    {a : RequestResult} (ha : x.1.1 = .ret (.ok a)) :
    Request.Performed G H u w x.2.2 (.createDirectory job) ∧ Heard x := by
  have hcs : Steps (CreateDirectoryHandler.sendImpl inner job, Local.init u) (.ret (.ok a), x.1.2) :=
    ha ▸ (Pair.reach hr).1
  obtain ⟨c, rfl, ⟨-, hdir⟩, hsent, -, hh⟩ := consented_completes
    (fun _ => DirectoryMade H ⟨job.destination.filename, []⟩) hr
    (fun c hc t ht => by rw [hc] at ht; cases ht) (fun c cb hc hs => by cases hc; exact hs) (fun _ _ h => h.1)
    ((Ok.createDirectoryClient inner job u).run_ok hcs)
  exact ⟨⟨hsent, hdir⟩, hh⟩

theorem setMetadata_completes (hr : Pair.Reach (SetMetadataHandler.sendImpl inner job) (handleStream inner') u w x)
    {a : RequestResult} (ha : x.1.1 = .ret (.ok a)) :
    Request.Performed G H u w x.2.2 (.setMetadata job) ∧ Heard x := by
  have hcs : Steps (SetMetadataHandler.sendImpl inner job, Local.init u) (.ret (.ok a), x.1.2) := ha ▸ (Pair.reach hr).1
  obtain ⟨c, ⟨info, rfl⟩, hset, hsent, hgot, hh⟩ := consented_completes
    (fun c v ms => ∃ args, c = .setMetadata args ∧ MetadataSet H w args v ms) hr
    (by
      rintro _ ⟨info, rfl⟩ t ht
      rw [Command.tagged, List.append_nil] at ht
      exact info.plain_toTaggedData false t ht)
    (by
      rintro _ cb ⟨info, rfl⟩ hs
      exact ⟨hs.got, hs.tried.mono fun _ h => ⟨_, rfl, h⟩⟩)
    (by
      rintro _ _ ⟨args, -, n, -, h, -⟩
      exact h)
    ((Ok.setMetadataClient inner job u).run_ok hcs)
  obtain ⟨args, hargs, n, hn, -, hno, hw⟩ := hset
  cases hargs
  exact ⟨⟨hsent, _, n, hgot, rfl, hn, hno, hw⟩, hh⟩

/-! ## Listings -/

/-- Packets that end within others are all of them. -/
theorem Closed.eq_of_prefix {ps qs : List ListData} (hp : Closed ps) (hq : Closed qs) (h : ps <+: qs) : ps = qs := by
  obtain ⟨front, last, rfl, -, hlast⟩ := hp
  obtain ⟨front', last', rfl, hfront', -⟩ := hq
  by_contra hne
  have hlen := h.length_le
  have hpre : front ++ [last] <+: front' := by
    apply List.prefix_of_prefix_length_le h (List.prefix_append _ _)
    rw [List.length_append, List.length_singleton, List.length_append, List.length_singleton] at hlen
    rw [List.length_append, List.length_singleton]
    rcases Nat.lt_or_ge front.length front'.length with hl | hl
    · exact hl
    · exact absurd (h.eq_of_length (by
        rw [List.length_append, List.length_append, List.length_singleton, List.length_singleton]; omega)) hne
  have := hfront' last (hpre.subset (List.mem_append_right _ (List.mem_singleton_self _)))
  rw [hlast] at this
  cases this

/-- Packets read in the place of others are those. -/
theorem reads_of_sent : ∀ (bss : List Bytes) (ps qs : List ListData), List.Forall₂ ListData.form.Reads bss ps →
    (∀ q ∈ qs, ListData.form.Fits q) → (∀ q ∈ qs, ListData.form.ReadsBack q) →
    bss.flatMap frame <+: (qs.map Msg.listData).flatMap Msg.enc →
    ps <+: qs ∧ bss.flatMap frame = (ps.map Msg.listData).flatMap Msg.enc
  | [], _, _, .nil, _, _, _ => ⟨List.nil_prefix, rfl⟩
  | bs :: bss, _, [], .cons _ _, _, _, h => absurd h (Frame.not_frame_prefix_nil _ _)
  | bs :: bss, _ :: ps, q :: qs, .cons hread hreads, hfit, hback, h => by
    obtain ⟨rfl, rfl, hrest⟩ := hread.of_sent (y := (qs.map Msg.listData).flatMap Msg.enc) (hfit q List.mem_cons_self)
      (hback q List.mem_cons_self) h
    obtain ⟨hpre, heq⟩ := reads_of_sent bss ps qs hreads (fun q hq => hfit q (List.mem_cons_of_mem _ hq))
      (fun q hq => hback q (List.mem_cons_of_mem _ hq)) hrest
    refine ⟨List.cons_prefix_cons.2 ⟨rfl, hpre⟩, ?_⟩
    rw [List.flatMap_cons, heq]
    rfl

theorem filter_isMessage_listData (ps : List ListData) :
    (ps.map Msg.listData).filter Msg.isMessage = ps.map Msg.listData := by
  induction ps with
  | nil => rfl
  | cons p ps ih => rw [List.map_cons, List.filter_cons_of_pos rfl, ih]

theorem list_completes {recurse : Bool}
    (hr : Pair.Reach (ListingHandler.sendImpl inner job recurse) (handleStream inner') u w x)
    {a : RequestResult} (ha : x.1.1 = .ret (.ok a)) :
    Request.Performed G H u w x.2.2 (.list job recurse) ∧ Heard x := by
  have hcs : Steps (ListingHandler.sendImpl inner job recurse, Local.init u) (.ret (.ok a), x.1.2) :=
    ha ▸ (Pair.reach hr).1
  obtain ⟨rb, r, bss, ps, hasked, hreads, hclosed, hgot, htaken⟩ := (Ok.listClient inner job recurse u).run_ok hcs
  have htaken : x.1.2.taken = frame rb ++ bss.flatMap frame := htaken
  have hread := Pair.taken_left hr
  rw [htaken] at hread
  have hne : x.2.2.tried ≠ [] := ne_nil_of_frame hread
  obtain ⟨cb, -, -, hserved⟩ := served hr hasked.tried hasked.fits (ListingHandler.plain_command job recurse) hne
  have hans : Answering (ListingHandler.command job recurse) (fun _ => Lists) x.2.2.view := hserved
  obtain ⟨ms, hms, ⟨full, qs, hfull, hp, hqs, rfl, hfit⟩, rfl, rfl, hrest⟩ :=
    hans.tried.consented hasked.reads hasked.ok hread
  have hms : x.2.2.tried = .response okResponse :: qs.map .listData := hms
  obtain ⟨hpre, henc⟩ := reads_of_sent bss ps qs hreads hfit
    (fun q hq => ListData.readsBack_of_fits q (hp q (hqs.subset hq)) (hfit q hq)) hrest
  have hall := hclosed.eq_of_prefix hfull (hpre.trans hqs)
  have hqs : qs = ps := (hpre.eq_of_length (Nat.le_antisymm hpre.length_le (hall ▸ hqs.length_le))).symm
  rw [hqs] at hms
  obtain ⟨front, last, hlast, -, hmore⟩ := hclosed
  have hsent := sent_of_read hr (.response okResponse :: front.map .listData) (m := .listData last)
    (by rw [hms, hlast, List.map_append]; rfl) (enc_framed_ne_nil ListData.form _)
    (by rw [hms, htaken, henc]; exact List.prefix_refl _)
  refine ⟨⟨last, ?_, hmore⟩, ?_, ?_⟩
  · rw [hsent, hms, hlast]; simp
  · rw [hsent, hms, List.filter_cons_of_pos rfl, filter_isMessage_listData]
    exact hgot
  · rw [show x.2.2.got = _ from hans.got, show x.1.2.sent = _ from hasked.sent]
    rfl

end Requests

/-- **No false success**: a client that is done has been served, unless it was given a file that goes on like its own
trailer. -/
theorem no_false_success_iff (G H : Host) (inner inner' : SessionCommandInner) (req : Request) (u w : World)
    (x : Joint G H) (hin : inner.config.ioBufferSize ≠ 0) (hin' : inner'.config.ioBufferSize ≠ 0)
    (hr : Pair.Reach (req.sendImpl inner) (handleStream inner') u w x) (a : RequestResult) (ha : x.1.1 = .ret (.ok a)) :
    (req.Performed G H u w x.2.2 ∧ Heard x) ↔ req.EndsClean H w := by
  cases req with
  | get job => exact get_completes hr hin hin' ha
  | put job => exact iff_of_true (put_completes hr hin hin' ha) trivial
  | createDirectory job => exact iff_of_true (createDirectory_completes hr ha) trivial
  | setMetadata job => exact iff_of_true (setMetadata_completes hr ha) trivial
  | list job recurse => exact iff_of_true (list_completes hr ha) trivial

theorem no_false_success_iff_overlong : ∃ x : Joint oneHost oneHost,
    (Request.Performed oneHost oneHost (fun _ => none) (oneFile 1 [7]) x.2.2 (.get fetching) ∧ Heard x) ↔
      Request.EndsClean oneHost (oneFile 1 [7]) (.get fetching) := by
  obtain ⟨x, hx, a, ha⟩ := mistaken_run 1 1048576 [7] (by decide) (by decide) (Or.inr ⟨by decide, by decide, by decide⟩)
  exact ⟨x, no_false_success_iff oneHost oneHost (withBuffer 1048576) (withBuffer 1048576) (.get fetching) _ _ x
    (by decide) (by decide) hx a ha⟩

/-- **A client may be done with a file that its server gave up on.** -/
theorem not_no_false_success : ¬ ∀ (G H : Host) (inner inner' : SessionCommandInner) (req : Request) (u w : World)
    (x : Joint G H), inner.config.ioBufferSize ≠ 0 → inner'.config.ioBufferSize ≠ 0 →
    Pair.Reach (req.sendImpl inner) (handleStream inner') u w x → ∀ a, x.1.1 = .ret (.ok a) →
    req.Performed G H u w x.2.2 ∧ Heard x := by
  intro hall
  obtain ⟨x, hx, a, ha⟩ := mistaken_run 1 1048576 [7] (by decide) (by decide) (Or.inr ⟨by decide, by decide, by decide⟩)
  have h := hall oneHost oneHost (withBuffer 1048576) (withBuffer 1048576) (.get fetching) _ _ x (by decide)
    (by decide) hx a ha
  have hclean := (get_completes hx (by decide) (by decide) ha).1 h
  refine hclean _ rfl ⟨FileTrailer.codec.enc .v1, .v1, ⟨by decide, ?_⟩, List.prefix_refl _⟩
  exact FileTrailer.readsBack_of_fits .v1 (fun t ht => absurd ht List.not_mem_nil) (by decide)

end Qcp
