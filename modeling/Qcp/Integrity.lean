import Qcp.Requests
/-!
# Integrity — what a receiver holds after a transfer that succeeded

What a receiver has read is the front of what the sender began to send, so that each frame it read is the one that was
sent (`Form.Reads.of_sent`); `FileSends.received` reads a file off the stream that way.  `transfer_intact_iff` says when
what was received is what the sender read: unless the receiver has no buffer and the file looks like its own trailer.
-/
namespace Qcp

open Bare (Bytes Text Codec)
open Posix (Path)
open Proc (Pair View Local Steps Gives Reaches Ok)
open Frame (frame)

/-! ## Messages read off the stream -/

theorem enc_payloads (cs : List Bytes) : (cs.map Msg.payload).flatMap Msg.enc = cs.flatten := by
  induction cs with
  | nil => rfl
  | cons c cs ih => rw [List.map_cons, List.flatMap_cons, ih]; rfl

/-- Whoever has read a frame was sent something. -/
theorem ne_nil_of_frame {bs x : Bytes} {ms : List Msg} (h : frame bs ++ x <+: ms.flatMap Msg.enc) : ms ≠ [] := by
  rintro rfl
  exact Frame.not_frame_prefix_nil bs x h

/-- **Consent that is read was sent**, and what follows follows it. -/
theorem Answered.consented {rest : List Msg → Prop} {ms : List Msg} (h : Answered rest ms) {rb x : Bytes} {r : Response}
    (hr : Response.form.Reads rb r) (hok : r.status = Status.ok.toRepr) (hp : frame rb ++ x <+: ms.flatMap Msg.enc) :
    ∃ ms', ms = .response okResponse :: ms' ∧ rest ms' ∧ r = okResponse ∧ rb = Response.codec.enc okResponse ∧
      x <+: ms'.flatMap Msg.enc := by
  cases h with
  | nothing => exact absurd hp (Frame.not_frame_prefix_nil rb x)
  | refused r' hfit hne =>
    have := (hr.of_sent hfit (Response.readsBack_of_fits r' hfit) hp).1
    exact absurd hok (this ▸ hne)
  | accepted ms' hrest =>
    have hfit : Response.form.Fits okResponse := by decide
    obtain ⟨h1, h2, h3⟩ := hr.of_sent hfit (Response.readsBack_of_fits okResponse hfit) hp
    exact ⟨ms', rfl, hrest, h1, h2, h3⟩

/-- **A header that is read was sent**, and what follows are pieces of the content, and then perhaps the trailer. -/
theorem FileSends.received {cap : Nat} {content : Bytes} {header : FileHeader} {trailer : FileTrailer} {ms : List Msg}
    (h : FileSends cap content header trailer ms)
    (hback : FileHeader.form.Fits header → FileHeader.form.ReadsBack header)
    {hb x : Bytes} {hdr : FileHeader} (hr : FileHeader.form.Reads hb hdr) (hp : frame hb ++ x <+: ms.flatMap Msg.enc) :
    hdr = header ∧ hb = FileHeader.codec.enc header ∧ ∃ cs : List Bytes, cs.flatten <+: content ∧
      ((ms = .fileHeader header :: cs.map .payload ∧ x <+: cs.flatten) ∨
        (ms = .fileHeader header :: (cs.map .payload ++ [.fileTrailer trailer]) ∧ FileTrailer.form.Fits trailer ∧
          (cap = 0 → cs.flatten = []) ∧ (cap = 0 ∨ cs.flatten = content) ∧
          cs.flatten.length = header.toV2.size.toNat ∧ x <+: cs.flatten ++ (Msg.fileTrailer trailer).enc)) := by
  cases h with
  | nothing => exact absurd hp (Frame.not_frame_prefix_nil hb x)
  | pieces cs hfit hcs =>
    obtain ⟨h1, h2, h3⟩ := hr.of_sent (y := (cs.map Msg.payload).flatMap Msg.enc) hfit (hback hfit) hp
    rw [enc_payloads] at h3
    exact ⟨h1, h2, cs, hcs, Or.inl ⟨rfl, h3⟩⟩
  | whole cs hfit hcs hzero hall hlen htfit =>
    obtain ⟨h1, h2, h3⟩ := hr.of_sent (y := (cs.map Msg.payload ++ [Msg.fileTrailer trailer]).flatMap Msg.enc) hfit
      (hback hfit) hp
    rw [List.flatMap_append, enc_payloads, List.flatMap_cons, List.flatMap_nil, List.append_nil] at h3
    exact ⟨h1, h2, cs, hcs, Or.inr ⟨rfl, htfit, hzero, hall, hlen, h3⟩⟩

/-! ## Intact files -/

/-- The content of the files among these messages. -/
def payloads (ms : List Msg) : Bytes :=
  ms.flatMap fun
    | .payload bs => bs
    | _ => []

theorem payloads_append (ms ns : List Msg) : payloads (ms ++ ns) = payloads ms ++ payloads ns := List.flatMap_append

theorem payloads_map (cs : List Bytes) : payloads (cs.map .payload) = cs.flatten := by
  induction cs with
  | nil => rfl
  | cons c cs ih =>
    rw [List.flatten_cons, ← ih]
    rfl

/-- A stream that begins with what can be read as a trailer. -/
def StartsWithTrailer (bs : Bytes) : Prop := ∃ tb t, FileTrailer.form.Reads tb t ∧ frame tb <+: bs

/-- **One file was opened, it holds as much as was announced of what the sender read and sent, and the trailer was read
right behind it.** -/
structure Intact {H : Host} (sent : List Msg) (size : Nat) (s : Local H.sig) : Prop where
  enough : size ≤ (payloads sent).length
  content : ∃ path h, opens s.done = [(path, h)] ∧ s.world.content h = (payloads sent).take size
  trailer : ∃ before tb t, s.taken = before ++ ((payloads sent).take size ++ frame tb) ∧ FileTrailer.form.Reads tb t ∧
    .fileTrailer t ∈ s.got

/-- The receiver has a buffer, or there is nothing to receive, or the file does not begin like its own trailer. -/
def Unmistakable (cap size : Nat) (content : Bytes) (trailer : FileTrailer) : Prop :=
  cap ≠ 0 ∨ size = 0 ∨ ¬ StartsWithTrailer (content ++ (Msg.fileTrailer trailer).enc)

/-- **What is stored is intact exactly when the end of the file could not be mistaken.** -/
theorem Stored.intact_iff {H : Host} {s : Local H.sig} {cap : Nat} {before payload content : Bytes} {hdr : FileHeader}
    {t : FileTrailer} (hst : Stored H cap before hdr payload t s.view) (hgot : .fileTrailer t ∈ s.got)
    {capS : Nat} {header : FileHeader} {trailer : FileTrailer} {ms : List Msg} (front : List Msg)
    (hsends : FileSends capS content header trailer ms) (hfront : payloads front = [])
    (hback : FileHeader.form.Fits header → FileHeader.form.ReadsBack header)
    (hbytes : ∀ y, s.taken = before ++ y → y <+: ms.flatMap Msg.enc) :
    hdr = header ∧ payloads (front ++ ms) <+: content ∧
      (Intact (front ++ ms) header.toV2.size.toNat s ↔ Unmistakable cap header.toV2.size.toNat content trailer) := by
  obtain ⟨⟨hb, tb, htaken, hhr, htr⟩, hzero, hwhole, path, h, c, info, hopens, -, hw⟩ := hst
  have htaken : s.taken = before ++ (frame hb ++ (payload ++ frame tb)) := htaken
  have hopens : opens s.done = [(path, h)] := hopens
  have hcontent : s.world.content h = payload := World.content_of hw
  obtain ⟨rfl, -, cs, hcs, hcase⟩ := hsends.received hback hhr (hbytes _ htaken)
  have hpay : payloads (front ++ ms) = cs.flatten := by
    rw [payloads_append, hfront, List.nil_append]
    rcases hcase with ⟨rfl, -⟩ | ⟨rfl, -⟩
    · exact payloads_map cs
    · show payloads (cs.map .payload ++ [.fileTrailer trailer]) = _
      rw [payloads_append, payloads_map]
      exact List.append_nil _
  have hle : payload.length ≤ hdr.toV2.size.toNat := by
    rcases hwhole with he | h0
    · exact he.le
    · rw [hzero h0]; exact Nat.zero_le _
  -- what was received is some of the pieces, in whichever way they end
  have hsome : payload <+: cs.flatten := by
    rcases hcase with ⟨-, hp⟩ | ⟨-, -, -, -, hlen, hp⟩
    · exact (List.prefix_append _ _).trans hp
    · exact List.prefix_of_prefix_length_le ((List.prefix_append _ _).trans hp) (List.prefix_append _ _) (hlen ▸ hle)
  rw [hpay]
  refine ⟨rfl, hcs, fun hi => ?_, fun hu => ?_⟩
  · by_cases hcap : cap = 0
    · by_cases hsize : hdr.toV2.size.toNat = 0
      · exact Or.inr (Or.inl hsize)
      · exfalso
        obtain ⟨path', h', ho', hc'⟩ := hi.content
        rw [hpay] at hc'
        have henough := hi.enough
        rw [hpay] at henough
        cases hopens.symm.trans ho'
        rw [hcontent, hzero hcap] at hc'
        have := congrArg List.length hc'
        rw [List.length_nil, List.length_take] at this
        omega
    · exact Or.inl hcap
  · have hnot : cap ≠ 0 ∨ hdr.toV2.size.toNat = 0 := by
      rcases hu with hu | hu | hu
      · exact Or.inl hu
      · exact Or.inr hu
      · by_contra hno
        obtain ⟨hcap, hsize⟩ := not_or.1 hno
        have hcap := not_not.1 hcap
        rw [hzero hcap, List.nil_append] at hcase
        refine hu ⟨tb, t, htr, ?_⟩
        rcases hcase with ⟨-, hp⟩ | ⟨-, -, hz, hall, hlen, hp⟩
        · exact (hp.trans hcs).trans (List.prefix_append _ _)
        · rcases hall with h0 | hall
          · rw [hz h0] at hlen
            exact absurd hlen.symm hsize
          · rwa [hall] at hp
    have hlen : payload.length = hdr.toV2.size.toNat := by
      rcases hwhole with he | h0
      · exact he
      · rw [hzero h0, List.length_nil, hnot.resolve_left (not_not.2 h0)]
    have htake : payload = cs.flatten.take hdr.toV2.size.toNat := by
      rw [← hlen]; exact List.prefix_iff_eq_take.1 hsome
    refine ⟨?_, ⟨path, h, hopens, ?_⟩, before ++ frame hb, tb, t, ?_, htr, hgot⟩
    · rw [hpay, ← hlen]; exact hsome.length_le
    · rw [hpay, hcontent, htake]
    · rw [hpay, htaken, ← htake, List.append_assoc]

/-! ## A client and a server -/

/-- A client and a server that are joined by a stream. -/
abbrev Joint (G H : Host) := Pair G.sig H.sig (Except Err RequestResult) (Except Err Unit)

theorem CopyJobSpec.plain_options (job : CopyJobSpec) :
    ∀ t ∈ (if job.preserve then [CommandParam.preserveMetadata.tagged] else []), t.Plain := by
  intro t ht
  split at ht
  · rw [List.mem_singleton.1 ht]
    exact Or.inl rfl
  · cases ht

theorem GetHandler.plain_command (inner : SessionCommandInner) (job : CopyJobSpec) :
    ∀ t ∈ (GetHandler.command inner job).tagged, t.Plain := by
  unfold GetHandler.command
  split
  · exact job.plain_options
  · exact List.forall_mem_nil _

theorem PutHandler.plain_command (inner : SessionCommandInner) (job : CopyJobSpec) :
    ∀ t ∈ (PutHandler.command inner job).tagged, t.Plain := by
  unfold PutHandler.command
  split
  · exact job.plain_options
  · exact List.forall_mem_nil _

section Joint

variable {G H : Host} {p : Act G RequestResult} {inner : SessionCommandInner} {u w : World} {x : Joint G H}

/-- A server answers only what its client has sent. -/
theorem tried_of_served (hr : Pair.Reach p (handleStream inner) u w x) (hne : x.2.2.tried ≠ []) : x.1.2.tried ≠ [] := by
  intro hnil
  rcases (Ok.handleStream inner w).run (Pair.reach hr).2.1 with ht | ⟨c, cb, -, hp, -⟩
  · exact hne ht
  · have h := Pair.taken_right hr
    rw [hnil] at h
    exact Frame.not_frame_prefix_nil cb [] (by rw [List.append_nil]; exact hp.trans h)

/-- **The command a server serves is the one its client has sent.** -/
theorem served (hr : Pair.Reach p (handleStream inner) u w x) {cmd : Command} {rest : List Msg}
    (ht : x.1.2.tried = .command cmd :: rest) (hfit : Command.form.Fits cmd) (hplain : ∀ t ∈ cmd.tagged, t.Plain)
    (hne : x.2.2.tried ≠ []) :
    ∃ cb, Command.form.Reads cb cmd ∧ cb = Command.codec.enc cmd ∧ Served H inner w cb x.2.2.view cmd := by
  rcases (Ok.handleStream inner w).run (Pair.reach hr).2.1 with h | ⟨c, cb, hread, ⟨y, hy⟩, hs⟩
  · exact absurd h hne
  · have h := Pair.taken_right hr
    rw [ht, show x.2.2.taken = frame cb ++ y from hy.symm] at h
    obtain ⟨rfl, hcb, -⟩ := hread.of_sent (y := rest.flatMap Msg.enc) hfit (Command.readsBack_of_fits cmd hplain hfit) h
    exact ⟨cb, hread, hcb, hs⟩

end Joint

/-! ## Both ways -/

/-- The two ways a file goes: to the client, or from it. -/
inductive Way where
  | get
  | put
deriving DecidableEq, Repr

namespace Way

variable {G H : Host}

def sendImpl (inner : SessionCommandInner) (job : CopyJobSpec) : Way → Act G RequestResult
  | get => GetHandler.sendImpl inner job
  | put => PutHandler.sendImpl inner job

/-- The receiving side has succeeded: the client is done, or the server has begun to say that it is. -/
def Succeeded (x : Joint G H) : Way → Prop
  | get => ∃ a, x.1.1 = .ret (.ok a)
  | put => [.response okResponse, .response okResponse] <+: x.2.2.tried

/-- What is at the source. -/
def source (G H : Host) (u w : World) (job : CopyJobSpec) : Way → Option Node
  | get => w (H.place job.source.filename)
  | put => u (G.place job.source.filename)

/-- What the sender has begun to send. -/
def sent (x : Joint G H) : Way → List Msg
  | get => x.2.2.tried
  | put => x.1.2.tried

def Intact (x : Joint G H) (size : Nat) : Way → Prop
  | get => Qcp.Intact (sent x get) size x.1.2
  | put => Qcp.Intact (sent x put) size x.2.2

/-- The trailer for what is at the source; a server gives times only if it is asked to. -/
def trailer (inner inner' : SessionCommandInner) (job : CopyJobSpec) (n : Node) : Way → FileTrailer
  | get => .forFile inner'.compat n.info (inner.compat.supports .get2Put2 && job.preserve)
  | put => .forFile inner.compat n.info job.preserve

/-- What the receiver has read. -/
def got (x : Joint G H) : Way → List Msg
  | get => x.1.2.got
  | put => x.2.2.got

/-- The size of the receiver's buffer. -/
def bufferSize (inner inner' : SessionCommandInner) : Way → Nat
  | get => inner.config.ioBufferSize.toNat
  | put => inner'.config.ioBufferSize.toNat

end Way

section Both

variable {G H : Host} {inner inner' : SessionCommandInner} {job : CopyJobSpec} {u w : World} {x : Joint G H}

/-- What the server of a GET offers, whichever command it was asked with. -/
theorem offers_of_served {cb : Bytes} {v : View H.sig} (hs : Served H inner' w cb v (GetHandler.command inner job)) :
    v.got = [.command (GetHandler.command inner job)] ∧
      Answered (Offers H inner' w job.source.filename (inner.compat.supports .get2Put2 && job.preserve)) v.tried := by
  unfold GetHandler.command at hs ⊢
  cases hc : inner.compat.supports .get2Put2 with
  | false =>
    rw [hc, if_neg Bool.false_ne_true] at hs
    exact ⟨hs.got, hs.tried⟩
  | true =>
    rw [hc, if_pos rfl] at hs
    refine ⟨hs.got, ?_⟩
    have := hs.tried
    cases hp : job.preserve with
    | false => rw [hp] at this; exact this
    | true => rw [hp] at this; exact this

theorem putRest_of_served {cb : Bytes} {v : View H.sig} (hs : Served H inner' w cb v (PutHandler.command inner job)) :
    Answered (PutRest H inner'.config.ioBufferSize.toNat (PutHandler.command inner job) cb v) v.tried := by
  unfold PutHandler.command at hs ⊢
  split at hs
  · rename_i hc
    rw [if_pos hc]
    exact hs
  · rename_i hc
    rw [if_neg hc]
    exact hs

/-- **Consent is given twice only when all is done.** -/
theorem finished_of_twice {cap : Nat} {c : Command} {cb : Bytes} {v : View H.sig} {ms : List Msg}
    (h : Answered (PutRest H cap c cb v) ms) (ht : [.response okResponse, .response okResponse] <+: ms) :
    ms = [.response okResponse, .response okResponse] ∧ ∃ header payload trailer,
      v.got = [.command c, .fileHeader header, .fileTrailer trailer] ∧ Stored H cap (frame cb) header payload
      trailer v := by
  cases h with
  | nothing => exact absurd ht.length_le (by simp)
  | refused r _ _ => exact absurd ht.length_le (by simp)
  | accepted ms h =>
    have ht := (List.cons_prefix_cons.1 ht).2
    cases h with
    | waiting => exact absurd ht.length_le (by simp)
    | failed r _ hne =>
      have := (List.cons_prefix_cons.1 ht).1
      cases this
      exact absurd rfl hne
    | finished header payload trailer hgot hst => exact ⟨rfl, header, payload, trailer, hgot, hst⟩

/-- **A GET whose client is done**: what either side has read and sent. -/
structure GetExchange (inner inner' : SessionCommandInner) (job : CopyJobSpec) (w : World) (x : Joint G H) (n : Node)
    (name : Text) (hdr : FileHeader) (t : FileTrailer) (payload tb : Bytes) (ms : List Msg) : Prop where
  asked : x.1.2.sent = [.command (GetHandler.command inner job)]
  heard : x.2.2.got = [.command (GetHandler.command inner job)]
  got : x.1.2.got = [.response okResponse, .fileHeader hdr, .fileTrailer t]
  taken : ∃ hb, x.1.2.taken = (Msg.response okResponse).enc ++ (frame hb ++ (payload ++ frame tb)) ∧
    FileHeader.form.Reads hb hdr
  trailer : FileTrailer.form.Reads tb t
  stored : Stored G inner.config.ioBufferSize.toNat (Msg.response okResponse).enc hdr payload t x.1.2.view
  source : w (H.place job.source.filename) = some n
  tried : x.2.2.tried = .response okResponse :: ms
  sends : FileSends inner'.config.ioBufferSize.toNat n.content (.forFile inner'.compat n.info name)
    (Way.trailer inner inner' job n .get) ms
  bytes : ∀ y, x.1.2.taken = (Msg.response okResponse).enc ++ y → y <+: ms.flatMap Msg.enc

theorem get_exchange (hr : Pair.Reach (GetHandler.sendImpl inner job) (handleStream inner') u w x) {a : RequestResult}
    (ha : x.1.1 = .ret (.ok a)) :
    ∃ n name hdr t payload tb ms, GetExchange inner inner' job w x n name hdr t payload tb ms := by
  obtain ⟨hc, -⟩ := Pair.reach hr
  have hcs : Proc.Steps (GetHandler.sendImpl inner job, Local.init u) (.ret (.ok a), x.1.2) := ha ▸ hc
  obtain ⟨hdr, hfit, hsent, htried, rb, r, payload, t, hrr, hok, hgot, hst⟩ := (Ok.getClient inner job u).run_ok hcs
  have htried : x.1.2.tried = [.command (GetHandler.command inner job)] := htried
  have hgot : x.1.2.got = [.response r, .fileHeader hdr, .fileTrailer t] := hgot
  obtain ⟨hb, tb, htaken, hhr, htr⟩ := hst.taken
  have htaken : x.1.2.taken = frame rb ++ (frame hb ++ (payload ++ frame tb)) := htaken
  have hread := Pair.taken_left hr
  have hne : x.2.2.tried ≠ [] := ne_nil_of_frame (htaken ▸ hread)
  obtain ⟨cb, -, -, hserved⟩ := served hr htried hfit (GetHandler.plain_command inner job) hne
  obtain ⟨hheard, hans⟩ := offers_of_served hserved
  obtain ⟨ms, hms, ⟨n, name, hn, hsends⟩, rfl, rfl, -⟩ := hans.consented hrr hok (htaken ▸ hread)
  refine ⟨n, name, hdr, t, payload, tb, ms, hsent, hheard, hgot, ⟨hb, htaken, hhr⟩, htr, hst, hn, hms, hsends,
    fun y hy => ?_⟩
  have hy : x.1.2.taken = frame (Response.codec.enc okResponse) ++ y := hy
  rw [hy] at hread
  obtain ⟨ms', hms', -, -, -, hx⟩ := hans.consented hrr hok hread
  cases (show x.2.2.tried = _ from hms).symm.trans hms'
  exact hx

theorem get_intact (hr : Pair.Reach (GetHandler.sendImpl inner job) (handleStream inner') u w x) {a : RequestResult}
    (ha : x.1.1 = .ret (.ok a)) :
    ∃ n header, w (H.place job.source.filename) = some n ∧ .fileHeader header ∈ x.1.2.got ∧
      header.toV2.size = n.info.len ∧ payloads x.2.2.tried <+: n.content ∧ (Intact x.2.2.tried n.info.len.toNat x.1.2 ↔
        Unmistakable inner.config.ioBufferSize.toNat n.info.len.toNat n.content
        (Way.trailer inner inner' job n .get)) := by
  obtain ⟨n, name, hdr, t, payload, tb, ms, h⟩ := get_exchange hr ha
  obtain ⟨rfl, hpre, hiff⟩ := h.stored.intact_iff (by rw [h.got]; simp) [.response okResponse] h.sends rfl
    (FileHeader.readsBack_of_fits _ (FileHeader.forFile_plain _ _ _)) h.bytes
  have hsize := FileHeader.forFile_size inner'.compat n.info name
  rw [hsize] at hiff
  refine ⟨n, _, h.source, by rw [h.got]; simp, hsize, ?_, ?_⟩
  · rw [h.tried]; exact hpre
  · rw [h.tried]; exact hiff

theorem put_intact (hr : Pair.Reach (PutHandler.sendImpl inner job) (handleStream inner') u w x)
    (ha : [.response okResponse, .response okResponse] <+: x.2.2.tried) :
    ∃ n header, u (G.place job.source.filename) = some n ∧ .fileHeader header ∈ x.2.2.got ∧
      header.toV2.size = n.info.len ∧ payloads x.1.2.tried <+: n.content ∧
      (Intact x.1.2.tried n.info.len.toNat x.2.2 ↔ Unmistakable inner'.config.ioBufferSize.toNat n.info.len.toNat
        n.content (Way.trailer inner inner' job n .put)) := by
  obtain ⟨hc, -⟩ := Pair.reach hr
  have hne : x.2.2.tried ≠ [] := fun h => by rw [h] at ha; exact absurd ha.length_le (by simp)
  rcases ((Ok.putClient inner job u).run hc).tried with h | ⟨hfit, ms, htried, n, name, hn, hsends⟩
  · exact absurd h (tried_of_served hr hne)
  have htried : x.1.2.tried = .command (PutHandler.command inner job) :: ms := htried
  obtain ⟨cb, hcr, rfl, hserved⟩ := served hr htried hfit (PutHandler.plain_command inner job) hne
  obtain ⟨-, hdr, payload, t, hgot, hst⟩ := finished_of_twice (putRest_of_served hserved) ha
  have hgot : x.2.2.got = [.command (PutHandler.command inner job), .fileHeader hdr, .fileTrailer t] := hgot
  have hbytes : ∀ y, x.2.2.taken = frame (Command.codec.enc (PutHandler.command inner job)) ++ y →
      y <+: ms.flatMap Msg.enc := fun y hy => by
    have hread := Pair.taken_right hr
    rw [htried, hy] at hread
    exact (hcr.of_sent (y := ms.flatMap Msg.enc) hfit
      (Command.readsBack_of_fits _ (PutHandler.plain_command inner job) hfit) hread).2.2
  obtain ⟨rfl, hpre, hiff⟩ := hst.intact_iff (by rw [hgot]; simp)
    [.command (PutHandler.command inner job)] hsends rfl
    (FileHeader.readsBack_of_fits _ (FileHeader.forFile_plain _ _ _)) hbytes
  have hsize := FileHeader.forFile_size inner.compat n.info name
  rw [hsize] at hiff
  refine ⟨n, _, hn, by rw [hgot]; simp, hsize, ?_, ?_⟩
  · rw [htried]; exact hpre
  · rw [htried]; exact hiff

end Both

/-- **A transfer whose receiving side succeeds has brought the file intact exactly when its end could not be
mistaken.** -/
theorem transfer_intact_iff (G H : Host) (inner inner' : SessionCommandInner) (job : CopyJobSpec) (u w : World)
    (way : Way)
    (x : Joint G H) (hr : Pair.Reach (way.sendImpl inner job) (handleStream inner') u w x) (hs : way.Succeeded x) :
    ∃ n header, way.source G H u w job = some n ∧ .fileHeader header ∈ way.got x ∧ header.toV2.size = n.info.len ∧
      payloads (way.sent x) <+: n.content ∧
      (way.Intact x n.info.len.toNat ↔ Unmistakable (way.bufferSize inner inner') n.info.len.toNat n.content
        (way.trailer inner inner' job n)) := by
  cases way with
  | get =>
    obtain ⟨a, ha⟩ := hs
    exact get_intact hr ha
  | put => exact put_intact hr hs

/-! ## A mistaken file -/

def lastTrailer : Bytes := (Msg.fileTrailer .v1).enc

/-- A world of one file, which holds more than its length says, and ends like a trailer. -/
def oneFile (len : UInt64) (bs : Bytes) : World := fun h =>
  if h = 0 then some ⟨⟨.file, len, 0o644, none, none⟩, bs ++ lastTrailer⟩ else none

def fetching : CopyJobSpec := ⟨⟨some "host".toList, "f".toList⟩, ⟨none, "f".toList⟩, "host".toList, false, false, none⟩

def oneHost : Host := ⟨fun _ => 0, 0⟩

def withBuffer (size : UInt64) : SessionCommandInner :=
  ⟨.level 1, { Configuration.systemDefault with ioBufferSize := size }, false⟩

/-- The header that is sent for it. -/
def fetchedHeader (len : UInt64) : FileHeader := .v1 ⟨len, "f".toList⟩

/-- The server sends all of the file before it finds that it is too long. -/
theorem server_sends (len : UInt64) (bs : Bytes) (hfit : FileHeader.form.Fits (fetchedHeader len))
    (hlen : bs.length ≤ 1000) : Reaches (fun c => c.2.taken = (Msg.command (.get ⟨"f".toList⟩)).enc ∧
      c.2.out = (Msg.response okResponse).enc ++ ((Msg.fileHeader (fetchedHeader len)).enc ++ (bs ++ lastTrailer)))
      (handleStream (H := oneHost) (withBuffer 1048576), Local.init (oneFile len bs)) := by
  refine Gives.reaches (Gives.attempt (Gives.reader (F := Command.form) (a := .get ⟨"f".toList⟩) (by decide)
    (Command.readsBack_of_fits _ (fun t ht => absurd ht List.not_mem_nil) (by decide)) rfl)) ?_
  refine Gives.reaches (Gives.openWithMeta (H := oneHost)
    (n := ⟨⟨.file, len, 0o644, none, none⟩, bs ++ lastTrailer⟩) rfl rfl) ?_
  simp only [Metadata.isDir, reduceCtorEq, decide_false, Bool.false_eq_true, if_false]
  apply Gives.reaches (Gives.writer (F := Response.form) (a := okResponse) (by decide) rfl)
  apply Gives.reaches (Gives.pure "f".toList _)
  apply Gives.reaches (Gives.writer (F := FileHeader.form) (a := fetchedHeader len) hfit rfl)
  have hne : bs ++ lastTrailer ≠ [] := List.append_ne_nil_of_right_ne_nil _ (by decide)
  have hcap : (bs ++ lastTrailer).length ≤ 1048576 := by
    have : lastTrailer.length = 5 := by decide
    rw [List.length_append]
    omega
  refine Gives.reaches (Gives.copyOut (H := oneHost) (h := 0) 1048576 hne hcap rfl) ?_
  refine Reaches.now ⟨?_, ?_⟩
  · have h0 : (Local.init (S := oneHost.sig) (oneFile len bs)).taken = [] := rfl
    simp [Proc.Event.read, h0]
    rfl
  · simp
    rfl

/-- So much of a file can be received: nothing without a buffer, or all that was announced. -/
theorem reaches_copyIn {H : Host} {α : Type} {P : Proc.Config H.sig (Except Err α) → Prop} {s : Local H.sig} {h : Place}
    {n : Node} {len cap : UInt64} {bs : Bytes} {k : Except IoError Nat → Act H α}
    (hbs : (bs = [] ∧ cap = 0 ∧ len ≠ 0) ∨ (bs ≠ [] ∧ bs.length = len.toNat ∧ bs.length ≤ cap.toNat))
    (hn : s.world h = some n) (hs : s.recvLost = false)
    (hk : ∀ (s' : Local H.sig) n', s'.taken = s.taken ++ bs → s'.got = s.got → s'.recvLost = false →
      s'.world h = some n' → Reaches P (k (.ok bs.length), s')) :
      Reaches P ((copyIn len.toNat h cap.toNat >>= k : Act H α), s) := by
  rcases hbs with ⟨rfl, rfl, hlen⟩ | ⟨hne, hlen, hcap⟩
  · have hpos : 0 < len.toNat := Nat.pos_of_ne_zero fun h => hlen (UInt64.toNat_inj.1 h)
    exact Gives.reaches (Gives.copyIn_noRoom hpos) (hk _ n (by simp) (by simp) hs hn)
  · obtain ⟨w, hw, hg⟩ := Gives.copyIn hne hcap hs hn
    rw [← hlen]
    exact Gives.reaches hg (hk _ _ (by simp [Proc.Event.read]) (by simp [Proc.Event.got?]) hs hw)

/-- What the client does once the header is read: it receives so much of the file, and takes what is next for the
trailer. -/
theorem client_mistaken (len cap : UInt64) (bs : Bytes) (hfit : FileHeader.form.Fits (fetchedHeader len))
    (hbs : (bs = [] ∧ cap = 0 ∧ len ≠ 0) ∨ (bs ≠ [] ∧ bs.length = len.toNat ∧ bs.length ≤ cap.toNat)) :
    Reaches (fun c => c.2.taken = [] ∧ c.2.out = (Msg.command (.get ⟨"f".toList⟩)).enc ∧
      Reaches (fun c => (∃ a, c.1 = .ret (.ok a)) ∧ c.2.taken = (Msg.response okResponse).enc ++
        ((Msg.fileHeader (fetchedHeader len)).enc ++ (bs ++ lastTrailer))) c)
      (GetHandler.sendImpl (H := oneHost) (withBuffer cap) fetching, Local.init (fun _ => none)) := by
  have hback := FileHeader.readsBack_of_fits (fetchedHeader len) (fun t ht => absurd ht List.not_mem_nil) hfit
  have hok := Response.readsBack_of_fits okResponse (by decide)
  have htr := FileTrailer.readsBack_of_fits .v1 (fun t ht => absurd ht List.not_mem_nil) (by decide)
  refine Gives.reaches (Gives.writer (F := Command.form) (a := .get ⟨"f".toList⟩) (by decide) rfl) ?_
  apply Gives.reaches Gives.flushed
  refine Reaches.now ⟨rfl, rfl, ?_⟩
  apply Gives.reaches (Gives.reader (by decide) hok rfl)
  apply Gives.reaches (Gives.pure _ _)
  apply Gives.reaches (Gives.reader hfit hback rfl)
  have hnone : Host.sem oneHost (fun _ => none) (.metadata "f".toList) (.error ⟨.notFound, []⟩) (fun _ => none) :=
    ⟨rfl, nofun⟩
  have hnew : Host.sem oneHost (fun _ => none) (.openWrite "f".toList none) (.ok 0)
      (World.put (fun _ => none) 0 ⟨⟨.file, 0, oneHost.createMode none, none, none⟩, []⟩) :=
    ⟨rfl, _, .created none none, rfl⟩
  refine Gives.reaches (Gives.createOrTruncate (.error _) hnone nofun hnew) ?_
  apply Gives.reaches (Gives.pure _ _)
  apply Gives.reaches (Gives.pure _ _)
  have hput := World.put_same (fun _ => none) 0 ⟨⟨.file, 0, oneHost.createMode none, none, none⟩, []⟩
  refine reaches_copyIn hbs hput rfl fun s' n' htaken _ hlost hn' => ?_
  apply Gives.reaches (Gives.pure _ _)
  apply Gives.reaches (Gives.reader (by decide) htr hlost)
  apply Gives.reaches Gives.flushFile
  apply Gives.reaches (Gives.pure _ _)
  refine Gives.reaches (Gives.updateMetadata hn') ?_
  refine Reaches.now ⟨⟨_, rfl⟩, ?_⟩
  show (ask _ _ _ (ask _ _ _ (hear _ _ _))).taken = _
  rw [taken_ask, taken_ask, taken_hear, htaken]
  simp only [taken_ask, taken_hear, Local.taken_push, List.append_assoc]
  rfl

/-- **A run in which the client takes the end of the file for its trailer.** -/
theorem mistaken_run (len cap : UInt64) (bs : Bytes) (hfit : FileHeader.form.Fits (fetchedHeader len))
    (hlen : bs.length ≤ 1000)
    (hbs : (bs = [] ∧ cap = 0 ∧ len ≠ 0) ∨ (bs ≠ [] ∧ bs.length = len.toNat ∧ bs.length ≤ cap.toNat)) :
    ∃ x : Joint oneHost oneHost, Pair.Reach (GetHandler.sendImpl (withBuffer cap) fetching)
      (handleStream (withBuffer 1048576)) (fun _ => none) (oneFile len bs) x ∧ ∃ a, x.1.1 = .ret (.ok a) := by
  obtain ⟨c, hc, hct, hco, c', hc', ha, ht'⟩ := client_mistaken len cap bs hfit hbs
  obtain ⟨d, hd, hdt, hdo⟩ := server_sends len bs hfit hlen
  exact ⟨_, Pair.Reach.turns hc hct hd (by rw [hdt, hco]) hc' (by rw [ht', hdo]), ha⟩

theorem transfer_intact_iff_overlong : ∃ x : Joint oneHost oneHost, ∃ n header,
    Way.source oneHost oneHost (fun _ => none) (oneFile 1 [7]) fetching .get = some n ∧
      .fileHeader header ∈ Way.got x .get ∧ header.toV2.size = n.info.len ∧ payloads (Way.sent x .get) <+: n.content ∧
      (Way.Intact x n.info.len.toNat .get ↔ Unmistakable (Way.bufferSize (withBuffer 1048576) (withBuffer 1048576) .get)
        n.info.len.toNat n.content (Way.trailer (withBuffer 1048576) (withBuffer 1048576) fetching n .get)) := by
  obtain ⟨x, hx, ha⟩ := mistaken_run 1 1048576 [7] (by decide) (by decide) (Or.inr ⟨by decide, by decide, by decide⟩)
  exact ⟨x, transfer_intact_iff oneHost oneHost _ _ fetching _ _ .get x hx ha⟩

/-- **Without a buffer a file that looks like a trailer is lost, and nobody notices.** -/
theorem not_transfer_intact : ¬ ∀ (G H : Host) (inner inner' : SessionCommandInner) (job : CopyJobSpec) (u w : World)
    (way : Way) (x : Joint G H), inner.config.tryValidate = .ok () → inner'.config.tryValidate = .ok () →
    Pair.Reach (way.sendImpl inner job) (handleStream inner') u w x → way.Succeeded x →
    ∀ n, way.source G H u w job = some n → way.Intact x n.info.len.toNat := by
  intro hall
  obtain ⟨x, hx, ha⟩ := mistaken_run 5 0 [] (by decide) (by decide) (Or.inl ⟨rfl, rfl, by decide⟩)
  have hi := hall oneHost oneHost (withBuffer 0) (withBuffer 1048576) fetching _ _ .get x (by decide) (by decide) hx ha
    _ rfl
  obtain ⟨a, ha⟩ := ha
  obtain ⟨n, header, hn, -, -, -, hiff⟩ := get_intact hx ha
  cases hn
  rcases hiff.1 hi with hu | hu | hu
  · exact hu rfl
  · exact absurd hu (by decide)
  · refine hu ⟨FileTrailer.codec.enc .v1, .v1, ⟨by decide, ?_⟩, List.prefix_append _ _⟩
    exact FileTrailer.readsBack_of_fits .v1 (fun t ht => absurd ht List.not_mem_nil) (by decide)

end Qcp
