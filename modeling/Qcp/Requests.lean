import Qcp.Transfer
/-!
# Requests — directories, listings, and a whole stream

`Ok.createDirectoryServer`, `Ok.setMetadataServer` and `Ok.listServer` follow the other three handlers, and `Ok.asked…`
their clients.  `Served` is what holds all along a server's side of a stream, whatever the command: `Ok.handleStream`.
-/
namespace Qcp

open Bare (Bytes Text Codec)
open Posix (Path)
open Proc (Task View Ok)
open Frame (frame)

section Refuse

variable {H : Host} {w : World} {c : Command} {cb : Bytes} {rest : View H.sig → List Msg → Prop}

/-- All along a stream whose command was read: only that was, and the command is answered. -/
structure Answering (c : Command) (rest : View H.sig → List Msg → Prop) (v : View H.sig) : Prop where
  got : v.got = [.command c]
  tried : Answered (rest v) v.tried

theorem Answering.before {v : View H.sig} (hg : v.got = [.command c]) (ht : v.tried = []) : Answering c rest v :=
  ⟨hg, ht ▸ .nothing⟩

/-- A refusal is an answer. -/
theorem Ok.refuse {err : Refusal} {v : View H.sig} (herr : err ≠ .status .ok) (hg : v.got = [.command c])
    (ht : v.tried = []) : Ok (Answering c rest) (fun _ _ => True) (Qcp.errorAndReturn err : Act H Unit) v :=
  Ok.errorAndReturn herr (.before hg ht)
    (fun r sent hf hs => ⟨hg, by show Answered _ (v.tried ++ _); rw [ht]; exact .refused r hf hs⟩) fun _ => trivial

/-- Consent that is all there is to say. -/
theorem Ok.consent {v : View H.sig} (hg : v.got = [.command c]) (ht : v.tried = [])
    (hr : ∀ sent, rest { v with tried := [.response okResponse], sent := sent } []) :
    Ok (Answering c rest) (fun _ _ => True) (Qcp.sendOk : Act H Unit) v := by
  obtain ⟨w, tried, sent, got, taken, done, lost⟩ := v
  cases ht
  exact Ok.sendOk (.before hg rfl) (fun sent => ⟨hg, .accepted [] (hr sent)⟩) trivial

end Refuse

/-! ## Directories -/

section CreateDirectory

variable {H : Host}

/-- Nothing more is said, and the directory is there. -/
def DirectoryMade (H : Host) (args : CreateDirectoryArgs) (v : View H.sig) (ms : List Msg) : Prop :=
  ms = [] ∧ v.world.isDir (H.place args.dirName)

theorem Ok.createDirectoryServer (args : CreateDirectoryArgs) (w : World) (c : Command) (cb : Bytes) :
    Ok (Answering c (DirectoryMade H args)) (fun _ _ => True) (CreateDirectoryHandler.handleImpl args)
    (heard w c cb) := by
  refine Ok.then (Ok.metadata (fun d _ => .before rfl rfl) fun r d hr _ => ?_)
  cases r with
  | ok info =>
    obtain ⟨n, hn, rfl⟩ := hr info rfl
    simp only
    split
    · exact Ok.refuse nofun rfl rfl
    · split
      · rename_i hdir
        exact Ok.consent rfl rfl fun _ => ⟨rfl, n, hn, hdir⟩
      · exact Ok.fail (.before rfl rfl)
  | error e =>
    refine Ok.then (Ok.asked (.before rfl rfl) fun r w' hw => ⟨.before rfl rfl, ?_⟩)
    cases r with
    | error e => exact Ok.refuse nofun rfl rfl
    | ok u =>
      obtain ⟨-, m, hm, rfl⟩ := hw
      exact Ok.consent rfl rfl fun _ => ⟨rfl, ⟨m, []⟩, World.put_same _ _ _, decide_eq_true hm⟩

end CreateDirectory

section SetMetadata

variable {H : Host}

/-- What an item of metadata makes of a directory's metadata. -/
def Metadata.applyAttr (info : Metadata) (md : TaggedData) : Metadata :=
  match md.metadataAttr, md.data.asUnsigned with
  | some .modeBits, some m => { info with permissions := modeOf m }
  | _, _ => info

/-- No time is asked for: these are not handled. -/
def NoTimes (metadata : List TaggedData) : Prop :=
  ∀ md ∈ metadata, md.metadataAttr ≠ some .accessTime ∧ md.metadataAttr ≠ some .modificationTime

/-- Nothing more is said, and the metadata is there, item after item. -/
def AttributesSet (H : Host) (path : Path) (metadata : List TaggedData) (n : Node) (v : View H.sig)
    (ms : List Msg) : Prop :=
  ms = [] ∧ NoTimes metadata ∧ v.world (H.place path) = some ⟨metadata.foldl Metadata.applyAttr n.info, n.content⟩

/-- One item, and then the others. -/
theorem AttributesSet.cons {path : Path} {md : TaggedData} {mds : List TaggedData} {n : Node} {v : View H.sig}
    {ms : List Msg} (hno : md.metadataAttr ≠ some .accessTime ∧ md.metadataAttr ≠ some .modificationTime)
    (h : AttributesSet H path mds ⟨n.info.applyAttr md, n.content⟩ v ms) : AttributesSet H path (md :: mds) n v ms :=
  ⟨h.1, fun md' hm => (List.mem_cons.1 hm).elim (fun he => he ▸ hno) fun hm => h.2.1 md' hm, h.2.2⟩

theorem Ok.applyAll (path : Path) (c : Command) : ∀ (metadata : List TaggedData) (n : Node) (v : View H.sig),
    v.got = [.command c] → v.tried = [] → v.world (H.place path) = some n →
    Ok (Answering c (AttributesSet H path metadata n)) (fun _ _ => True) (SetMetadataHandler.applyAll path metadata) v
  | [], n, v, hg, ht, hn => Ok.consent hg ht fun _ => ⟨rfl, nofun, hn⟩
  | md :: mds, n, v, hg, ht, hn => by
    have further : ∀ (v : View H.sig), v.got = [.command c] → v.tried = [] →
        v.world (H.place path) = some ⟨n.info.applyAttr md, n.content⟩ →
        md.metadataAttr ≠ some .accessTime ∧ md.metadataAttr ≠ some .modificationTime →
        Ok (Answering c (AttributesSet H path (md :: mds) n)) (fun _ _ => True)
          (SetMetadataHandler.applyAll path mds) v := fun v hg ht hn hno =>
      (Ok.applyAll path c mds _ v hg ht hn).mono (fun v' h => ⟨h.got, h.tried.mono fun _ h => h.cons hno⟩)
        fun _ _ _ h => h
    unfold SetMetadataHandler.applyAll
    cases hattr : md.metadataAttr with
    | none => exact further v hg ht (by rw [hn, Metadata.applyAttr, hattr]) (by rw [hattr]; exact ⟨nofun, nofun⟩)
    | some attr =>
      cases attr with
      | invalid => exact further v hg ht (by rw [hn, Metadata.applyAttr, hattr]) (by rw [hattr]; exact ⟨nofun, nofun⟩)
      | accessTime => exact Ok.fail (.before hg ht)
      | modificationTime => exact Ok.fail (.before hg ht)
      | modeBits =>
        have hno : md.metadataAttr ≠ some .accessTime ∧ md.metadataAttr ≠ some .modificationTime := by
          rw [hattr]; exact ⟨nofun, nofun⟩
        cases hdata : md.data.asUnsigned with
        | none => exact further v hg ht (by rw [hn, Metadata.applyAttr, hattr, hdata]) hno
        | some mode =>
          refine Ok.then (Ok.asked (.before hg ht) fun r w hw => ⟨.before hg ht, ?_⟩)
          cases r with
          | error e => exact Ok.refuse nofun hg ht
          | ok u =>
            obtain ⟨m, hm, rfl⟩ := hw
            cases hn.symm.trans hm
            refine further _ hg ht ?_ hno
            show World.put _ _ _ _ = _
            rw [World.put_same, Metadata.applyAttr, hattr, hdata]

/-- Nothing more is said, and every item of metadata was handled. -/
def MetadataSet (H : Host) (w : World) (args : SetMetadataArgs) (v : View H.sig) (ms : List Msg) : Prop :=
  ∃ n, w (H.place args.path) = some n ∧ AttributesSet H args.path args.metadata n v ms

theorem Ok.setMetadataServer (args : SetMetadataArgs) (w : World) (c : Command) (cb : Bytes) :
    Ok (Answering c (MetadataSet H w args)) (fun _ _ => True) (SetMetadataHandler.handleImpl args) (heard w c cb) := by
  refine Ok.then (Ok.metadata (fun d _ => .before rfl rfl) fun r d hr _ => ?_)
  cases r with
  | error e => exact Ok.refuse nofun rfl rfl
  | ok info =>
    obtain ⟨n, hn, rfl⟩ := hr info rfl
    simp only
    split
    · exact Ok.mono (Ok.applyAll args.path c args.metadata n _ rfl rfl hn)
        (fun v h => ⟨h.got, h.tried.mono fun _ h => ⟨n, hn, h⟩⟩) fun _ _ _ h => h
    · exact Ok.refuse nofun rfl rfl

end SetMetadata

/-! ## Listings -/

/-- **Packets of which only the last is followed by none.** -/
def Closed (ps : List ListData) : Prop :=
  ∃ front last, ps = front ++ [last] ∧ (∀ p ∈ front, p.moreToCome = true) ∧ last.moreToCome = false

theorem Closed.singleton {p : ListData} (h : p.moreToCome = false) : Closed [p] :=
  ⟨[], p, rfl, fun _ hp => absurd hp List.not_mem_nil, h⟩

theorem takeFitting_append (maxSize : Nat) : ∀ (size : Nat) (es : List ListEntry),
    (ListData.takeFitting maxSize size es).1 ++ (ListData.takeFitting maxSize size es).2 = es
  | _, [] => rfl
  | size, e :: es => by
    unfold ListData.takeFitting
    split
    · rfl
    · exact congrArg (e :: ·) (takeFitting_append maxSize _ es)

theorem packets_nil (maxSize k : Nat) : ListData.packets maxSize k [] = some [] := by cases k <;> rfl

theorem closed_packets (maxSize : Nat) : ∀ (k : Nat) (e : ListEntry) (es : List ListEntry) (ps : List ListData),
    ListData.packets maxSize k (e :: es) = some ps → Closed ps ∧ ps.flatMap ListData.entries = e :: es
  | 0, _, _, _, h => nomatch h
  | k + 1, e, es, ps, h => by
    unfold ListData.packets at h
    have happ := takeFitting_append maxSize ListData.baseSize (e :: es)
    generalize ListData.takeFitting maxSize ListData.baseSize (e :: es) = r at h happ
    obtain ⟨fitting, left⟩ := r
    obtain ⟨rest, hrest, rfl⟩ := Option.map_eq_some_iff.1 h
    cases left with
    | nil =>
      cases (packets_nil maxSize k).symm.trans hrest
      rw [List.append_nil] at happ
      refine ⟨.singleton rfl, ?_⟩
      rw [List.flatMap_cons, List.flatMap_nil, List.append_nil]
      exact happ
    | cons x xs =>
      obtain ⟨⟨front, last, rfl, hfront, hlast⟩, hall⟩ := closed_packets maxSize k x xs rest hrest
      refine ⟨⟨⟨fitting, true⟩ :: front, last, rfl, fun p hp => ?_, hlast⟩, ?_⟩
      · rcases List.mem_cons.1 hp with rfl | hp
        · rfl
        · exact hfront p hp
      · rw [List.flatMap_cons, hall]
        exact happ

/-- **A listing is split into packets that say when they end, and that hold its entries in order.** -/
theorem closed_splitBySize (es : List ListEntry) (maxSize : Nat) (ps : List ListData)
    (hm : (ListData.codec.enc ⟨[], false⟩).length ≤ maxSize)
    (h : (ListData.mk es false).splitBySize maxSize = some ps) : Closed ps ∧ ps.flatMap ListData.entries = es := by
  unfold ListData.splitBySize at h
  split at h
  · cases h
    exact ⟨.singleton rfl, by simp⟩
  · rename_i hlong
    cases es with
    | nil => exact absurd hm hlong
    | cons e es => exact closed_packets maxSize _ e es ps h

section List

variable {H : Host}

/-- Some packets of a listing, all that fit, are sent. -/
def Lists (ms : List Msg) : Prop :=
  ∃ ps qs, Closed ps ∧ (∀ p ∈ ps, ∀ e ∈ p.entries, ∀ t ∈ e.attributes, t.Plain) ∧ qs <+: ps ∧ ms = qs.map .listData ∧
    ∀ q ∈ qs, ListData.form.Fits q

theorem plain_ofDirEntry (e : DirEntry) : ∀ t ∈ (ListEntry.ofDirEntry e).attributes, t.Plain := by
  intro t ht
  unfold ListEntry.ofDirEntry at ht
  simp only at ht
  split at ht
  · obtain ⟨m, -, rfl⟩ := Option.map_eq_some_iff.1 (Option.mem_toList.1 ht)
    exact Or.inr ⟨_, rfl⟩
  · exact absurd ht List.not_mem_nil

theorem plain_singleton (path : Path) (len : UInt64) :
    ∀ p ∈ [ListData.mk [⟨path, false, len, []⟩] false], ∀ e ∈ p.entries,
    ∀ t ∈ e.attributes, t.Plain := by
  intro p hp e he t ht
  rw [List.mem_singleton.1 hp] at he
  rw [List.mem_singleton.1 he] at ht
  cases ht

theorem plain_splitBySize {entries : List DirEntry} {maxSize : Nat} {ps : List ListData}
    (hm : (ListData.codec.enc ⟨[], false⟩).length ≤ maxSize)
    (h : (ListData.mk (entries.map ListEntry.ofDirEntry) false).splitBySize maxSize = some ps) :
    ∀ p ∈ ps, ∀ e ∈ p.entries, ∀ t ∈ e.attributes, t.Plain := by
  intro p hp e he
  have hmem := List.mem_flatMap_of_mem hp he
  rw [(closed_splitBySize _ _ ps hm h).2] at hmem
  obtain ⟨x, -, rfl⟩ := List.mem_map.1 hmem
  exact plain_ofDirEntry x

/-- **The packets are sent one after another.** -/
theorem Ok.sendAll (c : Command) (ps : List ListData) (hc : Closed ps)
    (hp : ∀ p ∈ ps, ∀ e ∈ p.entries, ∀ t ∈ e.attributes, t.Plain) : ∀ (qs rest : List ListData) (v : View H.sig),
    ps = qs ++ rest → (∀ q ∈ qs, ListData.form.Fits q) → v.got = [.command c] →
    v.tried = .response okResponse :: qs.map .listData →
    Ok (Answering c fun _ => Lists) (fun _ _ => True) (ListingHandler.sendAll rest) v
  | qs, [], v, he, hf, hg, ht => by
    refine Ok.flushed ⟨hg, ?_⟩ trivial
    rw [ht]
    exact .accepted _ ⟨ps, qs, hc, hp, ⟨[], he.symm⟩, rfl, hf⟩
  | qs, q :: rest, v, he, hf, hg, ht => by
    have hi : ∀ qs', qs' <+: ps → (∀ q ∈ qs', ListData.form.Fits q) → ∀ v' : View H.sig, v'.got = [.command c] →
        v'.tried = .response okResponse :: qs'.map .listData → Answering c (fun _ => Lists) v' :=
      fun qs' hpre hf' v' hg' ht' => ⟨hg', ht' ▸ .accepted _ ⟨ps, qs', hc, hp, hpre, rfl, hf'⟩⟩
    have hfits : ListData.form.Fits q → ∀ x ∈ qs ++ [q], ListData.form.Fits x := fun hq x hx =>
      (List.mem_append.1 hx).elim (hf x) fun hx => List.mem_singleton.1 hx ▸ hq
    have he' : ps = (qs ++ [q]) ++ rest := by rw [he, List.append_assoc]; rfl
    have ht' : v.tried ++ [.listData q] = .response okResponse :: (qs ++ [q]).map .listData := by
      rw [ht, List.map_append]; rfl
    refine Ok.then (Ok.writer (hi qs ⟨_, he.symm⟩ hf v hg ht) (fun hq _ => hi _ ⟨_, he'.symm⟩ (hfits hq) _ hg ht')
      fun hq => ?_)
    exact Ok.sendAll c ps hc hp (qs ++ [q]) rest _ he' (hfits hq) hg ht'

theorem Ok.listServer (args : ListArgs) (w : World) (c : Command) (cb : Bytes) :
    Ok (Answering c fun _ => Lists) (fun _ _ => True) (ListingHandler.handleImpl args) (heard (H := H) w c cb) := by
  refine Ok.then (Ok.metadata (fun d _ => .before rfl rfl) fun r d hr _ => ?_)
  cases r with
  | error e => exact Ok.refuse nofun rfl rfl
  | ok info =>
    simp only
    split
    · -- a file is listed in one packet
      have hc : Closed [⟨[⟨args.path, false, info.len, []⟩], false⟩] := .singleton rfl
      have hp := plain_singleton args.path info.len
      have hok : Lists [] := ⟨_, [], hc, hp, List.nil_prefix, rfl, fun q hq => absurd hq List.not_mem_nil⟩
      refine Ok.then (Ok.sendOk (.before rfl rfl) (fun _ => ⟨rfl, .accepted [] hok⟩) ?_)
      refine Ok.writer ⟨rfl, .accepted [] hok⟩
        (fun hf _ => ⟨rfl, .accepted _ ⟨_, _, hc, hp, List.prefix_refl _, rfl, ?_⟩⟩)
        fun _ => trivial
      exact fun q hq => List.mem_singleton.1 hq ▸ hf
    · refine Ok.then (Ok.looked (fun _ _ _ h => h) (fun _ => rfl) (fun d _ => .before rfl rfl) fun r d _ _ => ?_)
      cases r with
      | error e => exact Ok.refuse nofun rfl rfl
      | ok entries =>
        simp only
        cases hs : (ListData.mk (entries.map ListEntry.ofDirEntry) false).splitBySize wireEncodingLimit with
        | none => exact Ok.hang (Answering.before rfl rfl)
        | some ps =>
          have hc := (closed_splitBySize _ _ ps (by decide) hs).1
          have hp := plain_splitBySize (by decide) hs
          have hok : Lists [] := ⟨ps, [], hc, hp, List.nil_prefix, rfl, fun q hq => absurd hq List.not_mem_nil⟩
          refine Ok.then (Ok.sendOk (.before rfl rfl) (fun _ => ⟨rfl, .accepted [] hok⟩) ?_)
          exact Ok.sendAll c ps hc hp [] ps _ rfl (fun q hq => absurd hq List.not_mem_nil) rfl rfl

end List

/-! ## Their clients -/

section Clients

variable {H : Host}

/-- A client has sent its command whole, and then read consent. -/
structure Asked (H : Host) (c : Command) (rb : Bytes) (r : Response) (v : View H.sig) : Prop where
  fits : Command.form.Fits c
  sent : v.sent = [.command c]
  tried : v.tried = [.command c]
  reads : Response.form.Reads rb r
  ok : r.status = Status.ok.toRepr

/-- All along such a request the client has sent no more than its command. -/
def Asking (p : Command → Prop) (v : View H.sig) : Prop := v.tried = [] ∨ ∃ c, p c ∧ v.tried = [.command c]

/-- **A command is sent and consent is read.** -/
theorem Ok.ask {α : Type} {Q : α → View H.sig → Prop} {p : Command → Prop} {c : Command} {k : Response → Act H α}
    {v : View H.sig} (hc : p c) (ht : v.tried = []) (hs : v.sent = []) (hg : v.got = []) (hr : v.taken = [])
    (h : ∀ rb r w d, Asked H c rb r ⟨w, [.command c], [.command c], [.response r], frame rb, d, false⟩ →
      Ok (Asking p) Q (k r) ⟨w, [.command c], [.command c], [.response r], frame rb, d, false⟩) :
    Ok (Asking p) Q (do
      toWriterFramed Command.form c
      Act.flush
      let r ← Qcp.intoResult (← fromReaderFramed Response.form)
      k r) v := by
  obtain ⟨w, tried, sent, got, taken, done, lost⟩ := v
  cases ht; cases hs; cases hg; cases hr
  have hi : ∀ v : View H.sig, v.tried = [.command c] → Asking p v := fun v ht => Or.inr ⟨c, hc, ht⟩
  refine Ok.then (Ok.writer (Or.inl rfl) (fun _ _ => hi _ rfl) fun hf => ?_)
  refine Ok.then (Ok.flushed (hi _ rfl) ?_)
  refine Ok.then (Ok.reader (fun _ _ => hi _ rfl) (fun _ _ _ _ _ => hi _ rfl) fun rb r hl hrl hrd => ?_)
  cases hl
  exact Ok.then (Ok.intoResult (hi _ rfl) fun hok => h rb r w done ⟨hf, rfl, rfl, ⟨hrl, hrd⟩, hok⟩)

/-- A client has read consent, and that is all. -/
def Consented (H : Host) (p : Command → Prop) (v : View H.sig) : Prop :=
  ∃ c rb r, p c ∧ Asked H c rb r v ∧ v.got = [.response r] ∧ v.taken = frame rb

theorem Ok.createDirectoryClient (inner : SessionCommandInner) (job : CopyJobSpec) (w : World) :
    Ok (Asking (· = .createDirectory ⟨job.destination.filename, []⟩))
      (fun _ v => Consented H (· = .createDirectory ⟨job.destination.filename, []⟩) v)
      (CreateDirectoryHandler.sendImpl inner job) (View.init w) := by
  refine Ok.then (Ok.ensure (Or.inl rfl) fun _ => Ok.then (Ok.ensure (Or.inl rfl) fun _ => ?_))
  exact Ok.ask rfl rfl rfl rfl rfl fun rb r w d h => Ok.pure (Or.inr ⟨_, rfl, rfl⟩) ⟨_, rb, r, rfl, h, rfl, rfl⟩

/-- The commands a client may send to set a directory's metadata: what it carries is its own directory's. -/
def SetsMetadata (inner : SessionCommandInner) (job : CopyJobSpec) (c : Command) : Prop :=
  ∃ info : Metadata, c = .setMetadata ⟨job.destination.filename, info.taggedDataForDir inner.compat, []⟩

theorem Ok.setMetadataClient (inner : SessionCommandInner) (job : CopyJobSpec) (w : World) :
    Ok (Asking (SetsMetadata inner job)) (fun _ v => Consented H (SetsMetadata inner job) v)
      (SetMetadataHandler.sendImpl inner job) (View.init w) := by
  refine Ok.then (Ok.ensure (Or.inl rfl) fun _ => Ok.then (Ok.metadata (fun _ _ => Or.inl rfl) fun r d _ _ => ?_))
  refine Ok.then (Ok.ofExcept (Or.inl rfl) fun info _ => Ok.then (Ok.ensure (Or.inl rfl) fun _ => ?_))
  exact Ok.ask ⟨info, rfl⟩ rfl rfl rfl rfl fun rb r w d h =>
    Ok.pure (Or.inr ⟨_, ⟨info, rfl⟩, rfl⟩) ⟨_, rb, r, ⟨info, rfl⟩, h, rfl, rfl⟩

/-- The command for a listing. -/
def ListingHandler.command (job : CopyJobSpec) (recurse : Bool) : Command :=
  .list ⟨job.source.filename, if recurse then [CommandParam.recurse.tagged] else []⟩

theorem ListingHandler.plain_command (job : CopyJobSpec) (recurse : Bool) :
    ∀ t ∈ (ListingHandler.command job recurse).tagged, t.Plain := by
  intro t ht
  change t ∈ (if recurse then [CommandParam.recurse.tagged] else []) at ht
  split at ht
  · rw [List.mem_singleton.1 ht]
    exact Or.inl rfl
  · cases ht

/-- A client has read consent, and packets up to one that none follows. -/
def Listed (H : Host) (c : Command) (v : View H.sig) : Prop :=
  ∃ rb r bss ps, Asked H c rb r v ∧ List.Forall₂ ListData.form.Reads bss ps ∧ Closed ps ∧
    v.got = .response r :: ps.map .listData ∧ v.taken = frame rb ++ bss.flatMap frame

theorem Ok.listClient (inner : SessionCommandInner) (job : CopyJobSpec) (recurse : Bool) (w : World) :
    Ok (Asking (· = ListingHandler.command job recurse)) (fun _ v => Listed H (ListingHandler.command job recurse) v)
      (ListingHandler.sendImpl inner job recurse) (View.init w) := by
  refine Ok.then (Ok.ensure (Or.inl rfl) fun _ => ?_)
  refine Ok.ask rfl rfl rfl rfl rfl fun rb r w d h => Ok.then ?_
  have hi : ∀ v : View H.sig, v.tried = [.command (ListingHandler.command job recurse)] →
      Asking (· = ListingHandler.command job recurse) v := fun v ht => Or.inr ⟨_, rfl, ht⟩
  refine Ok.loop (fun data v => ∃ bss l, List.Forall₂ ListData.form.Reads bss data ∧
      (∀ p ∈ data, p.moreToCome = true) ∧ v = ⟨w, [.command (ListingHandler.command job recurse)],
        [.command (ListingHandler.command job recurse)], .response r :: data.map .listData,
        frame rb ++ bss.flatMap frame, d, l⟩) ?_ ?_ [] ⟨[], false, .nil, fun p hp => absurd hp List.not_mem_nil, ?_⟩
  · rintro data v ⟨bss, l, -, -, rfl⟩
    exact hi _ rfl
  · rintro data v ⟨bss, l, hread, hmore, rfl⟩
    refine Ok.then (Ok.reader (fun _ _ => hi _ rfl) (fun _ _ _ _ _ => hi _ rfl) fun bs packet hlost hl hd => ?_)
    have hread' : List.Forall₂ ListData.form.Reads (bss ++ [bs]) (data ++ [packet]) :=
      List.rel_append hread (.cons ⟨hl, hd⟩ .nil)
    have htaken : frame rb ++ bss.flatMap frame ++ frame bs = frame rb ++ (bss ++ [bs]).flatMap frame := by
      simp [List.flatMap_append]
    split
    · rename_i hm
      refine Ok.pure (hi _ rfl) ⟨bss ++ [bs], l, hread', fun p hp => ?_, ?_⟩
      · exact (List.mem_append.1 hp).elim (hmore p) fun hp => List.mem_singleton.1 hp ▸ hm
      · rw [List.map_append, ← htaken]
        rfl
    · rename_i hm
      refine Ok.pure (hi _ rfl) (Ok.pure (hi _ rfl) ?_)
      refine ⟨rb, r, bss ++ [bs], data ++ [packet], ⟨h.fits, rfl, rfl, h.reads, h.ok⟩, hread',
        ⟨data, packet, rfl, hmore, Bool.eq_false_iff.2 hm⟩, ?_, htaken⟩
      rw [List.map_append]
      rfl
  · simp [ListingHandler.command]

end Clients

/-! ## A server's side of a stream -/

section Stream

variable {H : Host}

/-- All along a stream on which this command was read. -/
def Served (H : Host) (inner : SessionCommandInner) (w : World) (cb : Bytes) (v : View H.sig) : Command → Prop
  | .get args => Giving H inner w ⟨args.filename, []⟩ [.command (.get args)] v
  | .get2 args => Giving H inner w args [.command (.get2 args)] v
  | .put args => Answered (PutRest H inner.config.ioBufferSize.toNat (.put args) cb v) v.tried
  | .put2 args => Answered (PutRest H inner.config.ioBufferSize.toNat (.put2 args) cb v) v.tried
  | .createDirectory args => Answering (.createDirectory args) (DirectoryMade H args) v
  | .setMetadata args => Answering (.setMetadata args) (MetadataSet H w args) v
  | .list args => Answering (.list args) (fun _ => Lists) v

theorem Ok.commandHandler (inner : SessionCommandInner) (w : World) (cb : Bytes) (c : Command) :
    Ok (fun v => Served H inner w cb v c) (fun _ _ => True) (Qcp.commandHandler inner c) (heard w c cb) := by
  cases c with
  | get args => exact Ok.getServer inner ⟨args.filename, []⟩ w _ cb
  | get2 args => exact Ok.getServer inner args w _ cb
  | put args => exact Ok.putServer inner ⟨args.filename, []⟩ w _ cb
  | put2 args => exact Ok.putServer inner args w _ cb
  | createDirectory args => exact Ok.createDirectoryServer args w _ cb
  | setMetadata args => exact Ok.setMetadataServer args w _ cb
  | list args => exact Ok.listServer args w _ cb

/-- **All along a server's side of a stream**: nothing is sent, or a command was read and is served. -/
def Serving (H : Host) (inner : SessionCommandInner) (w : World) (v : View H.sig) : Prop :=
  v.tried = [] ∨ ∃ c cb, Command.form.Reads cb c ∧ frame cb <+: v.taken ∧ Served H inner w cb v c

/-- **A command is read and handled**, or nothing is sent. -/
theorem Ok.handleStream_of {R : Command → Bytes → View H.sig → Prop} (inner : SessionCommandInner) (w : World)
    (h : ∀ c cb, Ok (R c cb) (fun _ _ => True) (Qcp.commandHandler inner c) (heard w c cb)) :
    Ok (fun v => v.tried = [] ∨ ∃ c cb, Command.form.Reads cb c ∧ frame cb <+: v.taken ∧ R c cb v) (fun _ _ => True)
      (Qcp.handleStream inner) (View.init w) := by
  refine Ok.then (Ok.attempt
    (J := fun v => v.tried = [] ∨ ∃ c cb, Command.form.Reads cb c ∧ frame cb <+: v.taken ∧ R c cb v)
    (Q := fun c v => ∃ cb, Command.form.Reads cb c ∧ v = heard w c cb) ?_ (fun _ h => h) ?_ ?_)
  · exact Ok.reader (fun _ _ => Or.inl rfl) (fun _ _ _ _ _ => Or.inl rfl) fun cb c _ hl hd => ⟨cb, ⟨hl, hd⟩, rfl⟩
  · rintro c _ - ⟨cb, hr, rfl⟩
    exact (h c cb).grows.mono (fun v h => Or.inr ⟨c, cb, hr, h.2, h.1⟩) fun _ _ _ h => h
  · intro e v hv
    cases e with
    | recv e =>
      cases e with
      | short e =>
        simp only
        split
        · exact Ok.pure hv trivial
        · exact Ok.fail hv
      | tooLong n => exact Ok.fail hv
      | malformed => exact Ok.fail hv
    | status s => exact Ok.fail hv
    | io e => exact Ok.fail hv
    | response r => exact Ok.fail hv
    | tooLong n l => exact Ok.fail hv
    | other t => exact Ok.fail hv
    | panicked t => exact Ok.fail hv

theorem Ok.handleStream (inner : SessionCommandInner) (w : World) :
    Ok (Serving H inner w) (fun _ _ => True) (Qcp.handleStream inner) (View.init w) :=
  Ok.handleStream_of inner w fun c cb => Ok.commandHandler inner w cb c

end Stream

end Qcp
