import Qcp.Listings
import Qcp.Unhindered
/-!
# Fulfilled — every request that can be done is done

The other requests, as `Qcp.Unhindered` has transfers: a directory is made or given its permissions, for which there is
but one word of consent, and a listing is sent packet after packet.  `request_fulfilled` says of each request that both
sides come to an end, that the server has done what it was asked for, and that each side has heard the other.
-/
namespace Qcp

open Bare (Bytes Text Codec)
open Posix (Path)
open Proc (Task Turn Ledger Does Meets Local)

/-! ## Rules -/

section Rules

variable {H : Host} {walk : Path → Bool → List DirEntry} {rounds : Nat} {avail : Bytes} {idle : Bytes → Prop}
  {v : Ledger H.sig}

/-- **A directory is made**, or is there already. -/
theorem Does.createDirectory {args : CreateDirectoryArgs} {Q : Unit → Ledger H.sig → Prop}
    (hw : v.world (H.place args.dirName) = none ∨ v.world.isDir (H.place args.dirName))
    (h : ∀ w, Q () ((v.inWorld w).put (Response.form.msg okResponse).enc)) :
    Does (H.turn walk rounds avail idle) Q (CreateDirectoryHandler.handleImpl args) v := by
  refine Does.then (Does.stat fun r hr => ?_)
  rcases hw with hnone | ⟨n, hn, hdir⟩
  · rw [hnone] at hr
    cases r with
    | ok m => cases hr
    | error e =>
      refine Does.then (Does.asked (a := .ok ()) ⟨hnone, ⟨.directory, 0, 0, none, none⟩, rfl, rfl⟩ rfl
        fun r w hw hr => ?_)
      cases r with
      | error e => cases hr
      | ok _ => exact Does.sendOk (h w)
  · rw [hn] at hr
    cases r with
    | error e => cases hr
    | ok m =>
      obtain rfl : m = n.info := Option.some.inj hr
      have hfile : n.info.isFile = false := by
        cases hf : n.info.isFile with
        | false => rfl
        | true => exact absurd hdir (by rw [Metadata.isDir_of_isFile hf]; exact Bool.false_ne_true)
      simp only [hfile, hdir]
      exact Does.sendOk (h v.world)

/-- **Each item is applied**, if no time is among them. -/
theorem Does.applyAll {path : Path} {Q : Unit → Ledger H.sig → Prop} :
    ∀ {metadata : List TaggedData} {v : Ledger H.sig}, NoTimes metadata → (∃ n, v.world (H.place path) = some n) →
    (∀ w, Q () ((v.inWorld w).put (Response.form.msg okResponse).enc)) →
    Does (H.turn walk rounds avail idle) Q (SetMetadataHandler.applyAll path metadata) v
  | [], v, _, _, h => Does.sendOk (h v.world)
  | md :: mds, v, hno, hn, h => by
    obtain ⟨haccess, hmodification⟩ := hno md List.mem_cons_self
    have hrest : NoTimes mds := fun md' hm => hno md' (List.mem_cons_of_mem _ hm)
    unfold SetMetadataHandler.applyAll
    cases hattr : md.metadataAttr with
    | none => exact Does.applyAll hrest hn h
    | some attr =>
      cases attr with
      | invalid => exact Does.applyAll hrest hn h
      | accessTime => exact absurd hattr haccess
      | modificationTime => exact absurd hattr hmodification
      | modeBits =>
        cases md.data.asUnsigned with
        | none => exact Does.applyAll hrest hn h
        | some mode =>
          obtain ⟨n, hn⟩ := hn
          refine Does.then (Does.asked (a := .ok ()) ⟨n, hn, rfl⟩ rfl fun r w hw hr => ?_)
          cases r with
          | error e => cases hr
          | ok _ =>
            obtain ⟨n', -, rfl⟩ := hw
            exact Does.applyAll hrest ⟨_, World.put_same ..⟩ h

theorem Does.setMetadata {args : SetMetadataArgs} {Q : Unit → Ledger H.sig → Prop} (hno : NoTimes args.metadata)
    (hw : v.world.isDir (H.place args.path)) (h : ∀ w, Q () ((v.inWorld w).put (Response.form.msg okResponse).enc)) :
    Does (H.turn walk rounds avail idle) Q (SetMetadataHandler.handleImpl args) v := by
  obtain ⟨n, hn, hdir⟩ := hw
  refine Does.then (Does.stat fun r hr => ?_)
  rw [hn] at hr
  cases r with
  | error e => cases hr
  | ok m =>
    obtain rfl : m = n.info := Option.some.inj hr
    simp only [hdir]
    exact Does.applyAll hno ⟨n, hn⟩ h

/-! ### Listings -/

def packetsEnc (ps : List ListData) : Bytes := ps.flatMap fun p => (ListData.form.msg p).enc

@[simp] theorem packetsEnc_nil : packetsEnc [] = [] := rfl

@[simp] theorem packetsEnc_cons (p : ListData) (ps : List ListData) :
    packetsEnc (p :: ps) = (ListData.form.msg p).enc ++ packetsEnc ps := rfl

theorem packetsEnc_append (ps qs : List ListData) : packetsEnc (ps ++ qs) = packetsEnc ps ++ packetsEnc qs := by
  simp [packetsEnc]

theorem Does.sendAll {t : Turn H.sig} {Q : Unit → Ledger H.sig → Prop} : ∀ {ps : List ListData} {v : Ledger H.sig},
    (∀ p ∈ ps, ListData.form.Fits p) → Q () (v.put (packetsEnc ps)) →
    Does t Q (ListingHandler.sendAll ps : Act H Unit) v
  | [], v, _, h => Does.flushed (by simpa [Ledger.put] using h)
  | p :: ps, v, hfit, h => by
    refine Does.then (Does.writer (hfit p List.mem_cons_self) ?_)
    refine Does.sendAll (fun q hq => hfit q (List.mem_cons_of_mem _ hq)) ?_
    rw [Ledger.put_put]
    exact h

/-- **What a listing is told in.** -/
def Told (walk : Path → Bool → List DirEntry) (path : Path) (recurse : Bool) (n : Node) (ps : List ListData) : Prop :=
  if n.info.isFile then ps = [⟨[⟨path, false, n.info.len, []⟩], false⟩]
  else (ListData.mk ((walk path recurse).map ListEntry.ofDirEntry) false).splitBySize wireEncodingLimit = some ps

theorem Told.closed {path : Path} {recurse : Bool} {n : Node} {ps : List ListData} (h : Told walk path recurse n ps) :
    Closed ps ∧ ∀ p ∈ ps, ∀ e ∈ p.entries, ∀ t ∈ e.attributes, t.Plain := by
  unfold Told at h
  split at h
  · subst h
    exact ⟨.singleton rfl, plain_singleton path n.info.len⟩
  · exact ⟨(closed_splitBySize _ _ ps (by decide) h).1, plain_splitBySize (by decide) h⟩

theorem Closed.more_iff {front rest : List ListData} {p : ListData} (h : Closed (front ++ p :: rest)) :
    p.moreToCome = true ↔ rest ≠ [] := by
  obtain ⟨others, last, heq, hmore, hlast⟩ := h
  rcases List.eq_nil_or_concat rest with rfl | ⟨xs, x, rfl⟩
  · obtain ⟨-, hp⟩ := List.append_inj' heq rfl
    obtain rfl : p = last := List.singleton_inj.1 hp
    simp [hlast]
  · have heq : (front ++ p :: xs) ++ [x] = others ++ [last] := by simpa using heq
    obtain ⟨rfl, -⟩ := List.append_inj' heq rfl
    exact iff_of_true (hmore p (List.mem_append_right _ List.mem_cons_self)) (by simp)

/-- **A listing is sent whole.** -/
theorem Does.listing {args : ListArgs} {n : Node} {ps : List ListData} {Q : Unit → Ledger H.sig → Prop}
    (hn : v.world (H.place args.path) = some n)
    (ht : Told walk args.path (findOption args.options .recurse).isSome n ps) (hfit : ∀ p ∈ ps, ListData.form.Fits p)
    (h : Q () (v.put ((Response.form.msg okResponse).enc ++ packetsEnc ps))) :
    Does (H.turn walk rounds avail idle) Q (ListingHandler.handleImpl args) v := by
  unfold Told at ht
  refine Does.then (Does.stat fun r hr => ?_)
  rw [hn] at hr
  cases r with
  | error e => cases hr
  | ok m =>
    obtain rfl : m = n.info := Option.some.inj hr
    simp only
    split at ht
    · rename_i hf
      subst ht
      rw [if_pos hf]
      refine Does.then (Does.sendOk ?_)
      refine Does.writer (hfit _ List.mem_cons_self) ?_
      rw [Ledger.put_put]
      simpa [packetsEnc] using h
    · rename_i hf
      rw [if_neg hf]
      refine Does.then (Does.asked (a := .ok (walk args.path (findOption args.options .recurse).isSome)) rfl rfl
        fun r w hw hr => ?_)
      obtain rfl : w = v.world := hw
      obtain rfl : r = .ok (walk args.path (findOption args.options .recurse).isSome) := hr
      simp only [ht]
      refine Does.then (Does.sendOk (Does.sendAll hfit ?_))
      rw [Ledger.put_put]
      exact h

/-- **And read whole**, up to the packet that is the last. -/
theorem Does.packets {ps : List ListData} {Q : List ListData → Ledger H.sig → Prop} (hc : Closed ps)
    (hfit : ∀ p ∈ ps, ListData.form.Fits p) (hback : ∀ p ∈ ps, ListData.form.ReadsBack p) (hr : ps.length < rounds)
    (hp : v.taken ++ packetsEnc ps <+: avail) (h : Q ps (v.take (packetsEnc ps))) :
    Does (H.turn walk rounds avail idle) Q (Task.loop (fun (data : List ListData) => do
      let packet ← fromReaderFramed ListData.form
      if packet.moreToCome then return .inl (data ++ [packet]) else return .inr (data ++ [packet])) [] :
        Act H _) v := by
  refine Does.loop (fun left data v' => ∃ rest, rest ≠ [] ∧ ps = data ++ rest ∧ left = rest.length ∧
    v' = v.take (packetsEnc data)) ?_ hr ⟨ps, ?_, rfl, rfl, by simp [Ledger.take]⟩
  · rintro left data v' ⟨rest, hne, rfl, rfl, rfl⟩
    obtain ⟨p, rest, rfl⟩ := List.exists_cons_of_ne_nil hne
    have hm : p ∈ data ++ p :: rest := List.mem_append_right _ List.mem_cons_self
    have hsplit : data ++ p :: rest = (data ++ [p]) ++ rest := by simp
    have henc : packetsEnc (data ++ [p]) = packetsEnc data ++ (ListData.form.msg p).enc := by simp [packetsEnc]
    refine Does.then (Does.reader (hfit p hm) (hback p hm) ?_ ?_)
    · rw [packetsEnc_append, packetsEnc_cons, ← List.append_assoc, ← List.append_assoc] at hp
      exact (List.prefix_append _ _).trans hp
    split
    · rename_i hm
      refine Does.pure ⟨rest.length, Nat.lt_succ_self _, rest, hc.more_iff.1 hm, hsplit, rfl, ?_⟩
      rw [henc, Ledger.take_take]
    · rename_i hm
      obtain rfl : rest = [] := by_contra fun hne => hm (hc.more_iff.2 hne)
      refine Does.pure ?_
      rwa [Ledger.take_take, ← henc]
  · obtain ⟨front, last, rfl, -, -⟩ := hc
    simp

end Rules

/-! ## Requests -/

section Requests

variable {G H : Host} {inner inner' : SessionCommandInner} {job : CopyJobSpec} {walk : Path → Bool → List DirEntry}
  {rounds : Nat} {u w : World}

/-- Both sides are done. -/
def Fulfilled (r : Except Err RequestResult) (_ : Local G.sig) (r' : Except Err Unit) (_ : Local H.sig) : Prop :=
  (∃ a, r = .ok a) ∧ r' = .ok ()

/-- **A command is consented to, and no more is said.** -/
theorem consent_meets {c : Command} {s : Local G.sig} {v : Ledger G.sig} (hs : s.At v) (hout : v.out = [])
    (htaken : v.taken = []) (hfit : Command.form.Fits c) (hplain : ∀ t ∈ c.tagged, t.Plain)
    (hserver : ∀ (avail : Bytes) (idle : Bytes → Prop) (v : Ledger H.sig) (Q : Unit → Ledger H.sig → Prop),
      v.world = w → (∀ w, Q () ((v.inWorld w).put (Response.form.msg okResponse).enc)) →
      Does (H.turn walk rounds avail idle) Q (commandHandler inner' c) v) :
    Meets (G.conditions walk rounds) (H.conditions walk rounds) Fulfilled
      (((do
          toWriterFramed Command.form c
          Act.flush
          let _ ← intoResult (← fromReaderFramed Response.form)
          return .default : Act G RequestResult), s), (handleStream inner', Local.init w)) := by
  have ht := Local.At.init (S := H.sig) w
  unfold handleStream
  refine Meets.left hs (Does.writer hfit fun s hs => ?_)
  refine Meets.left hs (Does.flushed fun s hs => ?_)
  refine Meets.right ht (Does.attempt (Does.reader hfit (Command.readsBack_of_fits _ hplain hfit) ?_ fun t ht => ?_))
  · rw [hs.out]
    simp [hout]
  refine Meets.rightLast ht (hserver _ _ _ _ (by simp) fun w' t ht => ?_)
  refine Meets.left hs (Does.reader (a := okResponse) (by decide) (Response.readsBack_of_fits okResponse (by decide)) ?_
    fun s hs => ?_)
  · rw [ht.out]
    simp [htaken]
  refine Meets.left hs (Does.intoResult rfl fun s hs => ?_)
  exact .ends _ _ _ _ ⟨⟨_, rfl⟩, rfl⟩

/-- **A directory that may be made.** -/
structure CreateDirectoryReady (H : Host) (inner : SessionCommandInner) (job : CopyJobSpec) (w : World) : Prop where
  supported : inner.compat.supports .mkdirSetmetaLs = true
  remote : job.destination.userAtHost.isSome = true
  free : w (H.place job.destination.filename) = none ∨ w.isDir (H.place job.destination.filename)
  command : Command.form.Fits (.createDirectory ⟨job.destination.filename, []⟩)

theorem createDirectory_meets (h : CreateDirectoryReady H inner job w) :
    Meets (G.conditions walk rounds) (H.conditions walk rounds) Fulfilled
      ((CreateDirectoryHandler.sendImpl inner job, Local.init u), (handleStream inner', Local.init w)) := by
  have hs := Local.At.init (S := G.sig) u
  unfold CreateDirectoryHandler.sendImpl
  refine Meets.left hs (Does.ensure h.supported fun s hs => ?_)
  refine Meets.left hs (Does.ensure h.remote fun s hs => ?_)
  refine consent_meets hs rfl rfl h.command (fun t ht => by cases ht) fun avail idle v Q hv hQ => ?_
  exact Does.createDirectory (by rw [hv]; exact h.free) hQ

/-- **A directory that may be given the permissions of one here.** -/
structure SetMetadataReady (G H : Host) (inner : SessionCommandInner) (job : CopyJobSpec) (u w : World) (n : Node) :
    Prop where
  supported : inner.compat.supports .mkdirSetmetaLs = true
  here : u (G.place job.source.filename) = some n
  isDir : n.info.isDir = true
  there : w.isDir (H.place job.destination.filename)
  command : Command.form.Fits (.setMetadata ⟨job.destination.filename, n.info.taggedDataForDir inner.compat, []⟩)

theorem noTimes_taggedDataForDir (info : Metadata) (compat : Compatibility) :
    NoTimes (info.taggedDataForDir compat) := by
  intro md hm
  obtain rfl := List.mem_singleton.1 hm
  have hattr : (MetadataAttr.newMode info.mode).metadataAttr = some .modeBits := rfl
  rw [hattr]
  exact ⟨nofun, nofun⟩

theorem setMetadata_meets {n : Node} (h : SetMetadataReady G H inner job u w n) :
    Meets (G.conditions walk rounds) (H.conditions walk rounds) Fulfilled
      ((SetMetadataHandler.sendImpl inner job, Local.init u), (handleStream inner', Local.init w)) := by
  have hs := Local.At.init (S := G.sig) u
  unfold SetMetadataHandler.sendImpl
  refine Meets.left hs (Does.ensure h.supported fun s hs => ?_)
  refine Meets.left hs (Does.stat fun r hr s hs => ?_)
  rw [show (Ledger.init u : Ledger G.sig).world = u from rfl, h.here] at hr
  cases r with
  | error e => cases hr
  | ok m =>
    obtain rfl : m = n.info := Option.some.inj hr
    refine Meets.left hs (Does.ofExcept fun s hs => ?_)
    refine Meets.left hs (Does.ensure h.isDir fun s hs => ?_)
    refine consent_meets hs rfl rfl h.command (fun t ht => ?_) fun avail idle v Q hv hQ => ?_
    · rw [Command.tagged, List.append_nil] at ht
      exact n.info.plain_toTaggedData false t ht
    · exact Does.setMetadata (noTimes_taggedDataForDir n.info inner.compat) (by rw [hv]; exact h.there) hQ

/-- **A listing that can be told.** -/
structure ListReady (H : Host) (walk : Path → Bool → List DirEntry) (rounds : Nat) (inner : SessionCommandInner)
    (job : CopyJobSpec) (recurse : Bool) (w : World) (n : Node) (ps : List ListData) : Prop where
  supported : inner.compat.supports .mkdirSetmetaLs = true
  there : w (H.place job.source.filename) = some n
  told : Told walk job.source.filename recurse n ps
  command : Command.form.Fits (ListingHandler.command job recurse)
  packets : ∀ p ∈ ps, ListData.form.Fits p
  short : ps.length < rounds

theorem list_meets {recurse : Bool} {n : Node} {ps : List ListData}
    (h : ListReady H walk rounds inner job recurse w n ps) :
    Meets (G.conditions walk rounds) (H.conditions walk rounds) Fulfilled
      ((ListingHandler.sendImpl inner job recurse, Local.init u), (handleStream inner', Local.init w)) := by
  have hs := Local.At.init (S := G.sig) u
  have ht := Local.At.init (S := H.sig) w
  obtain ⟨hclosed, hplain⟩ := h.told.closed
  unfold ListingHandler.sendImpl handleStream
  refine Meets.left hs (Does.ensure h.supported fun s hs => ?_)
  refine Meets.left hs (Does.writer h.command fun s hs => ?_)
  refine Meets.left hs (Does.flushed fun s hs => ?_)
  refine Meets.right ht (Does.attempt (Does.reader h.command (Command.readsBack_of_fits _
    (ListingHandler.plain_command job recurse) h.command) ?_ fun t ht => ?_))
  · rw [hs.out]
    exact List.prefix_refl _
  have htold := h.told
  rw [← ListingHandler.recurse_command recurse] at htold
  refine Meets.rightLast ht (Does.listing (by simpa using h.there) htold h.packets fun t ht => ?_)
  refine Meets.left hs (Does.reader (a := okResponse) (by decide) (Response.readsBack_of_fits okResponse (by decide)) ?_
    fun s hs => ?_)
  · rw [ht.out]
    simp
  refine Meets.left hs (Does.intoResult rfl fun s hs => ?_)
  refine Meets.left hs (Does.packets hclosed h.packets
    (fun p hp => ListData.readsBack_of_fits p (hplain p hp) (h.packets p hp)) h.short ?_ fun s hs => ?_)
  · rw [ht.out]
    simp
  exact .ends _ _ _ _ ⟨⟨_, rfl⟩, rfl⟩

/-! ## All of them -/

/-- **A request that nothing stands in the way of.** -/
def Request.Ready (G H : Host) (inner inner' : SessionCommandInner) (walk : Path → Bool → List DirEntry) (rounds : Nat)
    (u w : World) : Request → Prop
  | .get job => ∃ n q, n.content.length < rounds ∧ Way.get.Ready G H inner inner' job u w n q
  | .put job => ∃ n q, n.content.length < rounds ∧ Way.put.Ready G H inner inner' job u w n q
  | .createDirectory job => CreateDirectoryReady H inner job w
  | .setMetadata job => ∃ n, SetMetadataReady G H inner job u w n
  | .list job recurse => ∃ n ps, ListReady H walk rounds inner job recurse w n ps

theorem GetReady.endsClean {gs : Sight G} {n : Node} {name : Text} {path : Path}
    (h : GetReady H inner inner' job gs w n name path) : Request.EndsClean H w (.get job) := by
  rintro n' hn' ⟨tb, t, -, hp⟩
  obtain rfl : n = n' := Option.some.inj (h.there.symm.trans hn')
  rw [← h.source.whole, List.drop_length, ← List.append_nil (Frame.frame tb)] at hp
  exact Frame.not_frame_prefix_nil tb [] hp

end Requests

/-- **A request that can be done is done**: whichever side takes the next step, both come to an end, with success; the
server has done what it was asked for, and each side has heard all that the other said. -/
theorem request_fulfilled (G H : Host) (inner inner' : SessionCommandInner) (walk : Path → Bool → List DirEntry)
    (rounds : Nat) (u w : World) (req : Request) (h : req.Ready G H inner inner' walk rounds u w) :
    Meets (G.conditions walk rounds) (H.conditions walk rounds)
      (fun r s r' t => Fulfilled r s r' t ∧ req.Performed G H u w t ∧ Heard (G := G) (H := H)
        ((.ret r, s), (.ret r', t)))
      ((req.sendImpl inner, Local.init u), (handleStream inner', Local.init w)) := by
  have hsize : ∀ {size : UInt64}, 0 < size.toNat → size ≠ 0 := by
    rintro size hpos rfl
    exact absurd hpos (Nat.lt_irrefl 0)
  cases req with
  | get job =>
    obtain ⟨n, q, hr, gs, name, path, hall, rfl, rfl, h⟩ := h
    refine (get_meets hall h hr).of_reach .refl fun r s r' t hreach hdone => ?_
    obtain ⟨⟨a, rfl⟩, hserver, -⟩ := hdone
    exact ⟨⟨⟨a, rfl⟩, hserver⟩, (get_completes hreach (hsize h.buffer.1) (hsize h.buffer'.1) rfl).2 h.endsClean⟩
  | put job =>
    obtain ⟨n, q, hr, fs, name, path, hall, rfl, rfl, h⟩ := h
    refine (put_meets hall h hr).of_reach .refl fun r s r' t hreach hdone => ?_
    obtain ⟨⟨a, rfl⟩, hserver, -⟩ := hdone
    exact ⟨⟨⟨a, rfl⟩, hserver⟩, put_completes hreach (hsize h.buffer.1) (hsize h.buffer'.1) rfl⟩
  | createDirectory job =>
    refine (createDirectory_meets h).of_reach .refl fun r s r' t hreach hdone => ⟨hdone, ?_⟩
    obtain ⟨⟨a, rfl⟩, -⟩ := hdone
    exact createDirectory_completes hreach rfl
  | setMetadata job =>
    obtain ⟨n, h⟩ := h
    refine (setMetadata_meets h).of_reach .refl fun r s r' t hreach hdone => ⟨hdone, ?_⟩
    obtain ⟨⟨a, rfl⟩, -⟩ := hdone
    exact setMetadata_completes hreach rfl
  | list job recurse =>
    obtain ⟨n, ps, h⟩ := h
    refine (list_meets h).of_reach .refl fun r s r' t hreach hdone => ⟨hdone, ?_⟩
    obtain ⟨⟨a, rfl⟩, -⟩ := hdone
    exact list_completes hreach rfl

theorem request_fulfilled_dated :
    Meets (nestedHost.conditions (fun _ _ => []) 2) (maskedHost.conditions (fun _ _ => []) 2)
    (fun r s r' t => Fulfilled r s r' t ∧ Request.Performed nestedHost maskedHost nestedWorld (dated [7]) t
      (.list preserving true) ∧ Heard (G := nestedHost) (H := maskedHost) ((.ret r, s), (.ret r', t)))
    ((Request.sendImpl (atLevel4 1048576) (.list preserving true), Local.init nestedWorld),
      (handleStream (atLevel4 1048576), Local.init (dated [7]))) :=
  request_fulfilled nestedHost maskedHost (atLevel4 1048576) (atLevel4 1048576) _ 2 nestedWorld (dated [7])
    (.list preserving true) ⟨⟨datedInfo 1, [7]⟩, [datedListing],
      { supported := by decide
        there := rfl
        told := by
          unfold Told
          rw [if_pos (show (datedInfo 1).isFile = true from rfl)]
          rfl
        command := by decide
        packets := by
          intro p hp
          rw [List.mem_singleton.1 hp]
          decide
        short := by decide }⟩

end Qcp
