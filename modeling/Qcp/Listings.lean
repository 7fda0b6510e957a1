import Qcp.Completion
import Qcp.Listing
import Qcp.Preserve
/-!
# Listings — what a client is told that asks for a listing

`Enumerates` is what there is to be listed: the file that was asked for, or all that a walk found.  `listing_whole` says
that a client which is done has been told just that, however many packets it took.
-/
namespace Qcp

open Bare (Bytes Text)
open Posix (Path)
open Proc (Pair View Local Steps Ok Reaches Gives)
open Frame (frame)

/-- **What there is to be listed**, after all that the server did to find it out. -/
inductive Enumerates (H : Host) (w : World) (path : Path) (recurse : Bool) (done : List (Σ op, Op.Ret op)) :
    List ListEntry → Prop where
  | file (n : Node) (hn : w (H.place path) = some n) (hf : n.info.isFile = true)
      (hd : done = [⟨.metadata path, .ok n.info⟩]) :
      Enumerates H w path recurse done [⟨path, false, n.info.len, []⟩]
  | walk (n : Node) (found : List DirEntry) (hn : w (H.place path) = some n) (hf : n.info.isFile = false)
      (hd : done = [⟨.metadata path, .ok n.info⟩, ⟨.walkDir path recurse, .ok found⟩]) :
      Enumerates H w path recurse done (found.map ListEntry.ofDirEntry)

section Server

variable {H : Host} {w : World} {c : Command}

/-- Some packets of the listing are sent, from the first. -/
def Tells (H : Host) (w : World) (args : ListArgs) (v : View H.sig) (ms : List Msg) : Prop :=
  ∃ ps qs, Closed ps ∧ qs <+: ps ∧ ms = qs.map .listData ∧
    Enumerates H w args.path (findOption args.options .recurse).isSome v.done (ps.flatMap ListData.entries)

/-- **One packet after another**: what is begun is the front of them. -/
theorem Ok.sendEach {I : View H.sig → Prop} {ps : List ListData} {d : List (Σ op, Op.Ret op)}
    (hi : ∀ qs (v : View H.sig), qs <+: ps → v.got = [.command c] → v.tried = .response okResponse :: qs.map .listData →
      v.done = d → I v) : ∀ (qs rest : List ListData) (v : View H.sig), ps = qs ++ rest → v.got = [.command c] →
    v.tried = .response okResponse :: qs.map .listData → v.done = d →
    Ok I (fun _ _ => True) (ListingHandler.sendAll rest) v
  | qs, [], v, he, hg, ht, hd => Ok.flushed (hi qs v ⟨[], he.symm⟩ hg ht hd) trivial
  | qs, q :: rest, v, he, hg, ht, hd => by
    have he' : ps = (qs ++ [q]) ++ rest := by rw [he, List.append_assoc]; rfl
    have ht' : v.tried ++ [.listData q] = .response okResponse :: (qs ++ [q]).map .listData := by
      rw [ht, List.map_append]; rfl
    refine Ok.then (Ok.writer (hi qs v ⟨_, he.symm⟩ hg ht hd) (fun _ _ => hi _ _ ⟨_, he'.symm⟩ hg ht' hd) fun _ => ?_)
    exact Ok.sendEach hi (qs ++ [q]) rest _ he' hg ht' hd

/-- **A server tells what there is**, and no more. -/
theorem Ok.listServer_tells (args : ListArgs) (w : World) (c : Command) (cb : Bytes) :
    Ok (Answering c (Tells H w args)) (fun _ _ => True) (ListingHandler.handleImpl args) (heard (H := H) w c cb) := by
  refine Ok.then (Ok.asked (.before rfl rfl) fun r w' hw => ⟨.before rfl rfl, ?_⟩)
  obtain ⟨rfl, hr⟩ := hw
  cases r with
  | error e => exact Ok.refuse nofun rfl rfl
  | ok info =>
    obtain ⟨n, hn, rfl⟩ := hr info rfl
    simp only
    by_cases hf : n.info.isFile = true
    · -- a file is listed in one packet
      rw [if_pos hf]
      have hc : Closed [⟨[⟨args.path, false, n.info.len, []⟩], false⟩] := .singleton rfl
      have ht : ∀ qs (v : View H.sig), qs <+: [ListData.mk [⟨args.path, false, n.info.len, []⟩] false] →
          v.done = [⟨.metadata args.path, .ok n.info⟩] → Tells H w' args v (qs.map .listData) :=
        fun qs v hq hd => ⟨_, qs, hc, hq, rfl, .file n hn hf hd⟩
      refine Ok.then (Ok.sendOk (.before rfl rfl) (fun _ => ⟨rfl, .accepted _ (ht [] _ List.nil_prefix rfl)⟩) ?_)
      exact Ok.writer ⟨rfl, .accepted _ (ht [] _ List.nil_prefix rfl)⟩
        (fun _ _ => ⟨rfl, .accepted _ (ht _ _ (List.prefix_refl _) rfl)⟩) fun _ => trivial
    · rw [if_neg hf]
      refine Ok.then (Ok.asked (.before rfl rfl) fun r w'' hw => ⟨.before rfl rfl, ?_⟩)
      cases hw
      cases r with
      | error e => exact Ok.refuse nofun rfl rfl
      | ok found =>
        simp only
        cases hs : (ListData.mk (found.map ListEntry.ofDirEntry) false).splitBySize wireEncodingLimit with
        | none => exact Ok.hang (Answering.before rfl rfl)
        | some ps =>
          obtain ⟨hc, hall⟩ := closed_splitBySize _ _ ps (by decide) hs
          have hi : ∀ qs (v : View H.sig), qs <+: ps → v.got = [.command c] →
              v.tried = .response okResponse :: qs.map .listData → v.done = [⟨.metadata args.path, .ok n.info⟩,
                ⟨.walkDir args.path (findOption args.options .recurse).isSome, .ok found⟩] →
              Answering c (Tells H w' args) v := fun qs v hq hg ht hd =>
            ⟨hg, ht ▸ .accepted _ ⟨ps, qs, hc, hq, rfl, hall ▸ .walk n found hn (Bool.eq_false_iff.2 hf) hd⟩⟩
          exact Ok.then (Ok.sendOk (.before rfl rfl) (fun _ => hi [] _ List.nil_prefix rfl rfl rfl)
            (Ok.sendEach hi [] ps _ rfl rfl rfl rfl))

end Server

section Client

variable {H : Host}

/-- **A client returns what it has read**, put together. -/
theorem Ok.listClient_joins (inner : SessionCommandInner) (job : CopyJobSpec) (recurse : Bool) (w : World) :
    Ok (fun _ => True) (fun a v => ∃ r ps, Closed ps ∧ a = ⟨0, some (ListData.join ps)⟩ ∧
      v.got = Msg.response r :: ps.map Msg.listData) (ListingHandler.sendImpl inner job recurse : Act H RequestResult)
      (View.init w) := by
  refine Ok.then (Ok.ensure trivial fun _ => ?_)
  refine Ok.then (Ok.writer trivial (fun _ _ => trivial) fun _ => Ok.then (Ok.flushed trivial ?_))
  refine Ok.then (Ok.reader (fun _ _ => trivial) (fun _ _ _ _ _ => trivial) fun rb r _ _ _ => ?_)
  refine Ok.then (Ok.intoResult trivial fun _ => Ok.then ?_)
  refine Ok.loop (fun data v => (∀ p ∈ data, p.moreToCome = true) ∧ v.got = Msg.response r :: data.map Msg.listData)
    (fun _ _ _ => trivial) ?_ [] ⟨fun p hp => absurd hp List.not_mem_nil, rfl⟩
  rintro data v ⟨hmore, hgot⟩
  refine Ok.then (Ok.reader (fun _ _ => trivial) (fun _ _ _ _ _ => trivial) fun bs packet _ _ _ => ?_)
  have hgot' : v.got ++ [.listData packet] = .response r :: (data ++ [packet]).map .listData := by
    rw [hgot, List.map_append]
    rfl
  split
  · rename_i hm
    refine Ok.pure trivial ⟨fun p hp => ?_, hgot'⟩
    exact (List.mem_append.1 hp).elim (hmore p) fun hp => List.mem_singleton.1 hp ▸ hm
  · rename_i hm
    refine Ok.pure trivial ?_
    simp only [Proc.Round]
    refine Ok.pure trivial ?_
    exact ⟨r, data ++ [packet], ⟨data, packet, rfl, hmore, Bool.eq_false_iff.2 hm⟩, rfl, hgot'⟩

end Client

section Exchange

variable {G H : Host} {inner inner' : SessionCommandInner} {u w : World} {x : Joint G H}

/-- **What holds of a server whatever it was asked holds of what it was asked.** -/
theorem served_of {p : Act G RequestResult} {R : Command → View H.sig → Prop}
    (hR : ∀ c cb, Ok (R c) (fun _ _ => True) (commandHandler inner' c) (heard w c cb))
    (hr : Pair.Reach p (handleStream inner') u w x) {cmd : Command} {rest : List Msg}
    (ht : x.1.2.tried = .command cmd :: rest)
    (hfit : Command.form.Fits cmd) (hplain : ∀ t ∈ cmd.tagged, t.Plain) (hne : x.2.2.tried ≠ []) :
    R cmd x.2.2.view := by
  rcases (Ok.handleStream_of (R := fun c _ => R c) inner' w hR).run (Pair.reach hr).2.1 with
    h | ⟨c, cb, hread, ⟨y, hy⟩, hs⟩
  · exact absurd h hne
  · have h := Pair.taken_right hr
    rw [ht, show x.2.2.taken = frame cb ++ y from hy.symm] at h
    obtain ⟨rfl, -, -⟩ := hread.of_sent (y := rest.flatMap Msg.enc) hfit (Command.readsBack_of_fits cmd hplain hfit) h
    exact hs

theorem ListingHandler.recurse_command (recurse : Bool) :
    (findOption (if recurse then [CommandParam.recurse.tagged] else []) .recurse).isSome = recurse := by
  cases recurse <;> decide

/-- **A client that is done has read all packets**, and these are the listing's. -/
theorem told_of_reach {job : CopyJobSpec} {recurse : Bool}
    (hr : Pair.Reach (ListingHandler.sendImpl inner job recurse) (handleStream inner') u w x) {a : RequestResult}
    (ha : x.1.1 = .ret (.ok a)) : ∃ ps, Closed ps ∧
      Enumerates H w job.source.filename recurse x.2.2.done (ps.flatMap ListData.entries) ∧
      a = ⟨0, some (ListData.join ps)⟩ := by
  have hcs : Steps (ListingHandler.sendImpl inner job recurse, Local.init u) (.ret (.ok a), x.1.2) :=
    ha ▸ (Pair.reach hr).1
  obtain ⟨rb, r, bss, ps', hasked, -⟩ := (Ok.listClient inner job recurse u).run_ok hcs
  obtain ⟨r', ps, hclosed, rfl, hgot⟩ := (Ok.listClient_joins inner job recurse u).run_ok hcs
  have hgot : x.1.2.got = .response r' :: ps.map .listData := hgot
  -- the client has read no more than the server has begun to send
  have hpre : x.1.2.got <+: x.2.2.tried.filter Msg.isMessage := by
    rw [(list_completes hr ha).2.client]
    exact (sent_prefix_tried hr).filter _
  rw [hgot] at hpre
  have hne : x.2.2.tried ≠ [] := fun h => by
    rw [h] at hpre
    exact absurd (List.prefix_nil.1 hpre) (List.cons_ne_nil _ _)
  have hans : Answered (Tells H w ⟨job.source.filename, if recurse then [CommandParam.recurse.tagged] else []⟩
    x.2.2.view)
      x.2.2.tried := by
    refine (served_of (R := fun c v => ∀ args, c = .list args → Answering c (Tells H w args) v) (fun c cb => ?_) hr
      hasked.tried hasked.fits (ListingHandler.plain_command job recurse) hne _ rfl).tried
    cases c with
    | list args =>
      refine (Ok.listServer_tells args w (.list args) cb).mono (fun v h args' he => ?_) fun _ _ _ h => h
      cases he
      exact h
    | _ => exact (Ok.commandHandler inner' w cb _).mono (fun _ _ _ he => by cases he) fun _ _ _ h => h
  generalize x.2.2.tried = tried at hans hpre
  cases hans with
  | nothing => exact absurd (List.prefix_nil.1 hpre) (List.cons_ne_nil _ _)
  | refused err =>
    obtain ⟨front, last, rfl, -⟩ := hclosed
    rw [List.filter_cons_of_pos rfl, List.filter_nil, List.cons_prefix_cons] at hpre
    have hnil : front ++ [last] = [] := List.map_eq_nil_iff.1 (List.prefix_nil.1 hpre.2)
    exact absurd hnil (List.append_ne_nil_of_right_ne_nil _ (List.cons_ne_nil _ _))
  | accepted ms h =>
    obtain ⟨full, qs, hfull, hqs, rfl, hentries⟩ := h
    rw [List.filter_cons_of_pos rfl, filter_isMessage_listData, List.cons_prefix_cons] at hpre
    have hpre := (List.prefix_map_iff_of_injective fun _ _ h => by cases h; rfl).1 hpre.2
    cases hclosed.eq_of_prefix hfull (hpre.trans hqs)
    rw [ListingHandler.recurse_command] at hentries
    exact ⟨ps, hclosed, hentries, rfl⟩

/-- **A listing arrives whole**: a client that is done was given each entry there was to be listed, once and in order,
and nothing else. -/
theorem listing_whole (G H : Host) (inner inner' : SessionCommandInner) (job : CopyJobSpec) (recurse : Bool)
    (u w : World)
    (x : Joint G H) (hr : Pair.Reach (ListingHandler.sendImpl inner job recurse) (handleStream inner') u w x)
    (a : RequestResult) (ha : x.1.1 = .ret (.ok a)) :
    ∃ entries, Enumerates H w job.source.filename recurse x.2.2.done entries ∧ a = ⟨0, some ⟨entries, false⟩⟩ := by
  obtain ⟨ps, -, he, rfl⟩ := told_of_reach hr ha
  exact ⟨_, he, rfl⟩

end Exchange

/-! ## The listing of a file -/

def atLevel4 (size : UInt64) : SessionCommandInner :=
  ⟨.level 4, { Configuration.systemDefault with ioBufferSize := size }, false⟩

/-- The one packet of it. -/
def datedListing : ListData := ⟨[⟨"f".toList, false, 1, []⟩], false⟩

theorem datedListing_readsBack : ListData.form.ReadsBack datedListing :=
  ListData.readsBack_of_fits datedListing (by
    intro e he t ht
    rw [List.mem_singleton.1 he] at ht
    cases ht) (by decide)

/-- The server consents, and sends it. -/
theorem server_lists : Reaches (fun c => c.2.taken = (Msg.command (ListingHandler.command preserving true)).enc ∧
      c.2.out = (Msg.response okResponse).enc ++ (Msg.listData datedListing).enc)
      (handleStream (H := maskedHost) (atLevel4 1048576), Local.init (dated [7])) := by
  refine Gives.reaches (Gives.attempt (Gives.reader (F := Command.form) (a := ListingHandler.command preserving true)
    (by decide) (Command.readsBack_of_fits _ (ListingHandler.plain_command preserving true) (by decide)) rfl)) ?_
  have hmeta : Host.sem maskedHost (dated [7]) (.metadata "f".toList) (.ok (datedInfo 1)) (dated [7]) :=
    ⟨rfl, fun m hm => by cases hm; exact ⟨_, rfl, rfl⟩⟩
  refine Gives.reaches (Gives.asked hmeta) ?_
  simp only [datedInfo, Metadata.isFile, decide_true, if_true]
  apply Gives.reaches (Gives.writer (F := Response.form) (a := okResponse) (by decide) rfl)
  refine ⟨_, Gives.writer (F := ListData.form) (a := datedListing) (by decide) rfl, ?_, ?_⟩
  · have h0 : (Local.init (S := maskedHost.sig) (dated [7])).taken = [] := rfl
    simp [Proc.Event.read, h0]
    rfl
  · simp
    rfl

/-- The client asks, reads it and is done. -/
theorem client_lists : Reaches (fun c => c.2.taken = [] ∧
      c.2.out = (Msg.command (ListingHandler.command preserving true)).enc ∧
      Reaches (fun c => c.1 = .ret (.ok ⟨0, some datedListing⟩) ∧
        c.2.taken = (Msg.response okResponse).enc ++ (Msg.listData datedListing).enc) c)
      (ListingHandler.sendImpl (H := maskedHost) (atLevel4 1048576) preserving true, Local.init fun _ => none) := by
  apply Gives.reaches (Gives.ensure (by decide))
  apply Gives.reaches (Gives.writer (F := Command.form) (a := ListingHandler.command preserving true) (by decide) rfl)
  apply Gives.reaches Gives.flushed
  refine Reaches.now ⟨rfl, rfl, ?_⟩
  apply Gives.reaches (Gives.reader (by decide) (Response.readsBack_of_fits okResponse (by decide)) rfl)
  apply Gives.reaches (Gives.pure _ _)
  apply Gives.reaches (Gives.last (Gives.then (Gives.reader (by decide) datedListing_readsBack rfl)
    (Gives.pure (Sum.inr [datedListing]) _)))
  refine Reaches.now ⟨rfl, ?_⟩
  simp [Proc.Event.read]
  rfl

theorem listing_run : ∃ x : Joint maskedHost maskedHost,
    Pair.Reach (ListingHandler.sendImpl (atLevel4 1048576) preserving true) (handleStream (atLevel4 1048576))
      (fun _ => none) (dated [7]) x ∧ x.1.1 = .ret (.ok ⟨0, some datedListing⟩) := by
  obtain ⟨c, hc, hct, hco, c', hc', hret, hct'⟩ := client_lists
  obtain ⟨d, hd, hdt, hdo⟩ := server_lists
  exact ⟨(c', d), Pair.Reach.turns hc hct hd (by rw [hdt, hco]) hc' (by rw [hct', hdo]), hret⟩

theorem listing_whole_dated : ∃ (x : Joint maskedHost maskedHost) (entries : List ListEntry),
    Enumerates maskedHost (dated [7]) "f".toList true x.2.2.done entries ∧ datedListing = ⟨entries, false⟩ := by
  obtain ⟨x, hx, ha⟩ := listing_run
  obtain ⟨entries, he, heq⟩ := listing_whole maskedHost maskedHost (atLevel4 1048576) (atLevel4 1048576) preserving true
    _ _ x hx _ ha
  cases heq
  exact ⟨x, _, he, rfl⟩

end Qcp
