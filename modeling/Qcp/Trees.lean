import Qcp.Client
import Qcp.Listings
/-!
# Trees — a tree that is fetched whole

`Shows` is a server that has a tree: what it lists are the tree's nodes.  `download_mirrors` says that a recursive GET
which succeeded has brought each of its files to where the names that lead there say.
-/
namespace Qcp

open Bare (Bytes Text)
open Posix (Path Name extend)
open Proc (Pair)
open Walkdir (Root)

/-! ## Trees that are listed -/

/-- What a walk over a tree finds, from a path. -/
def Finds (r : Root) (source : Path) (found : List DirEntry) : Prop :=
  found.map (fun e => (e.path, e.directory)) = r.nodes.map fun x =>
    (extend source x.names, decide (x.kind = .directory))

/-- **A server where there is a tree**: a file is all there is of it, or a walk finds it. -/
structure Shows (H : Host) (w : World) (r : Root) (source : Path) (done : List (Σ op, Op.Ret op)) : Prop where
  file : ∀ n, w (H.place source) = some n → n.info.isFile = true → r = .leaf true
  walk : ∀ found, ⟨.walkDir source true, .ok found⟩ ∈ done → Finds r source found

/-- Each file of the tree is listed. -/
theorem Shows.listed {H : Host} {w : World} {r : Root} {source : Path} {done : List (Σ op, Op.Ret op)}
    {entries : List ListEntry} (h : Shows H w r source done) (he : Enumerates H w source true done entries)
    {ns : List Name} {k : Walkdir.Kind} (hr : r.Reaches ns k) (hk : k ≠ .directory) :
    ∃ size, (⟨extend source ns, false, size, []⟩ : ListEntry) ∈ entries := by
  cases he with
  | file n hn hf hd =>
    cases h.file n hn hf
    obtain ⟨rfl, -⟩ := hr
    exact ⟨_, List.mem_singleton_self _⟩
  | walk n found hn hf hd =>
    have hfinds := h.walk found (by rw [hd]; simp)
    have hmem : (extend source ns, false) ∈ found.map fun e => (e.path, e.directory) := by
      rw [hfinds]
      refine List.mem_map.2 ⟨⟨ns, k⟩, (r.mem_nodes ns k).2 hr, ?_⟩
      rw [decide_eq_false hk]
    obtain ⟨⟨path, directory, info⟩, hfound, heq⟩ := List.mem_map.1 hmem
    cases heq
    exact ⟨_, List.mem_map.2 ⟨_, hfound, rfl⟩⟩

/-! ## The jobs of a download -/

/-- The job of a file in a tree, by the names that lead there. -/
def treeJob (single : Bool) (source destination : FileSpec) (preserve : Bool) (ns : List Name) : CopyJobSpec where
  source := { userAtHost := source.userAtHost, filename := extend source.filename ns }
  destination :=
    { userAtHost := destination.userAtHost
      filename := extend destination.filename (putIn single source.filename ++ ns) }
  userAtHost := source.userAtHost.getD (destination.userAtHost.getD [])
  preserve := preserve
  directory := false
  mode := none

theorem newJob_eq_treeJob (single preserve : Bool) (source destination : FileSpec) (ns : List Name) (size : UInt64)
    (h : ∀ n ∈ ns, Posix.Plain n) :
    newJob single (singleJob destination false preserve source) ⟨extend source.filename ns, false, size, []⟩ =
      treeJob single source destination preserve ns := by
  have hdest := destFile_extend single destination.filename source.filename ns h
  simp [newJob, singleJob, treeJob, hdest, findTag]

theorem plainJobs_get (joinFn : Text → Text → Text) (destination : FileSpec) (preserve : Bool)
    (hd : destination.userAtHost = none) : ∀ (sources : List FileSpec) (jobs : List CopyJobSpec),
      plainJobs joinFn destination false preserve sources = .ok jobs →
      jobs = sources.map (singleJob destination false preserve)
  | [], _, h => by
    cases h
    rfl
  | source :: sources, jobs, h => by
    unfold plainJobs at h
    obtain ⟨filename, hf, h⟩ := (Configuration.bind_eq_ok _ _ _).1 h
    cases hf
    obtain ⟨job, hj, h⟩ := (Configuration.bind_eq_ok _ _ _).1 h
    obtain ⟨rest, hrest, h⟩ := (Configuration.bind_eq_ok _ _ _).1 h
    cases h
    rw [plainJobs_get joinFn destination preserve hd sources rest hrest, List.map_cons]
    unfold CopyJobSpec.tryNew at hj
    split at hj
    · cases hj
    · cases hj
      rfl

/-- **A recursive GET is asked for source by source**: the names are put in when the listings are there. -/
theorem jobspecs_get {tree : Path → Root} {sources : List FileSpec} {destination : FileSpec} {preserve full : Bool}
    {jobs : List CopyJobSpec} (hd : destination.userAtHost = none)
    (h : jobspecs tree ⟨sources ++ [destination], true, preserve⟩ = .ok (full, jobs)) :
    jobs = sources.map (singleJob destination false preserve) := by
  unfold jobspecs at h
  obtain ⟨⟨ss, d⟩, hsd, h⟩ := (Configuration.bind_eq_ok _ _ _).1 h
  obtain ⟨rfl, rfl, -⟩ := sourcesAndDestination_ok _ _ _ _ _ _ hsd
  obtain ⟨-, -, h⟩ := (Configuration.bind_eq_ok _ _ _).1 h
  obtain ⟨-, -, h⟩ := (Configuration.bind_eq_ok _ _ _).1 h
  obtain ⟨joinFn, -, h⟩ := (Configuration.bind_eq_ok _ _ _).1 h
  simp only [hd, Option.isSome_none, Bool.false_eq_true, and_false, if_false, reduceCtorEq, or_self, decide_false] at h
  obtain ⟨js, hjobs, h⟩ := (Configuration.bind_eq_ok _ _ _).1 h
  cases h
  exact plainJobs_get joinFn d preserve hd ss jobs hjobs

/-! ## What is here in the end -/

/-- **The listing for a job** is what an exchange came to, with a server where there is a tree. -/
def ListingOf (G H : Host) (inner inner' : SessionCommandInner) (w : World) (r : Root) (job : CopyJobSpec)
    (list : ListData) :
    Prop :=
  ∃ (u : World) (x : Joint G H) (a : RequestResult),
    Pair.Reach (ListingHandler.sendImpl inner job true) (handleStream inner') u w x ∧ x.1.1 = .ret (.ok a) ∧
    a.list = some list ∧ Shows H w r job.source.filename x.2.2.done

/-- Each file of the tree is in it. -/
theorem ListingOf.mem {G H : Host} {inner inner' : SessionCommandInner} {w : World} {r : Root} {job : CopyJobSpec}
    {list : ListData} (h : ListingOf G H inner inner' w r job list) {ns : List Name} {k : Walkdir.Kind}
    (hr : r.Reaches ns k)
    (hk : k ≠ .directory) : ∃ size, (⟨extend job.source.filename ns, false, size, []⟩ : ListEntry) ∈ list.entries := by
  obtain ⟨u, x, a, hx, ha, hlist, hshows⟩ := h
  obtain ⟨ps, -, he, rfl⟩ := told_of_reach hx ha
  cases hlist
  exact hshows.listed he hr hk

namespace Client

/-- **A recursive download that succeeded**: each file of each source's tree is here, under the destination, by the
names that lead there; below the source's own name, unless that is the only one and there was nothing at the
destination. -/
theorem download_mirrors {σ α : Type} (G H : Host) (inner inner' : SessionCommandInner) (u w u' w' : World)
    (tree there : Path → Root) (sources : List FileSpec) (destination : FileSpec) (preserve full : Bool)
    (jobs : List CopyJobSpec) (rig : Rig σ α) (resolveHostAlias : Text → Option Text)
    (lookupHostByFamily : Text → Except Text α) (w₀ : σ) (s' : Progress σ) (hin : inner.config.ioBufferSize ≠ 0)
    (hd : destination.userAtHost = none)
    (hjobs : jobspecs tree ⟨sources ++ [destination], true, preserve⟩ = .ok (full, jobs))
    (hrun : run rig tree resolveHostAlias lookupHostByFamily ⟨sources ++ [destination], true, preserve⟩ false w₀ =
      (.ok true, s')) :
    ∃ (single : Bool) (lists : List ListData) (transferred : List CopyJobSpec),
      (∃ w, single = (rig.metadata destination.filename w).1.isNone) ∧ (single = true → sources.length = 1) ∧
      lists.length = jobs.length ∧
      (∀ p ∈ jobs.zip lists, ∃ w w' result, rig.runPre p.1 w = (.ok result, w') ∧ result.list = some p.2) ∧
      transferred = ((jobs.zip lists).flatMap fun p => p.2.entries.map (newJob single p.1)) ∧
      ((∀ p ∈ jobs.zip lists, ListingOf G H inner inner' w (there p.1.source.filename) p.1 p.2) →
        transferred.Pairwise (ApartHere G u) → ∀ lingering : List (Bytes × Proc.Config H.sig (Except Err Unit)),
        Overlap.Reach (G := G) (H := H) inner inner' true (jobs ++ transferred) u w
          ⟨⟨.idle u' w', s'.steps⟩, lingering⟩ →
        ∀ s ∈ sources, ∀ ns k, (there s.filename).Reaches ns k → k ≠ .directory →
          (treeJob single s destination preserve ns).Downloaded G H u w u') := by
  have hsettled := run_settled hrun
  obtain ⟨single, lists, transferred, s₀, s₁, stats, ⟨first, hfirst, hsingle⟩, hone, hlen, hall, htransferred, hgo,
    htransfers, hsteps⟩ :=
    transferred_of_run hd hjobs hrun
  have hsources := jobspecs_get hd hjobs
  rw [hsources, List.length_map] at hone
  have hdest : first.destination.filename = destination.filename := by
    have hmem := List.mem_of_mem_head? hfirst
    rw [hsources] at hmem
    obtain ⟨s, -, rfl⟩ := List.mem_map.1 hmem
    rfl
  rw [hdest] at hsingle
  rw [hsteps] at hsettled ⊢
  refine ⟨single, lists, transferred, hsingle, hone, hlen, hall, htransferred, ?_⟩
  intro hlists hap lingering ho s hs ns k hr hk
  refine get_session_delivers hin hgo hap (overlap_sequential ho hsettled) htransfers _ ?_ rfl
  -- the source's listing has the file
  have hjob : singleJob destination false preserve s ∈ (jobs.zip lists).map Prod.fst := by
    rw [List.map_fst_zip (Nat.le_of_eq hlen.symm), hsources]
    exact List.mem_map_of_mem hs
  obtain ⟨⟨job, list⟩, hmem, rfl⟩ := List.mem_map.1 hjob
  obtain ⟨size, hentry⟩ := (hlists _ hmem).mem hr hk
  have hplain := (there s.filename).plain_of_mem_nodes ⟨ns, k⟩ (((there s.filename).mem_nodes ns k).2 hr)
  rw [htransferred]
  refine List.mem_flatMap.2 ⟨_, hmem, List.mem_map.2 ⟨_, hentry, ?_⟩⟩
  exact newJob_eq_treeJob single preserve s destination ns size hplain

/-- A server that has the one file shows it. -/
theorem listingOf_dated {x : Joint maskedHost maskedHost}
    (hx : Pair.Reach (ListingHandler.sendImpl (atLevel4 1048576) preserving true) (handleStream (atLevel4 1048576))
      (fun _ => none) (dated [7]) x) (ha : x.1.1 = .ret (.ok ⟨0, some datedListing⟩)) :
    ListingOf maskedHost maskedHost (atLevel4 1048576) (atLevel4 1048576) (dated [7]) (.leaf true) preserving
    datedListing := by
  refine ⟨_, x, _, hx, ha, rfl, ⟨fun _ _ _ => rfl, fun found hmem => ?_⟩⟩
  obtain ⟨ps, -, he, -⟩ := told_of_reach hx ha
  generalize ps.flatMap ListData.entries = entries at he
  cases he with
  | file n hn hf hd => simp [hd] at hmem
  | walk n found' hn hf hd =>
    cases hn
    cases hf

/-- A rig that is given this listing, and is paid. -/
def listing (payloadBytes : UInt64) : Rig Unit Unit :=
  { paying payloadBytes with runPre := fun _ _ => (.ok ⟨0, some datedListing⟩, ()) }

theorem run_listing (payloadBytes : UInt64) : run (listing payloadBytes) (fun _ => .leaf true) (fun _ => none)
    (fun _ => .ok ()) ⟨[⟨some "host".toList, "f".toList⟩] ++ [⟨none, "f".toList⟩], true, true⟩ false () =
      (.ok true, ⟨(), [.request preserving .pre (.ok ⟨0, 0⟩), .request preserving .transfer
      (.ok ⟨payloadBytes, 0⟩)]⟩) := rfl

theorem download_mirrors_dated : ∃ (u' w' : World) (steps : List RunStep),
    Session.Reach (G := maskedHost) (H := maskedHost) (atLevel4 1048576) (atLevel4 1048576) true
      ([preserving] ++ [preserving]) (fun _ => none) (dated [7]) ⟨.idle u' w', steps⟩ ∧
    ∀ s ∈ [(⟨some "host".toList, "f".toList⟩ : FileSpec)], ∀ ns k, (Root.leaf true).Reaches ns k → k ≠ .directory →
      (treeJob true s ⟨none, "f".toList⟩ true ns).Downloaded maskedHost maskedHost (fun _ => none) (dated [7]) u' := by
  obtain ⟨x, hx, ha⟩ := listing_run
  obtain ⟨y, hy, -, ⟨a, hya⟩, -⟩ :=
    dated_run [7] [7] 1048576 (datedTrailer 1) (by decide) (by decide) (by decide) (by decide)
    (Or.inr ⟨by decide, by decide, by decide⟩) (by decide) (FileTrailer.forFile_plain _ _ _)
    (fun s n hn => Gives.updateMetadata_changed (c := ⟨some ⟨1000, 0⟩, some ⟨2000, 0⟩, some 0o666, true⟩) hn
      (Changes.collect_toTaggedData (datedInfo 1)) rfl rfl) (List.prefix_refl _)
  have hmem : preserving ∈ [preserving] ++ [preserving] := List.mem_append_left _ (List.mem_singleton_self _)
  -- the listing leaves both worlds as they are
  have hpre : Pair.Reach (runRequest (atLevel4 1048576) preserving .pre true) (handleStream (atLevel4 1048576))
      (fun _ => none) (dated [7]) x := hx
  have hfirst := Session.Reach.exchange .refl hmem (by exact nofun) hpre ha
  obtain ⟨hu, hw⟩ := request_footprint _ _ _ _ (.list preserving true) _ _ x hx
  rw [funext fun q => hu.only q id, funext fun q => hw.only q id] at hfirst
  have htransfer : Pair.Reach (runRequest (atLevel4 1048576) preserving .transfer true)
      (handleStream (atLevel4 1048576)) (fun _ => none) (dated [7]) y := hy
  have hreach := hfirst.exchange hmem (by exact nofun) htransfer hya
  obtain ⟨lingering, hoverlap⟩ := Overlap.reach_of_session hreach
  obtain ⟨single, lists, transferred, ⟨w, hsingle⟩, -, hlen, hall, htransferred, hdown⟩ := download_mirrors maskedHost
    maskedHost (atLevel4 1048576) (atLevel4 1048576) (fun _ => none) (dated [7]) y.1.2.world y.2.2.world
    (fun _ => .leaf true) (fun _ => .leaf true) [⟨some "host".toList, "f".toList⟩] ⟨none, "f".toList⟩ true true
    [preserving] (listing a.payloadBytes) (fun _ => none) (fun _ => .ok ()) () _ (by decide) rfl rfl
    (run_listing a.payloadBytes)
  obtain ⟨list, rfl⟩ := List.length_eq_one_iff.1 hlen
  obtain ⟨_, _, result, hresult, hlist⟩ := hall (preserving, list) List.mem_cons_self
  cases hresult
  cases hlist
  cases hsingle
  cases htransferred
  refine ⟨_, _, _, hreach, hdown ?_ (List.pairwise_singleton _ _) lingering hoverlap⟩
  intro p hp
  rw [List.mem_singleton.1 hp]
  exact listingOf_dated hx ha

end Client

end Qcp
