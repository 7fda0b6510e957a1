import Qcp.Uploads
/-!
# Merging — when two files of a PUT are given one destination

Without a trailing slash the contents of every source go into the destination.  `put_destinations_distinct_iff`: two
files of a PUT have the same destination exactly when it is recursive and two sources, merged in this way, have a file
of the same name.  Within one source, and without recursion, destinations are told from their last names.
-/
namespace Qcp

open Bare (Text)
open Posix (Path Name Plain fileName sep)
open Walkdir (Root Kind)

/-! ## What is compared -/

/-- Two files are not to be written to the same place. -/
def Differ (j k : CopyJobSpec) : Prop :=
  j.directory = false → k.directory = false → j.destination.filename ≠ k.destination.filename

/-- **Two sources are merged, and both have something by one name** that is no directory. -/
def Merges (tree : Path → Root) (destination source source' : FileSpec) : Prop :=
  ∃ ms ns k l, ((tree source.filename).Reaches ms k ∧ k ≠ .directory) ∧
    ((tree source'.filename).Reaches ns l ∧ l ≠ .directory) ∧ (destination.filename = [] → ms ≠ [] ∧ ns ≠ []) ∧
    inserted source.filename destination.filename ++ shown ms = inserted source'.filename destination.filename ++
    shown ns

/-- No two sources have the same last name. -/
def BasenamesDistinct (sources : List FileSpec) : Prop :=
  sources.Pairwise fun s t => ∀ n, fileName s.filename = some n → fileName t.filename ≠ some n

/-! ## Recursive jobs -/

theorem shown_injective {ms ns : List Name} (hm : ∀ n ∈ ms, Plain n) (hn : ∀ n ∈ ns, Plain n)
    (h : shown ms = shown ns) :
    ms = ns := by
  unfold shown at h
  split at h <;> split at h
  · rename_i h1 h2
    rw [h1, h2]
  · exact absurd rfl (hn [] (h ▸ List.mem_singleton_self _)).ne_nil
  · exact absurd rfl (hm [] (h ▸ List.mem_singleton_self _)).ne_nil
  · exact h

section Source

variable (tree : Path → Root) (destination : FileSpec) (preserve : Bool) (source source' : FileSpec)

theorem destination_nodeJob_eq_iff (ms ns : List Name) (k l : Kind) (hm : ∀ n ∈ ms, Plain n) (hn : ∀ n ∈ ns, Plain n) :
    (nodeJob source destination preserve ⟨ms, k⟩).destination.filename =
        (nodeJob source' destination preserve ⟨ns, l⟩).destination.filename ↔
      inserted source.filename destination.filename ++ shown ms =
        inserted source'.filename destination.filename ++ shown ns :=
  destination_eq_iff source.filename source'.filename destination.filename ms ns hm hn

theorem differ_sourceJobs (h : (tree source.filename).Distinct) :
    (sourceJobs tree destination preserve source).Pairwise Differ := by
  unfold sourceJobs
  rw [List.pairwise_map]
  have hn : (tree source.filename).nodes.Pairwise fun x y => x.names ≠ y.names :=
    List.pairwise_map.1 ((tree source.filename).nodup_nodes h)
  refine (hn.filter _).imp_of_mem fun {x y} hx hy hne _ _ he => hne ?_
  have hx := (tree source.filename).plain_of_mem_nodes x (List.mem_of_mem_filter hx)
  have hy := (tree source.filename).plain_of_mem_nodes y (List.mem_of_mem_filter hy)
  exact shown_injective hx hy (List.append_cancel_left
    ((destination_nodeJob_eq_iff destination preserve source source x.names y.names x.kind y.kind hx hy).1 he))

/-- **The files of two sources differ** unless the sources merge. -/
theorem differ_between_iff : (∀ j ∈ sourceJobs tree destination preserve source,
    ∀ k ∈ sourceJobs tree destination preserve source', Differ j k) ↔ ¬ Merges tree destination source source' := by
  constructor
  · rintro hall ⟨ms, ns, k, l, ⟨hm, hk⟩, ⟨hn, hl⟩, hb, he⟩
    refine hall _ ((mem_sourceJobs tree destination preserve source _).2 ⟨ms, k, hm, fun h => (hb h).1, rfl⟩)
      _ ((mem_sourceJobs tree destination preserve source' _).2 ⟨ns, l, hn, fun h => (hb h).2, rfl⟩)
      (decide_eq_false hk) (decide_eq_false hl) ?_
    exact (destination_nodeJob_eq_iff destination preserve source source' ms ns k l (plain_of_reaches _ _ _ hm)
      (plain_of_reaches _ _ _ hn)).2 he
  · intro hno j hj k hk hjd hkd he
    obtain ⟨ms, x, hm, hmb, rfl⟩ := (mem_sourceJobs tree destination preserve source j).1 hj
    obtain ⟨ns, y, hn, hnb, rfl⟩ := (mem_sourceJobs tree destination preserve source' k).1 hk
    exact hno ⟨ms, ns, x, y, ⟨hm, of_decide_eq_false hjd⟩, ⟨hn, of_decide_eq_false hkd⟩, fun h => ⟨hmb h, hnb h⟩,
      (destination_nodeJob_eq_iff destination preserve source source' ms ns x y (plain_of_reaches _ _ _ hm)
        (plain_of_reaches _ _ _ hn)).1 he⟩

end Source

/-! ## Jobs of sources as they stand -/

theorem joinRemote_injective (base a b : Text) (h : joinRemote base a = joinRemote base b) : a = b := by
  unfold joinRemote at h
  split at h
  · exact h
  · split at h
    · exact List.append_cancel_left h
    · exact List.append_cancel_left h

theorem differ_plainJobs (sources : List FileSpec) (destination : FileSpec) (preserve : Bool)
    (hb : BasenamesDistinct sources) (hnames : 1 < sources.length → ∀ s ∈ sources, (fileName s.filename).isSome) :
    (sources.map (singleJob destination (1 < sources.length) preserve)).Pairwise Differ := by
  by_cases hlen : 1 < sources.length
  · rw [List.pairwise_map]
    refine hb.imp_of_mem fun {s t} hs ht hne _ _ he => ?_
    obtain ⟨m, hm⟩ := Option.isSome_iff_exists.1 (hnames hlen s hs)
    obtain ⟨n, hn⟩ := Option.isSome_iff_exists.1 (hnames hlen t ht)
    simp only [singleJob, hlen, decide_true, if_true, hm, hn, Option.getD_some] at he
    exact hne m hm (hn.trans (congrArg some (joinRemote_injective _ _ _ he).symm))
  · cases sources with
    | nil => exact List.Pairwise.nil
    | cons s rest =>
      cases rest with
      | nil => exact List.pairwise_singleton _ _
      | cons t rest => exact absurd (by simp) hlen

/-- **No two files of a PUT have the same destination, unless it is recursive and two sources merge.** -/
theorem put_destinations_distinct_iff (tree : Path → Root) (sources : List FileSpec) (destination : FileSpec)
    (recurse preserve success : Bool) (jobs : List CopyJobSpec) (hd : destination.userAtHost ≠ none)
    (hw : ∀ s ∈ sources, (tree s.filename).Distinct) (hb : BasenamesDistinct sources)
    (h : jobspecs tree ⟨sources ++ [destination], recurse, preserve⟩ = .ok (success, jobs)) :
    jobs.Pairwise Differ ↔
      (recurse = true → sources.Pairwise fun s t => ¬ Merges tree destination s t) := by
  obtain ⟨-, hlocal, ⟨rfl, hrec⟩ | ⟨rfl, hplain⟩⟩ :=
    jobspecs_put tree sources destination recurse preserve success jobs hd h
  · rw [(recurseSources_ok tree destination preserve sources success jobs hlocal hrec).2, List.pairwise_flatMap]
    simp only [differ_between_iff, true_imp_iff]
    exact and_iff_right fun s hs => differ_sourceJobs tree destination preserve s (hw s hs)
  · obtain ⟨hnames, rfl⟩ := plainJobs_ok destination _ preserve hd sources jobs hlocal hplain
    refine iff_of_true (differ_plainJobs sources destination preserve hb fun hlen => hnames (decide_eq_true hlen)) nofun

/-! ## Two directories, one file name -/

def fromA : FileSpec := ⟨none, ['a']⟩
def fromB : FileSpec := ⟨none, ['b']⟩

theorem basenamesDistinct_ab : BasenamesDistinct [fromA, fromB] :=
  List.pairwise_pair.2 fun n hm hn => by
    have h : fileName fromA.filename ≠ fileName fromB.filename := by decide
    exact h (hm.trans hn.symm)

/-- The jobs of `qcp -r a b host:…`, either directory with one file in it. -/
def jobsAB (destination : FileSpec) : List CopyJobSpec :=
  [fromA, fromB].flatMap (sourceJobs oneFileTree destination false)

theorem put_destinations_distinct_iff_ab : (jobsAB ⟨some ['h'], "dest/".toList⟩).Pairwise Differ ↔
    (true = true → [fromA, fromB].Pairwise fun s t => ¬ Merges oneFileTree ⟨some ['h'], "dest/".toList⟩ s t) :=
  put_destinations_distinct_iff oneFileTree [fromA, fromB] ⟨some ['h'], "dest/".toList⟩ true false true _ (by decide)
    (fun _ _ => ⟨fun _ _ => List.not_mem_nil, trivial⟩) basenamesDistinct_ab rfl

/-- **`qcp -r a b host:dest` writes `a/file` and `b/file` to `dest/file`.** -/
theorem not_put_destinations_distinct : ¬ ∀ (tree : Path → Root) (sources : List FileSpec) (destination : FileSpec)
    (recurse preserve success : Bool) (jobs : List CopyJobSpec), destination.userAtHost ≠ none →
    (∀ s ∈ sources, (tree s.filename).Distinct) → BasenamesDistinct sources →
    jobspecs tree ⟨sources ++ [destination], recurse, preserve⟩ = .ok (success, jobs) → jobs.Pairwise Differ := by
  intro hall
  have h := hall oneFileTree [fromA, fromB] ⟨some ['h'], "dest".toList⟩ true false true
    (jobsAB ⟨some ['h'], "dest".toList⟩) (by decide) (fun _ _ => ⟨fun _ _ => List.not_mem_nil, trivial⟩)
    basenamesDistinct_ab rfl
  have hlast := (List.pairwise_cons.1 (List.pairwise_cons.1 h).2).1 _ (List.mem_cons_of_mem _ List.mem_cons_self)
  exact hlast rfl rfl rfl

end Qcp
