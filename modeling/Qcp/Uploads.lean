import Qcp.Jobspecs
/-!
# Uploads — nothing is left out of a recursive PUT

`Lossless` says that every file is among the jobs once, and every directory in front of what is in it.
`recursive_put_lossless_iff`: that is so unless a bare host costs a source its root and all there is to it, or two
sources lead to the same file.
-/
namespace Qcp

open Bare (Text)
open Posix (Path Plain extend)
open Walkdir (Root)

/-! ## What there should be -/

/-- **Each job is of something in the source, after that of the directory it is in.** -/
structure ParentsFirst (tree : Path → Root) (source : FileSpec) (part : List CopyJobSpec) : Prop where
  reached : ∀ job ∈ part, ∃ ns k, (tree source.filename).Reaches ns k ∧
    job.source.filename = extend source.filename ns ∧ (job.directory = true ↔ k = .directory)
  before : ∀ front job back, part = front ++ job :: back → ∀ ns n k, ns ≠ [] →
    (tree source.filename).Reaches (ns ++ [n]) k → job.source.filename = extend source.filename (ns ++ [n]) →
    ∃ parent ∈ front, parent.directory = true ∧ parent.source.filename = extend source.filename ns

/-- **All that the sources hold is there**, once and in order. -/
structure Lossless (tree : Path → Root) (sources : List FileSpec) (jobs : List CopyJobSpec) : Prop where
  clean : ∀ s ∈ sources, (tree s.filename).Clean
  nonempty : jobs ≠ []
  once : ∀ s ∈ sources, ∀ ns, (tree s.filename).Reaches ns .file →
    (jobs.map fun job => job.source.filename).count (extend s.filename ns) = 1
  parents : ∃ parts : List (List CopyJobSpec), jobs = parts.flatten ∧ List.Forall₂ (ParentsFirst tree) sources parts

/-- A source reaches a path, other than as the root that a bare host has no name for. -/
def Sends (tree : Path → Root) (destination source : FileSpec) (p : Path) : Prop :=
  ∃ ns k, (tree source.filename).Reaches ns k ∧ (destination.filename = [] → ns ≠ []) ∧ p = extend source.filename ns

/-- To a bare host something is sent, and a source that is itself a file lies in another one. -/
def RootsCovered (tree : Path → Root) (sources : List FileSpec) (destination : FileSpec) : Prop :=
  destination.filename = [] → (∃ s ∈ sources, ∃ p, Sends tree destination s p) ∧
    ∀ s ∈ sources, (tree s.filename).Reaches [] .file → ∃ t ∈ sources, Sends tree destination t s.filename

/-- No two sources lead to the same file. -/
def FilesApart (tree : Path → Root) (sources : List FileSpec) (destination : FileSpec) : Prop :=
  ∀ s ∈ sources, ∀ ns, (tree s.filename).Reaches ns .file → sources.Pairwise fun t u =>
    ¬ (Sends tree destination t (extend s.filename ns) ∧ Sends tree destination u (extend s.filename ns))

/-! ## The jobs of one source -/

theorem plain_of_reaches (r : Root) (ns : List Posix.Name) (k : Walkdir.Kind) (h : r.Reaches ns k) :
    ∀ n ∈ ns, Plain n :=
  r.plain_of_mem_nodes ⟨ns, k⟩ ((r.mem_nodes ns k).2 h)

section Source

variable (tree : Path → Root) (destination : FileSpec) (preserve : Bool) (source : FileSpec)

theorem mem_sourceJobs (job : CopyJobSpec) : job ∈ sourceJobs tree destination preserve source ↔
    ∃ ns k, (tree source.filename).Reaches ns k ∧ (destination.filename = [] → ns ≠ []) ∧
      job = nodeJob source destination preserve ⟨ns, k⟩ := by
  unfold sourceJobs
  rw [List.mem_map]
  have hdeep : ∀ ns : List Posix.Name, decide ((decide (destination.filename = [])).toNat ≤ ns.length) = true ↔
      (destination.filename = [] → ns ≠ []) := by
    intro ns
    by_cases hd : destination.filename = []
    · simp [hd, Nat.one_le_iff_ne_zero]
    · simp [hd]
  constructor
  · rintro ⟨⟨ns, k⟩, hx, rfl⟩
    obtain ⟨hm, hd⟩ := List.mem_filter.1 hx
    exact ⟨ns, k, ((tree source.filename).mem_nodes ns k).1 hm, (hdeep ns).1 hd, rfl⟩
  · rintro ⟨ns, k, hr, hd, rfl⟩
    exact ⟨⟨ns, k⟩, List.mem_filter.2 ⟨((tree source.filename).mem_nodes ns k).2 hr, (hdeep ns).2 hd⟩, rfl⟩

theorem mem_sources_iff_sends (p : Path) :
    p ∈ (sourceJobs tree destination preserve source).map (fun job => job.source.filename) ↔
      Sends tree destination source p := by
  rw [List.mem_map]
  constructor
  · rintro ⟨job, hj, rfl⟩
    obtain ⟨ns, k, hr, hd, rfl⟩ := (mem_sourceJobs tree destination preserve source job).1 hj
    exact ⟨ns, k, hr, hd, rfl⟩
  · rintro ⟨ns, k, hr, hd, rfl⟩
    exact ⟨_, (mem_sourceJobs tree destination preserve source _).2 ⟨ns, k, hr, hd, rfl⟩, rfl⟩

theorem nodup_sources (h : (tree source.filename).Distinct) :
    ((sourceJobs tree destination preserve source).map fun job => job.source.filename).Nodup := by
  unfold sourceJobs
  rw [List.map_map]
  have hn := ((tree source.filename).nodup_nodes h).of_map
  refine (List.nodup_map_iff_inj_on (hn.filter _)).2 fun x hx y hy he => ?_
  have hx := List.mem_of_mem_filter hx
  have hy := List.mem_of_mem_filter hy
  exact List.inj_on_of_nodup_map ((tree source.filename).nodup_nodes h) hx hy
    (Posix.extend_injective ((tree source.filename).plain_of_mem_nodes x hx)
      ((tree source.filename).plain_of_mem_nodes y hy) he)

theorem parentsFirst_sourceJobs : ParentsFirst tree source (sourceJobs tree destination preserve source) where
  reached job hj := by
    obtain ⟨ns, k, hr, -, rfl⟩ := (mem_sourceJobs tree destination preserve source job).1 hj
    exact ⟨ns, k, hr, rfl, decide_eq_true_iff⟩
  before front job back hpart ns n k hne hr hj := by
    obtain ⟨xs, ys, hxs, rfl, hys⟩ := List.map_eq_append_iff.1 hpart
    obtain ⟨x, ys', rfl, rfl, rfl⟩ := List.map_eq_cons_iff.1 hys
    have hx : x ∈ (tree source.filename).nodes :=
      List.mem_of_mem_filter (hxs ▸ List.mem_append_right _ List.mem_cons_self)
    have hnames : x.names = ns ++ [n] := Posix.extend_injective
      ((tree source.filename).plain_of_mem_nodes x hx) (plain_of_reaches _ _ _ hr) hj
    have hord := (tree source.filename).ordered_nodes _ (Bool.toNat_le (decide (destination.filename = [])))
    rw [hxs] at hord
    have hparent := hord.before ns n hnames hne
    rw [List.append_nil] at hparent
    exact ⟨_, List.mem_map_of_mem hparent, rfl, rfl⟩

end Source

/-! ## All of them together -/

theorem reaches_root_of_clean (r : Root) (h : r.Clean) : ∃ k, r.Reaches [] k := by
  cases r with
  | fails e => exact h.elim
  | leaf regular => exact ⟨_, rfl, rfl⟩
  | dir kids => exact ⟨_, Or.inl ⟨rfl, rfl⟩⟩

/-- Something is once among lists without duplicates exactly when it is in one of them, and in no two. -/
theorem count_flatMap_eq_one_iff {α β : Type} [BEq β] [LawfulBEq β] (f : α → List β) (p : β) : ∀ as : List α,
    (∀ a ∈ as, (f a).Nodup) →
      ((as.flatMap f).count p = 1 ↔ (∃ a ∈ as, p ∈ f a) ∧ as.Pairwise fun a b => ¬ (p ∈ f a ∧ p ∈ f b))
  | [], _ => by simp
  | a :: as, h => by
    rw [List.forall_mem_cons] at h
    have ih := count_flatMap_eq_one_iff f p as h.2
    rw [List.flatMap_cons, List.count_append, h.1.count, List.pairwise_cons]
    by_cases hp : p ∈ f a
    · have hzero : (as.flatMap f).count p = 0 ↔ ∀ b ∈ as, p ∉ f b := by
        rw [List.count_eq_zero, List.mem_flatMap]
        simp
      have hpair : (∀ b ∈ as, p ∉ f b) → as.Pairwise fun a b => ¬ (p ∈ f a ∧ p ∈ f b) := fun hall =>
        List.pairwise_of_forall_mem_list fun b hb _ _ hboth => hall b hb hboth.1
      rw [if_pos hp]
      constructor
      · intro hc
        have hall := hzero.1 (by omega)
        exact ⟨⟨a, List.mem_cons_self, hp⟩, fun b hb hboth => hall b hb hboth.2, hpair hall⟩
      · rintro ⟨-, hall, -⟩
        rw [hzero.2 fun b hb hpb => hall b hb ⟨hp, hpb⟩]
    · rw [if_neg hp, Nat.zero_add, ih]
      simp [hp]

variable {α : Type} (tree : Path → Root) (resolveHostAlias : Text → Option Text)
    (lookupHostByFamily : Text → Except Text α)

/-- **A recursive PUT leaves nothing out exactly when** a bare host costs no source its root and the sources lead to
different files. -/
theorem recursive_put_lossless_iff (sources : List FileSpec) (destination : FileSpec) (preserve : Bool)
    (jobs : List CopyJobSpec) (hd : destination.userAtHost ≠ none) (hw : ∀ s ∈ sources, (tree s.filename).Distinct)
    (h : jobspecs tree ⟨sources ++ [destination], true, preserve⟩ = .ok (true, jobs)) :
    (Lossless tree sources jobs ∧ ∀ message, prep tree resolveHostAlias lookupHostByFamily
        ⟨sources ++ [destination], true, preserve⟩ ≠ .error (.panic message)) ↔
      RootsCovered tree sources destination ∧ FilesApart tree sources destination := by
  obtain ⟨hne, hlocal, hrec | hplain⟩ := jobspecs_put tree sources destination true preserve true jobs hd h
  · obtain ⟨hclean, hjobs⟩ := recurseSources_ok tree destination preserve sources true jobs hlocal hrec.2
    have hclean := hclean.1 rfl
    have hcount : ∀ p, (jobs.map fun job => job.source.filename).count p = 1 ↔
        (∃ s ∈ sources, Sends tree destination s p) ∧
          sources.Pairwise fun t u => ¬ (Sends tree destination t p ∧ Sends tree destination u p) := by
      intro p
      rw [hjobs, List.map_flatMap, count_flatMap_eq_one_iff _ p sources fun s hs =>
        nodup_sources tree destination preserve s (hw s hs)]
      simp only [mem_sources_iff_sends]
    have hsome : jobs ≠ [] ↔ ∃ s ∈ sources, ∃ p, Sends tree destination s p := by
      simp only [← mem_sources_iff_sends tree destination preserve]
      rw [hjobs, Ne, List.flatMap_eq_nil_iff]
      constructor
      · intro hn
        obtain ⟨s, hs, hj⟩ := by simpa using hn
        obtain ⟨job, rest, hj⟩ := List.exists_cons_of_ne_nil hj
        exact ⟨s, hs, job.source.filename, List.mem_map_of_mem (hj ▸ List.mem_cons_self)⟩
      · rintro ⟨s, hs, p, hp⟩ hall
        rw [hall s hs] at hp
        cases hp
    constructor
    · rintro ⟨hl, -⟩
      exact ⟨fun _ => ⟨hsome.1 hl.nonempty, fun s hs hr => ((hcount _).1 (hl.once s hs [] hr)).1⟩,
        fun s hs ns hr => ((hcount _).1 (hl.once s hs ns hr)).2⟩
    · rintro ⟨hroots, hapart⟩
      have hnonempty : jobs ≠ [] := by
        rw [hsome]
        by_cases hb : destination.filename = []
        · exact (hroots hb).1
        · obtain ⟨s, ss, rfl⟩ := List.exists_cons_of_ne_nil hne
          obtain ⟨k, hk⟩ := reaches_root_of_clean _ (hclean s List.mem_cons_self)
          exact ⟨s, List.mem_cons_self, _, [], k, hk, fun h => absurd h hb, rfl⟩
      refine ⟨⟨hclean, hnonempty, fun s hs ns hr => (hcount _).2 ⟨?_, hapart s hs ns hr⟩, ?_⟩, fun message hm => ?_⟩
      · by_cases hns : destination.filename = [] ∧ ns = []
        · obtain ⟨hb, rfl⟩ := hns
          exact (hroots hb).2 s hs hr
        · exact ⟨s, hs, ns, .file, hr, fun hb hn => hns ⟨hb, hn⟩, rfl⟩
      · refine ⟨sources.map (sourceJobs tree destination preserve), hjobs.trans List.flatMap_def, ?_⟩
        rw [List.forall₂_map_right_iff, List.forall₂_same]
        exact fun s _ => parentsFirst_sourceJobs tree destination preserve s
      · obtain ⟨success, hnil⟩ := (prep_panics_iff tree resolveHostAlias lookupHostByFamily _).1 ⟨message, hm⟩
        cases h.symm.trans hnil
        exact hnonempty rfl
  · cases hplain.1

/-! ## A file to a bare host -/

/-- One directory with one file in it. -/
def oneFileTree : Path → Root := fun _ =>
  .dir (.leaf (some ⟨"file".toList, ⟨by decide, by decide, by decide⟩⟩) true .done)

def atHome : FileSpec := ⟨none, "dir".toList⟩

def bareHost : FileSpec := ⟨some "host".toList, []⟩

theorem recursive_put_lossless_iff_oneFile :
    (Lossless oneFileTree [atHome] [nodeJob atHome bareHost false ⟨["file".toList], .file⟩] ∧
      ∀ message, prep oneFileTree (fun _ => none) (fun _ => .ok ()) ⟨[atHome, bareHost], true, false⟩ ≠
        .error (.panic message)) ↔
      RootsCovered oneFileTree [atHome] bareHost ∧ FilesApart oneFileTree [atHome] bareHost :=
  recursive_put_lossless_iff oneFileTree (fun _ => none) (fun _ => .ok ()) [atHome] bareHost false
    [nodeJob atHome bareHost false ⟨["file".toList], .file⟩] (by decide)
    (fun _ _ => ⟨fun _ _ => List.not_mem_nil, trivial⟩) rfl

/-- **`qcp -r file host:` has no job, and falls over for want of one.** -/
theorem not_recursive_put_lossless : ¬ ∀ (tree : Path → Root) (sources : List FileSpec) (destination : FileSpec)
    (preserve : Bool) (jobs : List CopyJobSpec), destination.userAtHost ≠ none →
    (∀ s ∈ sources, (tree s.filename).Distinct) →
    jobspecs tree ⟨sources ++ [destination], true, preserve⟩ = .ok (true, jobs) →
    Lossless tree sources jobs ∧ ∀ message, prep tree (fun _ => none) (fun _ => Except.ok ())
      ⟨sources ++ [destination], true, preserve⟩ ≠ .error (.panic message) := by
  intro hall
  have h := hall (fun _ => .leaf true) [⟨none, "file".toList⟩] bareHost false [] (by decide) (fun _ _ => trivial) rfl
  exact h.2 _ rfl

end Qcp
