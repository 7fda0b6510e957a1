import Qcp.RecursiveGet
import Qcp.Session
import Qcp.Walkdir
/-!
# Mirror — a recursive GET rebuilds the tree that was listed

`Honest` is a listing whose entries are the source and paths below it.  `destFile_extend` says what the text put
together for such an entry is, and `recursive_get_mirrors` that the jobs of each source have the shape of its listing.
-/
namespace Qcp

open Bare (Text)
open Posix (Path Name Plain fileName withSep sep push extend)

/-! ## Listings and what comes of them -/

/-- One path is that of a directory below the source, the other that of something in it. -/
def DirectlyIn (source dir child : Text) : Prop :=
  ∃ rel n, (∀ m ∈ rel ++ [n], Plain m) ∧ dir = extend source rel ∧ child = extend source (rel ++ [n])

/-- **An honest listing**: the source and paths below it, none twice, and nothing before the directory it is in. -/
structure Honest (source : Text) (entries : List ListEntry) : Prop where
  spelled : ∀ item ∈ entries, ∃ rel, (∀ n ∈ rel, Plain n) ∧ item.name = extend source rel
  distinct : (entries.map ListEntry.name).Nodup
  ordered : entries.Pairwise fun earlier later => ¬ DirectlyIn source later.name earlier.name

/-- The name put in for a source: its own, unless its contents become the destination. -/
def putIn (singleSourceMkdirMode : Bool) (source : Text) : List Name :=
  if singleSourceMkdirMode then [] else (fileName source).toList

/-- **The jobs of one source mirror its listing.** -/
structure Mirrors (single : Bool) (job : CopyJobSpec) (entries : List ListEntry) (part : List CopyJobSpec) : Prop where
  placed : List.Forall₂ (fun item new => new.source.filename = item.name ∧ new.directory = item.directory ∧
    ∀ rel, (∀ n ∈ rel, Plain n) → item.name = extend job.source.filename rel →
      new.destination.filename = extend job.destination.filename (putIn single job.source.filename ++ rel)) entries part
  distinct : (part.map fun new => new.destination.filename).Nodup
  ordered : part.Pairwise fun earlier later =>
    ¬ DirectlyIn job.source.filename later.source.filename earlier.source.filename
  under : ∀ parent ∈ part, ∀ child ∈ part, ∀ rel n, (∀ m ∈ rel ++ [n], Plain m) →
    parent.source.filename = extend job.source.filename rel →
    child.source.filename = extend job.source.filename (rel ++ [n]) →
    child.destination.filename = push parent.destination.filename n

/-- **A walk makes an honest listing**, if no directory has a name twice. -/
theorem honest_walk (r : Walkdir.Root) (source : Text) (h : r.Distinct) (entries : List DirEntry)
    (he : entries.map DirEntry.path = r.nodes.map fun x => extend source x.names) :
    Honest source (entries.map ListEntry.ofDirEntry) := by
  have hnames : (entries.map ListEntry.ofDirEntry).map ListEntry.name = r.nodes.map fun x => extend source x.names := by
    rw [List.map_map, ← he]
    rfl
  have hinj : ∀ x ∈ r.nodes, ∀ y ∈ r.nodes, extend source x.names = extend source y.names → x.names = y.names :=
    fun x hx y hy => Posix.extend_injective (r.plain_of_mem_nodes x hx) (r.plain_of_mem_nodes y hy)
  refine ⟨fun item hi => ?_, ?_, ?_⟩
  · obtain ⟨x, hx, hxn⟩ := List.mem_map.1 (hnames ▸ List.mem_map_of_mem hi)
    exact ⟨x.names, r.plain_of_mem_nodes x hx, hxn.symm⟩
  · rw [hnames]
    exact (List.nodup_map_iff_inj_on (r.nodup_nodes h).of_map).2 fun x hx y hy hxy =>
      List.inj_on_of_nodup_map (r.nodup_nodes h) hx hy (hinj x hx y hy hxy)
  · have hp : ((entries.map ListEntry.ofDirEntry).map ListEntry.name).Pairwise fun a b => ¬ DirectlyIn source b a := by
      rw [hnames, List.pairwise_map]
      refine (r.pairwise_nodes h).imp_of_mem fun {x y} hx hy hxy => ?_
      rintro ⟨rel, n, hplain, hyn, hxn⟩
      apply hxy n
      rw [Posix.extend_injective (r.plain_of_mem_nodes x hx) hplain hxn,
        Posix.extend_injective (r.plain_of_mem_nodes y hy) (fun m hm => hplain m (List.mem_append_left _ hm)) hyn]
    exact List.pairwise_map.1 hp

/-! ## One entry -/

theorem withSep_eq (p : Path) : ∃ t, withSep p = p ++ t ∧ ∀ c ∈ t, c = sep := by
  unfold withSep
  split
  · exact ⟨[sep], rfl, fun c hc => List.mem_singleton.1 hc⟩
  · exact ⟨[], (List.append_nil p).symm, fun c hc => absurd hc List.not_mem_nil⟩

theorem isPrefixOf?_append : ∀ p t : Text, p.isPrefixOf? (p ++ t) = some t
  | [], _ => rfl
  | c :: p, t => by
    show (if c == c then p.isPrefixOf? (p ++ t) else none) = some t
    rw [if_pos (beq_self_eq_true c), isPrefixOf?_append p t]

theorem leafOf_append (source t : Text) (h : ∀ c ∈ t, c = sep) (rest : Text) :
    leafOf source (source ++ (t ++ rest)) = rest.dropWhile (· == sep) := by
  unfold leafOf
  rw [isPrefixOf?_append, Option.getD_some, List.dropWhile_append_of_pos fun c hc => beq_iff_eq.2 (h c hc)]

/-- **What is left of a path below the source** is the names below it. -/
theorem leafOf_extend (source : Text) (rel : List Name) (h : ∀ n ∈ rel, Plain n) :
    leafOf source (extend source rel) = [sep].intercalate rel := by
  by_cases hne : rel = []
  · subst hne
    have := leafOf_append source [] (fun c hc => absurd hc List.not_mem_nil) []
    rwa [List.append_nil, List.append_nil] at this
  · obtain ⟨t, ht, hs⟩ := withSep_eq source
    obtain ⟨c, cs, hc, hcs⟩ := Posix.head_intercalate rel h hne
    rw [Posix.extend_eq source rel h hne, ht, List.append_assoc, leafOf_append source t hs, hc,
      List.dropWhile_cons_of_neg (by simpa using hcs)]

theorem plain_fileName (p : Path) (n : Name) (h : fileName p = some n) : Plain n where
  noSep := Posix.sep_not_mem_of_mem_names p n (Posix.fileName_mem p n h).1
  counts := Posix.counts_of_mem_names p n (Posix.fileName_mem p n h).1
  notUp := (Posix.fileName_mem p n h).2

theorem plain_putIn (single : Bool) (source : Text) : ∀ n ∈ putIn single source, Plain n := by
  intro n hn
  unfold putIn at hn
  split at hn
  · cases hn
  · exact plain_fileName source n (Option.mem_toList.1 hn)

/-- Names appended as the code appends them: with a separator where one is needed, and not at all if there are none. -/
theorem append_leaf (dest : Text) (rel : List Name) (h : ∀ n ∈ rel, Plain n) :
    (if [sep].intercalate rel ≠ [] then withSep dest ++ [sep].intercalate rel else dest) = extend dest rel := by
  by_cases hne : rel = []
  · subst hne
    rfl
  · obtain ⟨c, cs, hc, -⟩ := Posix.head_intercalate rel h hne
    rw [if_pos (by rw [hc]; exact List.cons_ne_nil _ _), Posix.extend_eq dest rel h hne]

/-- **Where an entry goes**: into the destination, under the source's own name or not, by the names below the source. -/
theorem destFile_extend (single : Bool) (dest source : Text) (rel : List Name) (h : ∀ n ∈ rel, Plain n) :
    destFile single dest source (extend source rel) = extend dest (putIn single source ++ rel) := by
  have hbase : (if single = false ∧ (fileName source).getD [] ≠ [] then withSep dest ++
    (fileName source).getD [] else dest) =
      extend dest (putIn single source) := by
    unfold putIn
    cases single with
    | true => rfl
    | false =>
      cases hf : fileName source with
      | none => rfl
      | some n =>
        have hn := plain_fileName source n hf
        simp only [Option.getD_some, ne_eq, hn.ne_nil, not_false_eq_true, and_self, if_true]
        exact (hn.push_eq dest).symm
  unfold destFile
  simp only [hbase, leafOf_extend source rel h, Posix.extend_append]
  exact append_leaf _ rel h

example : destFile false "out".toList "d/".toList "d/a/b".toList = "out/d/a/b".toList ∧
    destFile true "out".toList "/".toList "/a".toList = "out/a".toList ∧
    destFile false "out/".toList "..".toList "../a".toList = "out/a".toList := by decide

/-! ## The entries of a source -/

section Source

variable (single : Bool) (job : CopyJobSpec) (entries : List ListEntry)

theorem destination_newJob (item : ListEntry) (rel : List Name) (h : ∀ n ∈ rel, Plain n)
    (he : item.name = extend job.source.filename rel) : (newJob single job item).destination.filename =
      extend job.destination.filename (putIn single job.source.filename ++ rel) := by
  show destFile single job.destination.filename job.source.filename item.name = _
  rw [he]
  exact destFile_extend single _ _ rel h

theorem mirrors_newJob (h : Honest job.source.filename entries) :
    Mirrors single job entries (entries.map (newJob single job)) where
  placed := by
    rw [List.forall₂_map_right_iff, List.forall₂_same]
    exact fun item _ => ⟨rfl, rfl, destination_newJob single job item⟩
  distinct := by
    rw [List.map_map]
    refine (List.nodup_map_iff_inj_on h.distinct.of_map).2 fun x hx y hy he => ?_
    apply List.inj_on_of_nodup_map h.distinct hx hy
    obtain ⟨ms, hms, hxn⟩ := h.spelled x hx
    obtain ⟨ns, hns, hyn⟩ := h.spelled y hy
    have he : (newJob single job x).destination.filename = (newJob single job y).destination.filename := he
    rw [destination_newJob single job x ms hms hxn, destination_newJob single job y ns hns hyn] at he
    have hplain : ∀ rel : List Name, (∀ n ∈ rel, Plain n) → ∀ n ∈ putIn single job.source.filename ++ rel, Plain n :=
      fun rel hr n hn => (List.mem_append.1 hn).elim (plain_putIn single _ n) (hr n)
    rw [hxn, hyn, List.append_cancel_left (Posix.extend_injective (hplain ms hms) (hplain ns hns) he)]
  ordered := List.pairwise_map.2 h.ordered
  under parent hp child hc rel n hplain hpn hcn := by
    obtain ⟨x, -, rfl⟩ := List.mem_map.1 hp
    obtain ⟨y, -, rfl⟩ := List.mem_map.1 hc
    rw [destination_newJob single job x rel (fun m hm => hplain m (List.mem_append_left _ hm)) hpn,
      destination_newJob single job y (rel ++ [n]) hplain hcn, ← List.append_assoc, Posix.extend_append]
    rfl

end Source

/-! ## All sources -/

theorem listAll_mirrors (request : CopyJobSpec → Except Text (Option ListData)) (single : Bool) :
    ∀ (jobs new : List CopyJobSpec), listAll request single jobs = .ok new →
      (∀ job ∈ jobs, ∀ data, request job = .ok (some data) → Honest job.source.filename data.entries) →
      ∃ parts : List (List CopyJobSpec), new = parts.flatten ∧ List.Forall₂ (fun job part => ∃ data,
        request job = .ok (some data) ∧ Mirrors single job data.entries part) jobs parts
  | [], _, h, _ => by
    cases h
    exact ⟨[], rfl, .nil⟩
  | job :: jobs, new, h, hh => by
    rw [List.forall_mem_cons] at hh
    unfold listAll at h
    obtain ⟨contents, hr, h⟩ := (Configuration.bind_eq_ok _ _ _).1 h
    cases contents with
    | none => cases h
    | some data =>
      obtain ⟨rest, hrest, h⟩ := (Configuration.bind_eq_ok _ _ _).1 h
      cases h
      obtain ⟨parts, rfl, hparts⟩ := listAll_mirrors request single jobs rest hrest hh.2
      exact ⟨_ :: parts, rfl, .cons ⟨data, hr, mirrors_newJob single job data.entries (hh.1 data hr)⟩ hparts⟩

/-- **A recursive GET mirrors what was listed**: the jobs of one source after those of another, each source's of the
shape of its listing. -/
theorem recursive_get_mirrors (negotiated : Option Compatibility) (destMeta : Text → Option FileKind)
    (request : CopyJobSpec → Except Text (Option ListData)) (createDirAll : Text → Except Text Unit)
    (jobsIn new : List CopyJobSpec)
    (hh : ∀ job ∈ jobsIn, ∀ data, request job = .ok (some data) → Honest job.source.filename data.entries)
    (h : processRecursiveGet negotiated destMeta request createDirAll jobsIn = .ok new) :
    ∃ first ∈ jobsIn.head?, ∃ parts : List (List CopyJobSpec), new = parts.flatten ∧
    List.Forall₂ (fun job part => ∃ data,
      request job = .ok (some data) ∧ Mirrors (destMeta first.destination.filename).isNone job data.entries part)
        jobsIn parts := by
  obtain ⟨first, rest, hfirst, hl⟩ := processRecursiveGet_lists negotiated destMeta request createDirAll jobsIn new h
  refine ⟨first, ?_, listAll_mirrors request _ jobsIn new hl hh⟩
  rw [hfirst]
  rfl

/-! ## A directory and a file -/

/-- What a walk of `src` finds, with one file in it. -/
def walked : List DirEntry := [⟨"src".toList, true, none⟩, ⟨"src/file".toList, false, none⟩]

theorem honest_walked : Honest "src".toList (walked.map ListEntry.ofDirEntry) :=
  honest_walk (.dir (.leaf (some ⟨"file".toList, ⟨by decide, by decide, by decide⟩⟩) true .done)) _
    ⟨fun _ _ => List.not_mem_nil, trivial⟩ walked rfl

def listsWalked : CopyJobSpec → Except Text (Option ListData) :=
  fun _ => .ok (some ⟨walked.map ListEntry.ofDirEntry, false⟩)

def nothingThere : Text → Option FileKind := fun _ => none

theorem recursive_get_mirrors_src : ∃ first ∈ [plainJob].head?, ∃ parts : List (List CopyJobSpec),
    (walked.map ListEntry.ofDirEntry).map (newJob true plainJob) = parts.flatten ∧
    List.Forall₂ (fun job part => ∃ data, listsWalked job = .ok (some data) ∧
      Mirrors (nothingThere first.destination.filename).isNone job data.entries part) [plainJob] parts :=
  recursive_get_mirrors (some (.level 4)) nothingThere listsWalked (fun _ => .ok ()) [plainJob]
    ((walked.map ListEntry.ofDirEntry).map (newJob true plainJob))
    (fun job hj data hdata => by
      cases hdata
      rw [List.mem_singleton.1 hj]
      exact honest_walked)
    rfl

end Qcp
