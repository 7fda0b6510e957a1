import Qcp.Host
import Qcp.SessionMsg
import Qcp.Config
/-!
# RecursiveGet — where a recursive GET puts what the server lists

`processRecursiveGet` turns a list of source jobs and the server's listings into one job for each entry; the local
path of each is put together as text (`destFile`).  `names_destFile` says which names this adds to the user's
destination, and `recursive_get_contained_iff` when every path stays inside it.
-/
namespace Qcp

open Bare (Text)
open Posix (Inside Reenters Place names absolute fileName withSep sep)

/-! ## Paths -/

/-- What is left of a listed name once the source is taken off its front, if it is there. -/
def leafOf (source name : Text) : Text := ((source.isPrefixOf? name).getD name).dropWhile (· == sep)

/-- The local path of a listed name; in single source mode the name of the remote directory is not put in. -/
def destFile (singleSourceMkdirMode : Bool) (dest source name : Text) : Text :=
  let remoteDirName := (fileName source).getD []
  let destfile := if singleSourceMkdirMode = false ∧ remoteDirName ≠ [] then withSep dest ++ remoteDirName else dest
  let leaf := leafOf source name
  if leaf ≠ [] then withSep destfile ++ leaf else destfile

/-- The names that are added to the destination. -/
def appended (singleSourceMkdirMode : Bool) (source name : Text) : List Text :=
  (if singleSourceMkdirMode then [] else (fileName source).toList) ++ names (leafOf source name)

theorem absolute_leafOf (source name : Text) : absolute (leafOf source name) = false := by
  unfold leafOf absolute
  generalize (source.isPrefixOf? name).getD name = s
  refine decide_eq_false fun h => ?_
  have := List.head?_dropWhile_not (· == sep) s
  rw [h] at this
  exact absurd this (by decide)

theorem absolute_name (p : Text) (n : Text) (h : fileName p = some n) : absolute n = false := by
  refine decide_eq_false fun hs => ?_
  have hmem : sep ∈ n := List.mem_of_mem_head? hs
  exact Posix.sep_not_mem_of_mem_names p n (Posix.fileName_mem p n h).1 hmem

theorem fileName_ne_nil (p : Text) (n : Text) (h : fileName p = some n) : n ≠ [] := by
  intro hn
  have := Posix.counts_of_mem_names p n (Posix.fileName_mem p n h).1
  rw [hn] at this
  exact absurd this (by decide)

/-- A separator and a text that has none in front: the names of both. -/
theorem withSep_append (d q : Text) (h : absolute q = false) :
    names (withSep d ++ q) = names d ++ names q ∧ absolute (withSep d ++ q) = absolute d :=
  ⟨Posix.names_withSep_append d q, Posix.absolute_withSep_append d q h⟩

/-- **The names of a new job's path** are the destination's and the appended ones. -/
theorem names_destFile (single : Bool) (dest source name : Text) :
    names (destFile single dest source name) = names dest ++ appended single source name ∧
      absolute (destFile single dest source name) = absolute dest := by
  have leaf : ∀ d : Text, names (if leafOf source name ≠ [] then withSep d ++ leafOf source name else d) =
      names d ++ names (leafOf source name) ∧
      absolute (if leafOf source name ≠ [] then withSep d ++ leafOf source name else d) = absolute d := by
    intro d
    by_cases hl : leafOf source name = []
    · rw [if_neg (not_not.2 hl), hl, Posix.names_nil, List.append_nil]
      exact ⟨rfl, rfl⟩
    · rw [if_pos hl]
      exact withSep_append d _ (absolute_leafOf source name)
  unfold destFile appended
  cases single with
  | true => exact leaf dest
  | false =>
    cases hf : fileName source with
    | none => exact leaf dest
    | some n =>
      have hn := fileName_ne_nil source n hf
      obtain ⟨h1, h2⟩ := withSep_append dest n (absolute_name source n hf)
      obtain ⟨h3, h4⟩ := leaf (withSep dest ++ n)
      rw [h1, Posix.names_fileName source n hf, List.append_assoc] at h3
      simp only [Option.getD_some, ne_eq, hn, not_false_eq_true, and_self, if_true]
      exact ⟨h3, h4.trans h2⟩

/-- Whether a new job's path stays inside the destination. -/
theorem inside_destFile_iff (single : Bool) (dest source name : Text) :
    Inside dest (destFile single dest source name) ↔
      Reenters dest (Place.start.walk false (appended single source name)) := by
  obtain ⟨hn, ha⟩ := names_destFile single dest source name
  exact Posix.inside_iff_reenters dest _ _ ha hn

/-! ## The jobs -/

/-- The job for a listed entry. -/
def newJob (singleSourceMkdirMode : Bool) (job : CopyJobSpec) (item : ListEntry) : CopyJobSpec where
  userAtHost := job.userAtHost
  source := { userAtHost := job.source.userAtHost, filename := item.name }
  destination :=
    { userAtHost := job.destination.userAtHost
      filename := destFile singleSourceMkdirMode job.destination.filename job.source.filename item.name }
  directory := item.directory
  preserve := job.preserve
  mode := (findTag item.attributes MetadataAttr.modeBits.toRepr).map fun i => i.coerceUnsigned.toUInt32

def unsupportedText : Text := "Operation not supported by remote".toList

/-- The check on the user's destination: what is there, and whether one source stands alone. -/
def singleSourceMode (destMeta : Text → Option FileKind) (dest : Text) (jobs : Nat) : Except Text Bool :=
  match destMeta dest with
  | some .file => .error ("Local destination directory is a file: ".toList ++ dest)
  | some _ => .ok false
  | none =>
    if jobs = 1 then .ok true
    else .error ("Local destination directory ".toList ++ dest ++
      " does not exist; with multiple source files/directories, the destination directory must exist".toList)

/-- Every job's entries, in order; the first request that fails ends it. -/
def listAll (request : CopyJobSpec → Except Text (Option ListData)) (single : Bool) :
    List CopyJobSpec → Except Text (List CopyJobSpec)
  | [] => .ok []
  | job :: jobs => do
    match ← request job with
    | none => .error "logic error: pre-transfer request did not return List response data".toList
    | some contents =>
      let rest ← listAll request single jobs
      return contents.entries.map (newJob single job) ++ rest

/-- The directory of the special mode, made only now that something goes into it. -/
def makeDestination (createDirAll : Text → Except Text Unit) (single : Bool) (dest : Text)
    (newJobs : List CopyJobSpec) :
    Except Text Unit :=
  match single, newJobs with
  | true, job :: _ => if job.directory then createDirAll dest else .ok ()
  | _, _ => .ok ()

/-- The jobs a recursive GET goes on to transfer. -/
def processRecursiveGet (negotiated : Option Compatibility) (destMeta : Text → Option FileKind)
    (request : CopyJobSpec → Except Text (Option ListData)) (createDirAll : Text → Except Text Unit)
    (jobsIn : List CopyJobSpec) : Except Text (List CopyJobSpec) :=
  if (negotiated.getD .unknown).supports .mkdirSetmetaLs = false then .error unsupportedText
  else match jobsIn with
    | [] => .error "logic error: empty jobs list in recursive GET".toList
    | first :: _ => do
      let originalDestDir := first.destination.filename
      let single ← singleSourceMode destMeta originalDestDir jobsIn.length
      let newJobs ← listAll request single jobsIn
      makeDestination createDirAll single originalDestDir newJobs
      return newJobs

theorem mem_listAll (request : CopyJobSpec → Except Text (Option ListData)) (single : Bool) :
    ∀ (jobs new : List CopyJobSpec), listAll request single jobs = .ok new → ∀ j, j ∈ new ↔
      ∃ job ∈ jobs, ∃ data, request job = .ok (some data) ∧ ∃ item ∈ data.entries, j = newJob single job item
  | [], new, h, j => by
    cases h
    exact ⟨fun h => absurd h List.not_mem_nil, fun ⟨_, h, _⟩ => absurd h List.not_mem_nil⟩
  | job :: jobs, new, h, j => by
    unfold listAll at h
    cases hr : request job with
    | error e => rw [hr] at h; cases h
    | ok o =>
      rw [hr] at h
      cases o with
      | none => cases h
      | some data =>
        cases hrest : listAll request single jobs with
        | error e => simp only [hrest, bind, Except.bind] at h; cases h
        | ok rest =>
          simp only [hrest, bind, Except.bind, pure, Except.pure] at h
          cases h
          have ih := mem_listAll request single jobs rest hrest j
          rw [List.mem_append, ih]
          constructor
          · rintro (hm | ⟨job', hj, rest⟩)
            · obtain ⟨item, hi, rfl⟩ := List.mem_map.1 hm
              exact ⟨job, List.mem_cons_self, data, hr, item, hi, rfl⟩
            · exact ⟨job', List.mem_cons_of_mem _ hj, rest⟩
          · rintro ⟨job', hj, data', hd, item, hi, rfl⟩
            rcases List.mem_cons.1 hj with rfl | hj
            · cases hr.symm.trans hd
              exact Or.inl (List.mem_map_of_mem hi)
            · exact Or.inr ⟨job', hj, data', hd, item, hi, rfl⟩

/-- What a run that gets as far as transferring has found out. -/
theorem processRecursiveGet_lists (negotiated : Option Compatibility) (destMeta : Text → Option FileKind)
    (request : CopyJobSpec → Except Text (Option ListData)) (createDirAll : Text → Except Text Unit)
    (jobsIn new : List CopyJobSpec)
    (h : processRecursiveGet negotiated destMeta request createDirAll jobsIn = .ok new) :
    ∃ first rest, jobsIn = first :: rest ∧
      listAll request (destMeta first.destination.filename).isNone jobsIn = .ok new := by
  unfold processRecursiveGet at h
  split at h
  · cases h
  · cases jobsIn with
    | nil => cases h
    | cons first rest =>
      obtain ⟨single, hs, h⟩ := (Configuration.bind_eq_ok _ _ _).1 h
      obtain ⟨jobs, hl, h⟩ := (Configuration.bind_eq_ok _ _ _).1 h
      obtain ⟨_, -, h⟩ := (Configuration.bind_eq_ok _ _ _).1 h
      cases h
      have hsingle : single = (destMeta first.destination.filename).isNone := by
        unfold singleSourceMode at hs
        cases hm : destMeta first.destination.filename with
        | none =>
          rw [hm] at hs
          simp only at hs
          split at hs <;> cases hs
          rfl
        | some k => rw [hm] at hs; cases k <;> cases hs <;> rfl
      exact ⟨first, rest, rfl, hsingle ▸ hl⟩

/-- **A recursive GET stays inside the user's destination exactly when, for every entry listed, the names appended come
down where they started.** -/
theorem recursive_get_contained_iff (negotiated : Option Compatibility) (destMeta : Text → Option FileKind)
    (request : CopyJobSpec → Except Text (Option ListData)) (createDirAll : Text → Except Text Unit)
    (jobsIn new : List CopyJobSpec) (dest : Text) (hd : ∀ job ∈ jobsIn, job.destination.filename = dest)
    (h : processRecursiveGet negotiated destMeta request createDirAll jobsIn = .ok new) :
    (∀ j ∈ new, Inside dest j.destination.filename) ↔
      ∀ job ∈ jobsIn, ∀ data, request job = .ok (some data) → ∀ item ∈ data.entries,
        Reenters dest (Place.start.walk false (appended (destMeta dest).isNone job.source.filename item.name)) := by
  obtain ⟨first, rest, hfirst, hl⟩ := processRecursiveGet_lists negotiated destMeta request createDirAll jobsIn new h
  rw [hd first (hfirst ▸ List.mem_cons_self)] at hl
  have hmem := mem_listAll request _ jobsIn new hl
  have key : ∀ job ∈ jobsIn, ∀ item : ListEntry,
      Inside dest (newJob (destMeta dest).isNone job item).destination.filename ↔
        Reenters dest (Place.start.walk false (appended (destMeta dest).isNone job.source.filename item.name)) := by
    intro job hj item
    show Inside dest (destFile _ job.destination.filename _ _) ↔ _
    rw [hd job hj]
    exact inside_destFile_iff _ dest _ _
  constructor
  · intro hin job hj data hdata item hi
    exact (key job hj item).1 (hin _ ((hmem _).2 ⟨job, hj, data, hdata, item, hi, rfl⟩))
  · intro hre j hj
    obtain ⟨job, hjob, data, hdata, item, hi, rfl⟩ := (hmem j).1 hj
    exact (key job hjob item).2 (hre job hjob data hdata item hi)

/-! ## A name that climbs out -/

/-- The job of `qcp -r host:src out`. -/
def plainJob : CopyJobSpec where
  source := ⟨some ['h'], "src".toList⟩
  destination := ⟨none, "out".toList⟩
  userAtHost := ['h']
  preserve := false
  directory := false
  mode := none

/-- A server that lists one file by that name. -/
def listsOnly (name : Text) : CopyJobSpec → Except Text (Option ListData) :=
  fun _ => .ok (some ⟨[⟨name, false, 0, []⟩], false⟩)

theorem recursive_get_plain (name : Text) : processRecursiveGet (some (.level 4)) (fun _ => some .directory)
    (listsOnly name) (fun _ => .ok ()) [plainJob] =
      .ok [newJob false plainJob ⟨name, false, 0, []⟩] := rfl

theorem recursive_get_contained_iff_plain :
    (∀ j ∈ [newJob false plainJob ⟨"src/file".toList, false, 0, []⟩],
      Inside "out".toList j.destination.filename) ↔
      ∀ job ∈ [plainJob], ∀ data, listsOnly "src/file".toList job = .ok (some data) → ∀ item ∈ data.entries,
        Reenters "out".toList (Place.start.walk false (appended false job.source.filename item.name)) :=
  recursive_get_contained_iff (some (.level 4)) (fun _ => some .directory) (listsOnly "src/file".toList)
    (fun _ => .ok ()) [plainJob] [newJob false plainJob ⟨"src/file".toList, false, 0, []⟩] "out".toList
    (fun job hj => by rw [List.mem_singleton.1 hj]; rfl) (recursive_get_plain _)

/-- **A server that lists `src/../../x` is given `x` beside the destination.** -/
theorem not_recursive_get_contained : ∃ new,
    processRecursiveGet (some (.level 4)) (fun _ => some .directory) (listsOnly "src/../../x".toList) (fun _ => .ok ())
      [plainJob] = .ok new ∧ ¬ ∀ j ∈ new, Inside "out".toList j.destination.filename := by
  refine ⟨_, recursive_get_plain _, fun h => ?_⟩
  have hi := h _ (List.mem_singleton.2 rfl)
  have hdown := hi.down
  revert hdown
  decide

end Qcp
