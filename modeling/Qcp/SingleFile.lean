import Qcp.Destination
import Qcp.Jobspecs
/-!
# SingleFile — a plain file, put with and without a walk

A walk over a plain file finds the file, with no name to go by.  `jobs_of_file` says what job comes of it, and
`not_recursesAsPlain` that it never is the job that is made without a walk.
-/
namespace Qcp

open Bare (Text)
open Posix (Path endsWithSep)
open Walkdir (Root)

/-- The jobs of one source and a destination. -/
def jobsFor (tree : Path → Root) (source destination : FileSpec) (recurse preserve : Bool) :
    Except Text (Bool × List CopyJobSpec) :=
  jobspecs tree ⟨[source, destination], recurse, preserve⟩

/-- Where jobs lead to, on a side that sees this file system. -/
def finalPaths {H : Host} (fs : Sight H) (filename : Text) (jobs : List CopyJobSpec) : List (Option Path) :=
  jobs.map fun job => fs.written job.destination.filename filename

/-- **A walk makes no difference for a plain file**: its jobs name no directory, and lead to where they lead without. -/
structure RecursesAsPlain (tree : Path → Root) (source destination : FileSpec) (preserve : Bool) : Prop where
  noSlash : ∀ success jobs, jobsFor tree source destination true preserve = .ok (success, jobs) →
    ∀ job ∈ jobs, endsWithSep job.destination.filename = false
  same : ∀ success success' jobs jobs', jobsFor tree source destination true preserve = .ok (success, jobs) →
    jobsFor tree source destination false preserve = .ok (success', jobs') →
    ∀ (H : Host) (fs : Sight H) (filename : Text), finalPaths fs filename jobs = finalPaths fs filename jobs'

/-- The job of a walk over a file that is no directory. -/
def walkedJob (source destination : FileSpec) (preserve : Bool) : CopyJobSpec :=
  nodeJob source destination preserve ⟨[], .file⟩

theorem checkRemoteUsers_local (source destination : FileSpec) (hs : source.userAtHost = none) :
    checkRemoteUsers none [source, destination] = .ok () := by
  have hsource : source.remoteUser = none := by rw [FileSpec.remoteUser, hs]; rfl
  unfold checkRemoteUsers
  rw [hsource]
  simp only [checkRemoteUsers]
  cases destination.remoteUser <;> rfl

theorem checkRemoteHosts_local (source destination : FileSpec) (hs : source.userAtHost = none) :
    checkRemoteHosts [source, destination] = .ok () := by
  have hsource : source.hostname = none := by rw [FileSpec.hostname, hs]; rfl
  unfold checkRemoteHosts
  rw [List.filterMap_cons_none hsource, if_pos]
  cases h : destination.hostname <;> simp [h]

theorem checkSides_local (source destination : FileSpec) (hs : source.userAtHost = none)
    (hd : destination.userAtHost ≠ none) :
    checkSides [source] destination = .ok joinRemote := by
  unfold checkSides
  rw [if_pos (Option.isSome_iff_ne_none.2 hd)]
  simp [hs]

/-- What is done for a local source and a remote destination. -/
theorem jobsFor_local (tree : Path → Root) (source destination : FileSpec) (recurse preserve : Bool)
    (hs : source.userAtHost = none) (hd : destination.userAtHost ≠ none) :
    jobsFor tree source destination recurse preserve =
      if recurse = true then recurseSources tree destination preserve [source]
      else (plainJobs joinRemote destination false preserve [source]).map fun jobs => (true, jobs) := by
  have hsome : destination.userAtHost.isSome = true := Option.isSome_iff_ne_none.2 hd
  unfold jobsFor jobspecs
  show (checkRemoteUsers none [source, destination] >>= fun _ => checkRemoteHosts [source, destination] >>= fun _ =>
    checkSides [source] destination >>= _) = _
  rw [checkRemoteUsers_local source destination hs, checkRemoteHosts_local source destination hs,
    checkSides_local source destination hs hd]
  show (if recurse = true ∧ destination.userAtHost.isSome = true then _ else _) = _
  cases recurse with
  | true => simp [hsome]
  | false =>
    simp
    cases plainJobs joinRemote destination false preserve [source] <;> rfl

/-- What a walk over a file finds, if not its root only. -/
def fileNodes (skipRoot : Bool) : List Walkdir.Node := if skipRoot then [] else [⟨[], .file⟩]

theorem contentsOf_leaf (tree : Path → Root) (path : Path) (skipRoot regular : Bool) (h : tree path = .leaf regular) :
    contentsOf tree path skipRoot [Posix.sep] =
      .ok (true, (fileNodes skipRoot).map fun x => (x.entry path 0, [Posix.sep].intercalate x.names)) := by
  unfold contentsOf
  rw [h]
  cases skipRoot with
  | true => rfl
  | false =>
    have hleaf := leafOfEntry_entry path ⟨[], .file⟩ fun n hn => absurd hn List.not_mem_nil
    show collectEntries [Posix.sep] [.ok ((⟨[], .file⟩ : Walkdir.Node).entry path 0)] = _
    simp only [collectEntries, hleaf]
    rfl

theorem recurseLocalSource_leaf (tree : Path → Root) (source destination : FileSpec) (preserve regular : Bool)
    (hs : source.userAtHost = none) (hd : destination.userAtHost ≠ none)
    (htree : tree source.filename = .leaf regular) :
    recurseLocalSource tree source destination preserve =
      .ok (true, (fileNodes (destination.filename = [])).map (nodeJob source destination preserve)) := by
  have hcontents := contentsOf_leaf tree source.filename (destination.filename = []) regular htree
  have hjobs := entryJobs_eq source destination preserve hs hd (fileNodes (destination.filename = []))
  unfold recurseLocalSource
  rw [if_neg hd]
  simp only [hcontents]
  show (entryJobs source destination _ preserve _ >>= _) = _
  rw [hjobs]
  rfl

/-- **The jobs of a plain file**: with a walk one to a name with a slash behind it, or none to a bare host. -/
theorem jobs_of_file (tree : Path → Root) (source destination : FileSpec) (preserve regular : Bool)
    (hs : source.userAtHost = none) (hd : destination.userAtHost ≠ none)
    (htree : tree source.filename = .leaf regular) :
    jobsFor tree source destination true preserve =
        .ok (true, (fileNodes (destination.filename = [])).map (nodeJob source destination preserve)) ∧
      jobsFor tree source destination false preserve = .ok (true, [singleJob destination false preserve source]) := by
  rw [jobsFor_local tree source destination true preserve hs hd, jobsFor_local tree source destination false
    preserve hs hd]
  constructor
  · rw [if_pos rfl, recurseSources, recurseLocalSource_leaf tree source destination preserve regular hs hd htree]
    show Except.ok (true && true, _ ++ []) = _
    rw [List.append_nil]
    rfl
  · have hnew := tryNew_local source.userAtHost destination.userAtHost source.filename destination.filename preserve
      false hs hd
    rw [if_neg Bool.false_ne_true, plainJobs]
    show Except.map _
      (CopyJobSpec.tryNew source ⟨destination.userAtHost, destination.filename⟩ preserve false >>= _) = _
    rw [hnew]
    rfl

/-- What is joined to nothing has a separator at its end. -/
theorem endsWithSep_joinRemote_nil (base : Text) (h : base ≠ []) : endsWithSep (joinRemote base []) = true := by
  unfold joinRemote
  rw [if_neg h]
  split
  · rename_i he
    rw [List.append_nil]
    exact he
  · simp [endsWithSep]

theorem destStem_ne_nil (source destination : Text) (h : destination ≠ []) : destStem source destination ≠ [] := by
  unfold destStem
  split
  · exact List.append_ne_nil_of_left_ne_nil h _
  · exact h

/-- **A walk always makes a difference for a plain file**: its job names a directory, and to a bare host there is
none. -/
theorem not_recursesAsPlain (tree : Path → Root) (source destination : FileSpec) (preserve regular : Bool)
    (hs : source.userAtHost = none) (hd : destination.userAtHost ≠ none)
    (htree : tree source.filename = .leaf regular) :
    ¬ RecursesAsPlain tree source destination preserve := by
  intro h
  obtain ⟨hwalk, hplain⟩ := jobs_of_file tree source destination preserve regular hs hd htree
  by_cases hb : destination.filename = []
  · have hsame := h.same _ _ _ _ hwalk hplain nestedHost nestedSight []
    have hlen := congrArg List.length hsame
    simp [finalPaths, fileNodes, hb] at hlen
  · have hmem : walkedJob source destination preserve ∈
        (fileNodes (destination.filename = [])).map (nodeJob source destination preserve) := by
      simp [fileNodes, hb, walkedJob]
    have hslash := h.noSlash _ _ hwalk _ hmem
    have hends := endsWithSep_joinRemote_nil _ (destStem_ne_nil source.filename destination.filename hb)
    cases hslash.symm.trans hends

def fileF : FileSpec := ⟨none, ['f']⟩

def hostOut : FileSpec := ⟨some ['h'], ['o', 'u', 't']⟩

theorem not_recursesAsPlain_out : ¬ RecursesAsPlain (fun _ => .leaf true) fileF hostOut false :=
  not_recursesAsPlain _ fileF hostOut false true rfl (by decide) rfl

/-- **What is put to `out` is written to `out`**; with a walk it is refused for want of a directory `out/`. -/
theorem not_forall_recursesAsPlain : ¬ ∀ (tree : Path → Root) (source destination : FileSpec) (preserve : Bool),
    source.userAtHost = none → destination.userAtHost ≠ none → tree source.filename = .leaf true →
    RecursesAsPlain tree source destination preserve := by
  intro h
  obtain ⟨hwalk, hplain⟩ := jobs_of_file (fun _ => .leaf true) fileF hostOut false true rfl (by decide) rfl
  have hsame := (h _ fileF hostOut false rfl (by decide) rfl).same _ _ _ _ hwalk hplain nestedHost nestedSight ['f']
  have hrefused : nestedSight.written "out/".toList ['f'] = none := by rfl
  have hwritten : nestedSight.written "out".toList ['f'] = some "out".toList := by rfl
  have hlists : [nestedSight.written "out/".toList ['f']] = [nestedSight.written "out".toList ['f']] := hsame
  rw [hrefused, hwritten] at hlists
  cases hlists

end Qcp
