import Qcp.Dirwalk
import Qcp.Host
/-!
# Jobspecs — from the command line to a list of jobs

`jobspecs` checks that one side is remote and makes the jobs; `prep` takes the first of them for the host to call.
`jobspecs_put`, `recurseSources_ok` and `plainJobs_ok` say what the jobs of a PUT are, and `prep_panics_iff` when
there is none.
-/
namespace Qcp

open Bare (Text)
open Posix (Path fileName sep push extend)
open Walkdir (Root)

/-! ## Specifications -/

/-- A text in front of and behind the first `@`, if there is one. -/
def splitAtSign (s : Text) : Option (Text × Text) :=
  match s.span (· ≠ '@') with
  | (front, _ :: back) => some (front, back)
  | (_, []) => none

/-- Strips the optional `user@` part off a hostname. -/
def hostnameOf (userAtHost : Text) : Text := ((splitAtSign userAtHost).getD ([], userAtHost)).2

def usernameOf (userAtHost : Text) : Option Text := (splitAtSign userAtHost).map Prod.fst

example : hostnameOf "me@there".toList = "there".toList ∧ usernameOf "there".toList = none ∧
    usernameOf "@there".toList = some [] := by decide

namespace FileSpec

def hostname (f : FileSpec) : Option Text := f.userAtHost.map hostnameOf

def remoteUser (f : FileSpec) : Option Text := f.userAtHost.bind usernameOf

end FileSpec

def CopyJobSpec.remoteHost (job : CopyJobSpec) : Text := hostnameOf job.userAtHost

/-! ## Paths -/

def basenameOf (path : Text) : Except Text Text :=
  match fileName path with
  | none => .error ("Source path \"".toList ++ path ++ "\" must contain a filename".toList)
  | some filename =>
    if filename = [] then .error ("Source path \"".toList ++ path ++ "\" must contain a filename".toList) else
      .ok filename

def joinLocal (base leaf : Text) : Text := if base = [] then leaf else push base leaf

/-! ## Jobs -/

structure CliArgs where
  paths : List FileSpec
  recurse : Bool
  preserve : Bool

def CliArgs.sourcesAndDestination (args : CliArgs) : Except Text (List FileSpec × FileSpec) :=
  match args.paths.reverse with
  | destination :: source :: sources => .ok ((source :: sources).reverse, destination)
  | _ => .error "source and destination are required".toList

/-- The one remote user there is. -/
def checkRemoteUsers : Option Text → List FileSpec → Except Text Unit
  | _, [] => .ok ()
  | remoteUser, spec :: specs =>
    match spec.remoteUser with
    | none => checkRemoteUsers remoteUser specs
    | some user =>
      match remoteUser with
      | none => checkRemoteUsers (some user) specs
      | some existing =>
        if existing = user then checkRemoteUsers (some existing) specs
        else .error "Only one remote user is supported".toList

def checkRemoteHosts (specs : List FileSpec) : Except Text Unit :=
  if (specs.filterMap FileSpec.hostname).dedup.length ≤ 1 then .ok () else
    .error "Only one remote host is supported".toList

def onlyOneRemoteSide : Text := "Only one remote side is supported".toList

/-- How destinations are joined, once the right files are remote. -/
def checkSides (sources : List FileSpec) (destination : FileSpec) : Except Text (Text → Text → Text) :=
  let remoteSources := sources.filter fun s => s.userAtHost.isSome
  if destination.userAtHost.isSome then
    if remoteSources = [] ∧ sources.all (fun s => s.userAtHost.isNone) then .ok joinRemote else .error onlyOneRemoteSide
  else if remoteSources = [] then .error "One file argument must be remote".toList
  else if sources.all (fun s => s.userAtHost.isSome) then .ok joinLocal
  else .error onlyOneRemoteSide

/-- The jobs of all sources, one after the other; one that fails for good ends it. -/
def recurseSources (tree : Path → Root) (destination : FileSpec) (preserve : Bool) :
    List FileSpec → Except Text (Bool × List CopyJobSpec)
  | [] => .ok (true, [])
  | source :: sources => do
    let (success, jobs) ← recurseLocalSource tree source destination preserve
    let (success', jobs') ← recurseSources tree destination preserve sources
    return (success && success', jobs ++ jobs')

def destFilename (joinFn : Text → Text → Text) (destination : FileSpec) (appendLeaf : Bool) (source : FileSpec) :
    Except Text Text :=
  if appendLeaf then (basenameOf source.filename).map (joinFn destination.filename) else .ok destination.filename

/-- A job for each source as it stands. -/
def plainJobs (joinFn : Text → Text → Text) (destination : FileSpec) (appendLeaf preserve : Bool) :
    List FileSpec → Except Text (List CopyJobSpec)
  | [] => .ok []
  | source :: sources => do
    let filename ← destFilename joinFn destination appendLeaf source
    let job ← CopyJobSpec.tryNew source { userAtHost := destination.userAtHost, filename } preserve false
    let jobs ← plainJobs joinFn destination appendLeaf preserve sources
    return job :: jobs

/-- Whether all went well, and the jobs. -/
def jobspecs (tree : Path → Root) (args : CliArgs) : Except Text (Bool × List CopyJobSpec) := do
  let (sources, destination) ← args.sourcesAndDestination
  let destinationIsRemote := destination.userAtHost.isSome
  checkRemoteUsers none (sources ++ [destination])
  checkRemoteHosts (sources ++ [destination])
  let joinFn ← checkSides sources destination
  if args.recurse ∧ destinationIsRemote then recurseSources tree destination args.preserve sources
  else
    -- a recursive GET appends the leaf once it has the server's listing
    let appendLeaf := 1 < sources.length ∧ (args.recurse = false ∨ destinationIsRemote)
    let jobs ← plainJobs joinFn destination appendLeaf args.preserve sources
    return (true, jobs)

/-! ## Preparing -/

structure PrepResult (α : Type) where
  remoteAddress : α
  jobSpecs : List CopyJobSpec
  fullSuccess : Bool

/-- The jobs, and where their host is, as far as the ssh configuration and the resolver know. -/
def prep {α : Type} (tree : Path → Root) (resolveHostAlias : Text → Option Text)
    (lookupHostByFamily : Text → Except Text α) (args : CliArgs) : Except Fault (PrepResult α) :=
  match jobspecs tree args with
  | .error e => .error (.error e)
  | .ok (_, []) => .error (.panic "at least one job spec is required".toList)
  | .ok (fullSuccess, job :: jobs) =>
    match lookupHostByFamily ((resolveHostAlias job.remoteHost).getD job.remoteHost) with
    | .error e => .error (.error e)
    | .ok remoteAddress => .ok { remoteAddress, jobSpecs := job :: jobs, fullSuccess }

/-! ## What the jobs of a PUT are -/

theorem checkSides_remote (sources : List FileSpec) (destination : FileSpec) (joinFn : Text → Text → Text)
    (hd : destination.userAtHost ≠ none) (h : checkSides sources destination = .ok joinFn) :
    (∀ s ∈ sources, s.userAtHost = none) ∧ joinFn = joinRemote := by
  unfold checkSides at h
  rw [if_pos (Option.isSome_iff_ne_none.2 hd)] at h
  split at h
  · rename_i hall
    cases h
    exact ⟨fun s hs => Option.isNone_iff_eq_none.1 (List.all_eq_true.1 hall.2 s hs), rfl⟩
  · cases h

theorem sourcesAndDestination_ok (sources ss : List FileSpec) (destination d : FileSpec) (recurse preserve : Bool)
    (h : CliArgs.sourcesAndDestination ⟨sources ++ [destination], recurse, preserve⟩ = .ok (ss, d)) :
    ss = sources ∧ d = destination ∧ sources ≠ [] := by
  unfold CliArgs.sourcesAndDestination at h
  rw [List.reverse_append, List.reverse_singleton, List.singleton_append] at h
  cases hs : sources.reverse with
  | nil =>
    rw [hs] at h
    cases h
  | cons s' ss' =>
    rw [hs] at h
    cases h
    rw [← hs, List.reverse_reverse]
    refine ⟨rfl, rfl, ?_⟩
    rintro rfl
    cases hs

/-- **A PUT that got through the checks** has local sources only, and each of its branches its own jobs. -/
theorem jobspecs_put (tree : Path → Root) (sources : List FileSpec) (destination : FileSpec)
    (recurse preserve success : Bool) (jobs : List CopyJobSpec) (hd : destination.userAtHost ≠ none)
    (h : jobspecs tree ⟨sources ++ [destination], recurse, preserve⟩ = .ok (success, jobs)) :
    sources ≠ [] ∧ (∀ s ∈ sources, s.userAtHost = none) ∧
      ((recurse = true ∧ recurseSources tree destination preserve sources = .ok (success, jobs)) ∨
        (recurse = false ∧ plainJobs joinRemote destination (1 < sources.length) preserve sources = .ok jobs)) := by
  unfold jobspecs at h
  obtain ⟨⟨ss, d⟩, hsd, h⟩ := (Configuration.bind_eq_ok _ _ _).1 h
  obtain ⟨rfl, rfl, hne⟩ := sourcesAndDestination_ok _ _ _ _ _ _ hsd
  obtain ⟨-, -, h⟩ := (Configuration.bind_eq_ok _ _ _).1 h
  obtain ⟨-, -, h⟩ := (Configuration.bind_eq_ok _ _ _).1 h
  obtain ⟨joinFn, hsides, h⟩ := (Configuration.bind_eq_ok _ _ _).1 h
  obtain ⟨hlocal, rfl⟩ := checkSides_remote _ _ _ hd hsides
  refine ⟨hne, hlocal, ?_⟩
  have hremote : d.userAtHost.isSome = true := Option.isSome_iff_ne_none.2 hd
  cases recurse with
  | true =>
    simp only [hremote, and_self, if_true] at h
    exact Or.inl ⟨rfl, h⟩
  | false =>
    simp only [Bool.false_eq_true, false_and, if_false] at h
    obtain ⟨js, hj, h⟩ := (Configuration.bind_eq_ok _ _ _).1 h
    cases h
    simp only [true_or, and_true] at hj
    exact Or.inr ⟨rfl, hj⟩

/-- The jobs of a source; to a bare host without that of its root. -/
def sourceJobs (tree : Path → Root) (destination : FileSpec) (preserve : Bool) (source : FileSpec) : List CopyJobSpec :=
  ((tree source.filename).nodes.filter fun x => (decide (destination.filename = [])).toNat ≤ x.names.length).map
    (nodeJob source destination preserve)

theorem recurseSources_ok (tree : Path → Root) (destination : FileSpec) (preserve : Bool) :
    ∀ (sources : List FileSpec) (success : Bool) (jobs : List CopyJobSpec), (∀ s ∈ sources, s.userAtHost = none) →
      recurseSources tree destination preserve sources = .ok (success, jobs) →
      (success = true ↔ ∀ s ∈ sources, (tree s.filename).Clean) ∧
        jobs = sources.flatMap (sourceJobs tree destination preserve)
  | [], _, _, _, h => by
    cases h
    exact ⟨iff_of_true rfl fun s hs => absurd hs List.not_mem_nil, rfl⟩
  | source :: sources, success, jobs, hl, h => by
    unfold recurseSources at h
    obtain ⟨⟨s1, jobs1⟩, h1, h⟩ := (Configuration.bind_eq_ok _ _ _).1 h
    obtain ⟨⟨s2, jobs2⟩, h2, h⟩ := (Configuration.bind_eq_ok _ _ _).1 h
    rw [List.forall_mem_cons] at hl
    obtain ⟨hs1, rfl⟩ := recurseLocalSource_ok tree source destination preserve s1 jobs1 hl.1 h1
    obtain ⟨hs2, rfl⟩ := recurseSources_ok tree destination preserve sources s2 jobs2 hl.2 h2
    cases h
    rw [Bool.and_eq_true, hs1, hs2, List.forall_mem_cons]
    exact ⟨Iff.rfl, rfl⟩

/-- The destination of a source that is not looked into. -/
def singleJob (destination : FileSpec) (appendLeaf preserve : Bool) (source : FileSpec) : CopyJobSpec where
  source := source
  destination :=
    { userAtHost := destination.userAtHost
      filename := if appendLeaf then joinRemote destination.filename ((fileName source.filename).getD [])
        else destination.filename }
  userAtHost := source.userAtHost.getD (destination.userAtHost.getD [])
  preserve := preserve
  directory := false
  mode := none

theorem basenameOf_ok (path leaf : Text) (h : basenameOf path = .ok leaf) : fileName path = some leaf := by
  unfold basenameOf at h
  cases hf : fileName path with
  | none => rw [hf] at h; cases h
  | some n =>
    rw [hf] at h
    simp only at h
    split at h <;> cases h
    rfl

theorem map_eq_ok {α β ε : Type} (x : Except ε α) (f : α → β) (b : β) (h : x.map f = .ok b) :
    ∃ a, x = .ok a ∧ f a = b := by
  cases x with
  | error e => cases h
  | ok a =>
    cases h
    exact ⟨a, rfl, rfl⟩

theorem plainJobs_ok (destination : FileSpec) (appendLeaf preserve : Bool) (hd : destination.userAtHost ≠ none) :
    ∀ (sources : List FileSpec) (jobs : List CopyJobSpec), (∀ s ∈ sources, s.userAtHost = none) →
      plainJobs joinRemote destination appendLeaf preserve sources = .ok jobs →
      (appendLeaf = true → ∀ s ∈ sources, (fileName s.filename).isSome) ∧
        jobs = sources.map (singleJob destination appendLeaf preserve)
  | [], _, _, h => by
    cases h
    exact ⟨fun _ s hs => absurd hs List.not_mem_nil, rfl⟩
  | source :: sources, jobs, hl, h => by
    unfold plainJobs at h
    obtain ⟨filename, hf, h⟩ := (Configuration.bind_eq_ok _ _ _).1 h
    rw [List.forall_mem_cons] at hl
    rw [tryNew_local source.userAtHost destination.userAtHost source.filename filename preserve false hl.1 hd] at h
    obtain ⟨job, hj, h⟩ := (Configuration.bind_eq_ok _ _ _).1 h
    obtain ⟨rest, hrest, h⟩ := (Configuration.bind_eq_ok _ _ _).1 h
    cases hj
    obtain ⟨hnames, rfl⟩ := plainJobs_ok destination appendLeaf preserve hd sources rest hl.2 hrest
    cases h
    cases appendLeaf with
    | false =>
      cases hf
      exact ⟨nofun, rfl⟩
    | true =>
      unfold destFilename at hf
      obtain ⟨leaf, hb, rfl⟩ := map_eq_ok _ _ _ hf
      have hleaf := basenameOf_ok _ _ hb
      refine ⟨fun _ => List.forall_mem_cons.2 ⟨Option.isSome_of_eq_some hleaf, hnames rfl⟩, ?_⟩
      simp [singleJob, hleaf]

/-- **`prep` falls over exactly when there is no job.** -/
theorem prep_panics_iff {α : Type} (tree : Path → Root) (resolveHostAlias : Text → Option Text)
    (lookupHostByFamily : Text → Except Text α) (args : CliArgs) :
    (∃ message, prep tree resolveHostAlias lookupHostByFamily args = .error (.panic message)) ↔
      ∃ success, jobspecs tree args = .ok (success, []) := by
  unfold prep
  cases jobspecs tree args with
  | error e => simp
  | ok r =>
    obtain ⟨success, _ | ⟨job, jobs⟩⟩ := r
    · simp
    · simp only
      split <;> simp

end Qcp
