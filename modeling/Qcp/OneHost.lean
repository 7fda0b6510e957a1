import Qcp.Jobspecs
/-!
# OneHost — the one remote side of a command line

The paths are scanned twice: `remoteHostLossy` looks for a host before there is a configuration, `jobspecs` makes the
jobs.  `jobspecs_coherent` says that what passes the second scan passes the first, and that every job is with the host
found.
-/
namespace Qcp

open Bare (Text)
open Posix (Path)
open Walkdir (Root)

/-! ## Agreement -/

section

variable {α : Type}

/-- Nothing in the list differs from anything else in it. -/
def Agreed (l : List α) : Prop := ∀ a ∈ l, ∀ b ∈ l, a = b

theorem Agreed.of_subset {l m : List α} (h : Agreed m) (hs : l ⊆ m) : Agreed l :=
  fun a ha b hb => h a (hs ha) b (hs hb)

theorem Agreed.eq_of_head? {l : List α} (h : Agreed l) {a b : α} (hb : b ∈ l) (ha : l.head? = some a) : b = a :=
  h b hb a (List.mem_of_mem_head? ha)

/-- What a set of the members shows. -/
theorem agreed_iff_dedup [DecidableEq α] (l : List α) : Agreed l ↔ l.dedup.length ≤ 1 := by
  rw [← List.card_toFinset, Finset.card_le_one]
  simp only [List.mem_toFinset]
  exact Iff.rfl

end

/-! ## The host before the jobs -/

/-- What a scan has found so far. -/
structure HostScan where
  host : Option Text
  remoteInSources : Bool
  remoteInDestination : Bool

/-- A path at an index; the destination is at the last one. -/
def scanHost (last idx : Nat) (scan : HostScan) (spec : FileSpec) : Except Text HostScan :=
  match spec.hostname with
  | none => .ok scan
  | some h =>
    let seen (host : Text) : HostScan :=
      if idx = last then { scan with host := some host, remoteInDestination := true }
      else { scan with host := some host, remoteInSources := true }
    match scan.host with
    | none => .ok (seen h)
    | some existing => if existing = h then .ok (seen existing) else .error "Only one remote host is supported".toList

def scanHosts (last : Nat) : Nat → HostScan → List FileSpec → Except Text HostScan
  | _, scan, [] => .ok scan
  | idx, scan, spec :: specs => do
    let scan ← scanHost last idx scan spec
    scanHosts last (idx + 1) scan specs

/-- The host of the command line as far as it has one. -/
def CliArgs.remoteHostLossy (args : CliArgs) : Except Text (Option Text) :=
  if args.paths.isEmpty then .ok none
  else do
    let scan ← scanHosts (args.paths.length - 1) 0 ⟨none, false, false⟩ args.paths
    if scan.remoteInSources ∧ scan.remoteInDestination then .error onlyOneRemoteSide else return scan.host

def CopyJobSpec.direction (job : CopyJobSpec) : Direction :=
  if job.source.userAtHost.isSome then .serverToClient else .clientToServer

/-! ## What the first scan finds -/

/-- The hosts named. -/
def hostsOf (specs : List FileSpec) : List Text := specs.filterMap FileSpec.hostname

theorem hostsOf_cons (spec : FileSpec) (specs : List FileSpec) :
    hostsOf (spec :: specs) = spec.hostname.toList ++ hostsOf specs := by
  unfold hostsOf
  cases h : spec.hostname with
  | none => rw [List.filterMap_cons_none h]; rfl
  | some u => rw [List.filterMap_cons_some h]; rfl

/-- **One step**: a host that agrees with the one found is found on its side. -/
theorem scanHost_agreed (last idx : Nat) (scan : HostScan) (spec : FileSpec)
    (h : Agreed (scan.host.toList ++ spec.hostname.toList)) :
    scanHost last idx scan spec = .ok
      { host := scan.host.or spec.hostname
        remoteInSources := scan.remoteInSources || (spec.hostname.isSome && decide (idx ≠ last))
        remoteInDestination := scan.remoteInDestination || (spec.hostname.isSome && decide (idx = last)) } := by
  obtain ⟨host, s, d⟩ := scan
  unfold scanHost
  cases hh : spec.hostname with
  | none => simp
  | some u =>
    cases host with
    | none => by_cases hi : idx = last <;> simp [hi]
    | some existing =>
      have he : existing = u := h existing (by simp) u (by simp [hh])
      by_cases hi : idx = last <;> simp [hi, he]

/-- **A run over what is in front of the destination.** -/
theorem scanHosts_agreed (last : Nat) : ∀ (specs : List FileSpec) (idx : Nat) (scan : HostScan),
    idx + specs.length ≤ last → Agreed (scan.host.toList ++ hostsOf specs) →
    scanHosts last idx scan specs = .ok
      { host := scan.host.or (hostsOf specs).head?
        remoteInSources := scan.remoteInSources || specs.any fun s => s.hostname.isSome
        remoteInDestination := scan.remoteInDestination }
  | [], _, scan, _, _ => by simp [scanHosts, hostsOf]
  | spec :: specs, idx, scan, hlen, h => by
    rw [List.length_cons] at hlen
    rw [hostsOf_cons] at h
    have hidx : idx ≠ last := by omega
    have hstep := scanHost_agreed last idx scan spec (h.of_subset (by intro a ha; simp at ha ⊢; tauto))
    have hrest : Agreed ((scan.host.or spec.hostname).toList ++ hostsOf specs) := by
      apply h.of_subset
      intro a ha
      cases hs : scan.host with
      | none => simpa [hs] using ha
      | some existing =>
        simp [hs] at ha ⊢
        tauto
    rw [scanHosts, hstep]
    show scanHosts last (idx + 1) _ specs = _
    rw [scanHosts_agreed last specs (idx + 1) _ (by omega) hrest, hostsOf_cons]
    cases hs : scan.host <;> cases hh : spec.hostname <;> simp [hh, hidx]

theorem scanHosts_append (last : Nat) : ∀ (specs rest : List FileSpec) (idx : Nat) (scan : HostScan),
    scanHosts last idx scan (specs ++ rest) =
      scanHosts last idx scan specs >>= fun scan => scanHosts last (idx + specs.length) scan rest
  | [], _, _, _ => rfl
  | spec :: specs, rest, idx, scan => by
    rw [List.cons_append, scanHosts, scanHosts]
    cases scanHost last idx scan spec with
    | error e => rfl
    | ok s =>
      show scanHosts last (idx + 1) s (specs ++ rest) = (scanHosts last (idx + 1) s specs >>= _)
      rw [scanHosts_append last specs rest (idx + 1) s, List.length_cons, Nat.add_comm specs.length 1, Nat.add_assoc]

theorem hostsOf_append (specs rest : List FileSpec) : hostsOf (specs ++ rest) = hostsOf specs ++ hostsOf rest :=
  List.filterMap_append

/-- **The first scan finds the host** of paths that agree on it, if they are not remote on both sides. -/
theorem remoteHostLossy_agreed (args : CliArgs) (sources : List FileSpec) (destination : FileSpec)
    (hpaths : args.paths = sources ++ [destination]) (hagreed : Agreed (hostsOf args.paths))
    (hsides : (∀ s ∈ sources, s.userAtHost = none) ∨ destination.userAtHost = none) :
    args.remoteHostLossy = .ok (hostsOf args.paths).head? := by
  have hlast : args.paths.length - 1 = sources.length := by simp [hpaths]
  have hhosts : hostsOf args.paths = hostsOf sources ++ destination.hostname.toList := by
    rw [hpaths, hostsOf_append, hostsOf_cons]
    exact congrArg _ (List.append_nil _)
  rw [hhosts] at hagreed
  have hsources : Agreed (hostsOf sources) := hagreed.of_subset (List.subset_append_left _ _)
  have hdest : Agreed ((none.or (hostsOf sources).head?).toList ++ destination.hostname.toList) := by
    apply hagreed.of_subset
    cases hostsOf sources <;> simp
  have hone : ¬ ((sources.any fun s => s.hostname.isSome) = true ∧ destination.hostname.isSome = true) := by
    rintro ⟨h1, h2⟩
    rcases hsides with hl | hd
    · obtain ⟨s, hs, hsome⟩ := List.any_eq_true.1 h1
      simp [FileSpec.hostname, hl s hs] at hsome
    · simp [FileSpec.hostname, hd] at h2
  have hfirst := scanHosts_agreed sources.length sources 0 ⟨none, false, false⟩ (by omega) hsources
  unfold CliArgs.remoteHostLossy
  rw [if_neg (by simp [hpaths]), hlast, hhosts, hpaths, scanHosts_append, hfirst]
  show (scanHosts sources.length (0 + sources.length) _ [destination] >>= _) = _
  rw [scanHosts, Nat.zero_add, scanHost_agreed _ _ _ _ hdest]
  show (if _ then _ else _) = _
  rw [if_neg (by simpa using hone)]
  show Except.ok _ = Except.ok _
  cases hostsOf sources <;> simp

/-! ## What the second scan checks -/

/-- The users named. -/
def usersOf (specs : List FileSpec) : List Text := specs.filterMap FileSpec.remoteUser

theorem checkRemoteUsers_ok : ∀ (specs : List FileSpec) (remoteUser : Option Text),
    checkRemoteUsers remoteUser specs = .ok () → Agreed (remoteUser.toList ++ usersOf specs)
  | [], none, _ => by simp [Agreed, usersOf]
  | [], some u, _ => by simp [Agreed, usersOf]
  | spec :: specs, remoteUser, h => by
    unfold checkRemoteUsers at h
    cases hu : spec.remoteUser with
    | none =>
      simp only [hu] at h
      have hrest : usersOf (spec :: specs) = usersOf specs := List.filterMap_cons_none hu
      rw [hrest]
      exact checkRemoteUsers_ok specs remoteUser h
    | some user =>
      have hrest : usersOf (spec :: specs) = user :: usersOf specs := List.filterMap_cons_some hu
      rw [hrest]
      simp only [hu] at h
      cases remoteUser with
      | none => exact checkRemoteUsers_ok specs (some user) h
      | some existing =>
        simp only at h
        by_cases he : existing = user
        · subst he
          rw [if_pos rfl] at h
          apply (checkRemoteUsers_ok specs (some existing) h).of_subset
          intro a ha
          simpa using ha
        · rw [if_neg he] at h
          cases h

theorem checkRemoteHosts_ok (specs : List FileSpec) (h : checkRemoteHosts specs = .ok ()) : Agreed (hostsOf specs) := by
  unfold checkRemoteHosts at h
  split at h
  · rename_i hlen
    exact (agreed_iff_dedup _).2 hlen
  · cases h

/-- The right files are remote: the destination, or all the sources, of which there is one. -/
theorem checkSides_ok (sources : List FileSpec) (destination : FileSpec) (joinFn : Text → Text → Text)
    (h : checkSides sources destination = .ok joinFn) :
    (destination.userAtHost ≠ none ∧ ∀ s ∈ sources, s.userAtHost = none) ∨
      (destination.userAtHost = none ∧ sources ≠ [] ∧ ∀ s ∈ sources, s.userAtHost ≠ none) := by
  by_cases hd : destination.userAtHost = none
  · right
    unfold checkSides at h
    rw [if_neg (by simp [hd])] at h
    split at h
    · cases h
    rename_i hne
    split at h
    · rename_i hall
      refine ⟨hd, ?_, fun s hs => Option.isSome_iff_ne_none.1 (List.all_eq_true.1 hall s hs)⟩
      rintro rfl
      exact hne rfl
    · cases h
  · left
    exact ⟨hd, (checkSides_remote sources destination joinFn hd h).1⟩

theorem sourcesAndDestination_paths (args : CliArgs) (sources : List FileSpec) (destination : FileSpec)
    (h : args.sourcesAndDestination = .ok (sources, destination)) : args.paths = sources ++ [destination] := by
  unfold CliArgs.sourcesAndDestination at h
  split at h
  · rename_i hr
    cases h
    rw [← List.reverse_reverse args.paths, hr, List.reverse_cons]
  · cases h

/-! ## The jobs -/

/-- A job of sources and of a destination is remote where they are. -/
structure CopyJobSpec.Between (sources : List FileSpec) (destination : FileSpec) (job : CopyJobSpec) : Prop where
  source : ∃ s ∈ sources, job.source.userAtHost = s.userAtHost
  destination : job.destination.userAtHost = destination.userAtHost
  userAtHost : job.userAtHost = job.source.userAtHost.getD (job.destination.userAtHost.getD [])

theorem CopyJobSpec.Between.mono {sources sources' : List FileSpec} {destination : FileSpec} {job : CopyJobSpec}
    (h : job.Between sources destination) (hs : sources ⊆ sources') : job.Between sources' destination := by
  obtain ⟨⟨s, hmem, hsrc⟩, hdest, huser⟩ := h
  exact ⟨⟨s, hs hmem, hsrc⟩, hdest, huser⟩

theorem tryNew_ok (source destination : FileSpec) (preserve directory : Bool) (job : CopyJobSpec)
    (h : CopyJobSpec.tryNew source destination preserve directory = .ok job) :
    job.source = source ∧ job.destination = destination ∧
      job.userAtHost = source.userAtHost.getD (destination.userAtHost.getD []) := by
  unfold CopyJobSpec.tryNew at h
  split at h
  · cases h
  · cases h
    exact ⟨rfl, rfl, rfl⟩

/-- **Without a walk there is a job for each source, in their order.** -/
theorem plainJobs_sources (joinFn : Text → Text → Text) (destination : FileSpec) (appendLeaf preserve : Bool) :
    ∀ (sources : List FileSpec) (jobs : List CopyJobSpec),
      plainJobs joinFn destination appendLeaf preserve sources = .ok jobs →
      jobs.map CopyJobSpec.source = sources ∧ ∀ job ∈ jobs, job.Between sources destination
  | [], _, h => by
    cases h
    exact ⟨rfl, fun job hjob => absurd hjob List.not_mem_nil⟩
  | source :: sources, jobs, h => by
    unfold plainJobs at h
    obtain ⟨filename, -, h⟩ := (Configuration.bind_eq_ok _ _ _).1 h
    obtain ⟨job, hjob, h⟩ := (Configuration.bind_eq_ok _ _ _).1 h
    obtain ⟨rest, hrest, h⟩ := (Configuration.bind_eq_ok _ _ _).1 h
    cases h
    obtain ⟨hsource, hdest, huser⟩ := tryNew_ok _ _ _ _ _ hjob
    obtain ⟨hmap, hall⟩ := plainJobs_sources joinFn destination appendLeaf preserve sources rest hrest
    constructor
    · rw [List.map_cons, hsource, hmap]
    · intro j hj
      rcases List.mem_cons.1 hj with rfl | hj
      · exact ⟨⟨source, List.mem_cons_self, by rw [hsource]⟩, by rw [hdest], by rw [huser, hsource, hdest]⟩
      · exact (hall j hj).mono (List.subset_cons_self _ _)

theorem recurseSources_between (tree : Path → Root) (sources : List FileSpec) (destination : FileSpec)
    (preserve success : Bool) (jobs : List CopyJobSpec) (hlocal : ∀ s ∈ sources, s.userAtHost = none)
    (h : recurseSources tree destination preserve sources = .ok (success, jobs)) :
    ∀ job ∈ jobs, job.Between sources destination := by
  obtain ⟨-, rfl⟩ := recurseSources_ok tree destination preserve sources success jobs hlocal h
  intro job hjob
  obtain ⟨s, hs, hjob⟩ := List.mem_flatMap.1 hjob
  obtain ⟨x, -, rfl⟩ := List.mem_map.1 hjob
  exact ⟨⟨s, hs, rfl⟩, rfl, rfl⟩

/-- **What `jobspecs` has checked**, and where its jobs run. -/
structure Checked (args : CliArgs) (sources : List FileSpec) (destination : FileSpec) (jobs : List CopyJobSpec) :
    Prop where
  paths : args.paths = sources ++ [destination]
  users : Agreed (usersOf args.paths)
  hosts : Agreed (hostsOf args.paths)
  sides : (destination.userAtHost ≠ none ∧ ∀ s ∈ sources, s.userAtHost = none) ∨
    (destination.userAtHost = none ∧ sources ≠ [] ∧ ∀ s ∈ sources, s.userAtHost ≠ none)
  between : ∀ job ∈ jobs, job.Between sources destination
  single : ¬ (args.recurse = true ∧ destination.userAtHost ≠ none) → jobs.map CopyJobSpec.source = sources

theorem checked_of_jobspecs (tree : Path → Root) (args : CliArgs) (success : Bool) (jobs : List CopyJobSpec)
    (h : jobspecs tree args = .ok (success, jobs)) : ∃ sources destination, Checked args sources destination jobs := by
  unfold jobspecs at h
  obtain ⟨⟨sources, destination⟩, hsd, h⟩ := (Configuration.bind_eq_ok _ _ _).1 h
  obtain ⟨⟨⟩, husers, h⟩ := (Configuration.bind_eq_ok _ _ _).1 h
  obtain ⟨⟨⟩, hhosts, h⟩ := (Configuration.bind_eq_ok _ _ _).1 h
  obtain ⟨joinFn, hsides, h⟩ := (Configuration.bind_eq_ok _ _ _).1 h
  have hpaths := sourcesAndDestination_paths args sources destination hsd
  have hside := checkSides_ok sources destination joinFn hsides
  have hagreed := checkRemoteUsers_ok _ _ husers
  rw [← hpaths] at hhosts hagreed
  by_cases hr : args.recurse = true ∧ destination.userAtHost.isSome = true
  · rw [if_pos hr] at h
    have hremote := Option.isSome_iff_ne_none.1 hr.2
    have hlocal := (hside.resolve_right fun hd => hremote hd.1).2
    exact ⟨sources, destination, hpaths, hagreed, checkRemoteHosts_ok _ hhosts, hside,
      recurseSources_between tree sources destination args.preserve success jobs hlocal h,
      fun hn => absurd ⟨hr.1, hremote⟩ hn⟩
  · rw [if_neg hr] at h
    obtain ⟨js, hjobs, h⟩ := (Configuration.bind_eq_ok _ _ _).1 h
    cases h
    obtain ⟨hmap, hbetween⟩ := plainJobs_sources _ _ _ _ _ _ hjobs
    exact ⟨sources, destination, hpaths, hagreed, checkRemoteHosts_ok _ hhosts, hside, hbetween, fun _ => hmap⟩

/-! ## Coherence -/

/-- A job with exactly one remote side, the host of which this is. -/
structure CopyJobSpec.With (host : Text) (direction : Direction) (job : CopyJobSpec) : Prop where
  oneRemote : job.source.userAtHost.isSome = !job.destination.userAtHost.isSome
  remoteHost : job.remoteHost = host
  direction : job.direction = direction

theorem mem_hostsOf {specs : List FileSpec} {s : FileSpec} {u : Text} (hs : s ∈ specs) (hu : s.userAtHost = some u) :
    hostnameOf u ∈ hostsOf specs := by
  apply List.mem_filterMap.2
  exact ⟨s, hs, by rw [FileSpec.hostname, hu]; rfl⟩

namespace Checked

variable {args : CliArgs} {sources : List FileSpec} {destination : FileSpec} {jobs : List CopyJobSpec}

/-- A remote path is there to have a host. -/
theorem hosts_ne_nil (h : Checked args sources destination jobs) : hostsOf args.paths ≠ [] := by
  rw [h.paths]
  rcases h.sides with ⟨hd, -⟩ | ⟨-, hne, hall⟩
  · obtain ⟨u, hu⟩ := Option.ne_none_iff_exists'.1 hd
    exact List.ne_nil_of_mem (mem_hostsOf (List.mem_append_right _ (List.mem_singleton_self _)) hu)
  · obtain ⟨s, hs⟩ := List.exists_mem_of_ne_nil _ hne
    obtain ⟨u, hu⟩ := Option.ne_none_iff_exists'.1 (hall s hs)
    exact List.ne_nil_of_mem (mem_hostsOf (List.mem_append_left _ hs) hu)

/-- **The host of the first scan is that of every job.** -/
theorem with_host (h : Checked args sources destination jobs) (host : Text)
    (hhead : (hostsOf args.paths).head? = some host) :
    ∃ direction, ∀ job ∈ jobs, job.With host direction := by
  have hhost : ∀ s ∈ args.paths, ∀ u, s.userAtHost = some u → hostnameOf u = host := fun s hs u hu =>
    h.hosts.eq_of_head? (mem_hostsOf hs hu) hhead
  rw [h.paths] at hhost
  rcases h.sides with ⟨hd, hlocal⟩ | ⟨hd, -, hremote⟩
  · refine ⟨.clientToServer, fun job hjob => ?_⟩
    obtain ⟨⟨s, hs, hsrc⟩, hdest, huser⟩ := h.between job hjob
    rw [hlocal s hs] at hsrc
    obtain ⟨u, hu⟩ := Option.ne_none_iff_exists'.1 hd
    rw [hu] at hdest
    constructor
    · simp [hsrc, hdest]
    · unfold CopyJobSpec.remoteHost
      rw [huser, hsrc, hdest]
      exact hhost destination (List.mem_append_right _ (List.mem_singleton_self _)) u hu
    · simp [CopyJobSpec.direction, hsrc]
  · refine ⟨.serverToClient, fun job hjob => ?_⟩
    obtain ⟨⟨s, hs, hsrc⟩, hdest, huser⟩ := h.between job hjob
    obtain ⟨u, hu⟩ := Option.ne_none_iff_exists'.1 (hremote s hs)
    rw [hu] at hsrc
    rw [hd] at hdest
    constructor
    · simp [hsrc, hdest]
    · unfold CopyJobSpec.remoteHost
      rw [huser, hsrc]
      exact hhost s (List.mem_append_left _ hs) u hu
    · simp [CopyJobSpec.direction, hsrc]

end Checked

/-- **What has jobs has one remote host**, which the first scan finds and every job is with; the users named are one,
and without a walk the jobs are those of the sources, one each. -/
theorem jobspecs_coherent (tree : Path → Root) (args : CliArgs) (success : Bool) (jobs : List CopyJobSpec)
    (h : jobspecs tree args = .ok (success, jobs)) :
    ∃ host direction, args.remoteHostLossy = .ok (some host) ∧ (∀ job ∈ jobs, job.With host direction) ∧
      Agreed (usersOf args.paths) ∧ ∀ sources destination, args.paths = sources ++ [destination] →
        ¬ (args.recurse = true ∧ destination.userAtHost ≠ none) → jobs.map CopyJobSpec.source = sources := by
  obtain ⟨sources, destination, hc⟩ := checked_of_jobspecs tree args success jobs h
  obtain ⟨host, hhead⟩ : ∃ host, (hostsOf args.paths).head? = some host := by
    apply Option.isSome_iff_exists.1
    rw [List.isSome_head?]
    simpa using hc.hosts_ne_nil
  obtain ⟨direction, hwith⟩ := hc.with_host host hhead
  have hlossy := remoteHostLossy_agreed args sources destination hc.paths hc.hosts
    (hc.sides.imp And.right And.left)
  rw [hhead] at hlossy
  refine ⟨host, direction, hlossy, hwith, hc.users, fun ss d hpaths hsingle => ?_⟩
  obtain ⟨rfl, rfl⟩ := List.append_singleton_inj.1 (hc.paths.symm.trans hpaths)
  exact hc.single hsingle

/-- Two files to a host, with the user. -/
def twoFiles : CliArgs := ⟨[⟨none, "a".toList⟩, ⟨none, "b".toList⟩, ⟨some "me@there".toList, []⟩], false, false⟩

theorem jobspecs_coherent_put : ∃ jobs : List CopyJobSpec, jobspecs (fun _ => .leaf true) twoFiles = .ok (true, jobs) ∧
    ∃ host direction, twoFiles.remoteHostLossy = .ok (some host) ∧ (∀ job ∈ jobs, job.With host direction) ∧
      Agreed (usersOf twoFiles.paths) ∧ ∀ sources destination, twoFiles.paths = sources ++ [destination] →
        ¬ (twoFiles.recurse = true ∧ destination.userAtHost ≠ none) → jobs.map CopyJobSpec.source = sources :=
  ⟨_, rfl, jobspecs_coherent (fun _ => .leaf true) twoFiles true _ rfl⟩

end Qcp
