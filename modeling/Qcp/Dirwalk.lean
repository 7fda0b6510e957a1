import Qcp.SessionMsg
import Qcp.Config
import Qcp.Walkdir
/-!
# Dirwalk — the jobs of a recursive PUT

`recurseLocalSource` walks a local source and makes a job of each entry.  `recurseLocalSource_ok` says which jobs these
are; where a job goes is put together as text, and `destination_eq_iff` says when two texts are the same.
-/
namespace Qcp

open Bare (Text)
open Posix (Path Name Plain sep endsWithSep withSep components extend)
open Walkdir (Root found)

/-! ## Joining and taking apart -/

/-- A remote path, whatever separates paths here. -/
def joinRemote (base leaf : Text) : Text :=
  if base = [] then leaf else if endsWithSep base then base ++ leaf else base ++ [sep] ++ leaf

/-- The last part of a source that is not empty. -/
def sourceDir (source : Text) : Option Text := (source.splitOn sep).reverse.find? fun d => d ≠ []

/-- What a source goes into: in a directory, one more directory of its name. -/
def destStem (source destination : Text) : Text :=
  if endsWithSep destination then destination ++ (sourceDir source).getD [] else destination

/-- The standard constructor. -/
def CopyJobSpec.tryNew (source destination : FileSpec) (preserve directory : Bool) : Except Text CopyJobSpec :=
  if source.userAtHost.isNone = destination.userAtHost.isNone then .error "One file argument must be remote".toList
  else .ok
    { source, destination, preserve, directory
      userAtHost := source.userAtHost.getD (destination.userAtHost.getD [])
      mode := none }

/-! ## Walking a source -/

/-- The path relative to the root of the walk, if it is text. -/
def leafOfEntry (separator : Text) (entry : Walkdir.DirEntry) : Option Text :=
  entry.path.map fun path => separator.intercalate ((components path).drop ((components path).length - entry.depth))

/-- The entries with what is to be appended for each; what cannot be had for want of permission is left out. -/
def collectEntries (separator : Text) :
    List (Except Walkdir.Error Walkdir.DirEntry) → Except Text (Bool × List (Walkdir.DirEntry × Text))
  | [] => .ok (true, [])
  | .ok entry :: items => do
    let (success, output) ← collectEntries separator items
    match leafOfEntry separator entry with
    | some leaf => return (success, (entry, leaf) :: output)
    | none => return (false, output)
  | .error e :: items =>
    if e.permissionDenied then do
      let (_, output) ← collectEntries separator items
      return (false, output)
    else .error e.text

def contentsOf (tree : Path → Root) (path : Path) (skipRoot : Bool) (separator : Text) :
    Except Text (Bool × List (Walkdir.DirEntry × Text)) :=
  collectEntries separator ((tree path).walkDir path skipRoot.toNat)

/-- A job for each entry. -/
def entryJobs (source destination : FileSpec) (stem : Text) (preserve : Bool) :
    List (Walkdir.DirEntry × Text) → Except Text (Bool × List CopyJobSpec)
  | [] => .ok (true, [])
  | (entry, leaf) :: listing =>
    match entry.path with
    | none => do
      let (_, jobs) ← entryJobs source destination stem preserve listing
      return (false, jobs)
    | some src => do
      let job ← CopyJobSpec.tryNew { userAtHost := source.userAtHost, filename := src }
        { userAtHost := destination.userAtHost, filename := joinRemote stem leaf } preserve entry.isDir
      let (success, jobs) ← entryJobs source destination stem preserve listing
      return (success, job :: jobs)

/-- Whether all went well, and the jobs of a source. -/
def recurseLocalSource (tree : Path → Root) (source destination : FileSpec) (preserve : Bool) :
    Except Text (Bool × List CopyJobSpec) :=
  if destination.userAtHost = none then .error "destination must be remote".toList
  else do
    let bareHost := destination.filename = []
    let (success, listing) ← contentsOf tree source.filename bareHost [sep]
    let (success', jobs) ← entryJobs source destination (destStem source.filename destination.filename) preserve listing
    return (success && success', jobs)

/-! ## What jobs these are -/

/-- The job of what names lead to, from a source. -/
def nodeJob (source destination : FileSpec) (preserve : Bool) (x : Walkdir.Node) : CopyJobSpec where
  source := { userAtHost := source.userAtHost, filename := extend source.filename x.names }
  destination :=
    { userAtHost := destination.userAtHost
      filename := joinRemote (destStem source.filename destination.filename) ([sep].intercalate x.names) }
  userAtHost := source.userAtHost.getD (destination.userAtHost.getD [])
  preserve := preserve
  directory := x.kind = .directory
  mode := none

theorem leafOfEntry_entry (p : Path) (x : Walkdir.Node) (h : ∀ n ∈ x.names, Plain n) :
    leafOfEntry [sep] (x.entry p 0) = some ([sep].intercalate x.names) := by
  show some ([sep].intercalate ((components (extend p x.names)).drop
    ((components (extend p x.names)).length - (0 + x.names.length)))) = _
  rw [Posix.components_extend p x.names h, List.length_append, Nat.zero_add, Nat.add_sub_cancel, List.drop_left]

theorem collectEntries_ok (separator : Text) : ∀ (items : List (Except Walkdir.Error Walkdir.DirEntry)) (success : Bool)
    (output : List (Walkdir.DirEntry × Text)), collectEntries separator items = .ok (success, output) →
    (success = true ↔ ∀ i ∈ items, (found i).isSome) ∧
      output = (items.filterMap found).map fun entry => (entry, (leafOfEntry separator entry).getD [])
  | [], _, _, h => by
    cases h
    exact ⟨iff_of_true rfl fun i hi => absurd hi List.not_mem_nil, rfl⟩
  | .ok entry :: items, success, output, h => by
    unfold collectEntries at h
    obtain ⟨⟨s, out⟩, hrec, h⟩ := (Configuration.bind_eq_ok _ _ _).1 h
    obtain ⟨hs, rfl⟩ := collectEntries_ok separator items s out hrec
    cases hp : entry.path with
    | none =>
      have hl : leafOfEntry separator entry = none := by rw [leafOfEntry, hp]; rfl
      simp only [hl] at h
      cases h
      simp [found, hp]
    | some p =>
      obtain ⟨leaf, hl⟩ : ∃ leaf, leafOfEntry separator entry = some leaf := by rw [leafOfEntry, hp]; exact ⟨_, rfl⟩
      simp only [hl] at h
      cases h
      simp [found, hp, hl, hs]
  | .error e :: items, success, output, h => by
    unfold collectEntries at h
    split at h
    · obtain ⟨⟨s, out⟩, hrec, h⟩ := (Configuration.bind_eq_ok _ _ _).1 h
      obtain ⟨-, rfl⟩ := collectEntries_ok separator items s out hrec
      cases h
      exact ⟨by simp [found], rfl⟩
    · cases h

/-- **What a walk gives**: the nodes, with their names as text, and success if nothing was in the way. -/
theorem contentsOf_ok (tree : Path → Root) (path : Path) (skipRoot success : Bool)
    (output : List (Walkdir.DirEntry × Text)) (h : contentsOf tree path skipRoot [sep] = .ok (success, output)) :
    (success = true ↔ (tree path).Clean) ∧ output = (((tree path).nodes.filter
      fun x => skipRoot.toNat ≤ x.names.length).map fun x => (x.entry path 0, [sep].intercalate x.names)) := by
  obtain ⟨hs, rfl⟩ := collectEntries_ok [sep] _ _ _ h
  refine ⟨hs.trans ((tree path).walkDir_clean path _ skipRoot.toNat_le), ?_⟩
  rw [Root.walkDir_found, List.map_map]
  refine List.map_congr_left fun x hx => ?_
  show (_, (leafOfEntry [sep] (x.entry path 0)).getD []) = _
  rw [leafOfEntry_entry path x ((tree path).plain_of_mem_nodes x (List.mem_of_mem_filter hx))]
  rfl

theorem tryNew_local (local_ remote : Option Text) (f g : Text) (preserve directory : Bool) (hl : local_ = none)
    (hr : remote ≠ none) : CopyJobSpec.tryNew ⟨local_, f⟩ ⟨remote, g⟩ preserve directory =
      .ok ⟨⟨local_, f⟩, ⟨remote, g⟩, local_.getD (remote.getD []), preserve, directory, none⟩ := by
  subst hl
  cases remote with
  | none => exact absurd rfl hr
  | some u => rfl

theorem entryJobs_eq (source destination : FileSpec) (preserve : Bool) (hs : source.userAtHost = none)
    (hd : destination.userAtHost ≠ none) : ∀ xs : List Walkdir.Node,
    entryJobs source destination (destStem source.filename destination.filename) preserve
      (xs.map fun x => (x.entry source.filename 0, [sep].intercalate x.names)) =
        .ok (true, xs.map (nodeJob source destination preserve))
  | [] => rfl
  | x :: xs => by
    rw [List.map_cons, entryJobs]
    simp only [Walkdir.Node.entry]
    have ih := entryJobs_eq source destination preserve hs hd xs
    simp only [Walkdir.Node.entry] at ih
    rw [tryNew_local _ _ _ _ _ _ hs hd, ih]
    rfl

/-- **The jobs of a source** are those of its nodes, without its root if that has no name to go by. -/
theorem recurseLocalSource_ok (tree : Path → Root) (source destination : FileSpec) (preserve success : Bool)
    (jobs : List CopyJobSpec) (hs : source.userAtHost = none)
    (h : recurseLocalSource tree source destination preserve = .ok (success, jobs)) :
    (success = true ↔ (tree source.filename).Clean) ∧ jobs = ((tree source.filename).nodes.filter
      fun x => (decide (destination.filename = [])).toNat ≤ x.names.length).map
      (nodeJob source destination preserve) := by
  unfold recurseLocalSource at h
  split at h
  · cases h
  · rename_i hd
    obtain ⟨⟨s, listing⟩, hc, h⟩ := (Configuration.bind_eq_ok _ _ _).1 h
    obtain ⟨hsuccess, rfl⟩ := contentsOf_ok tree _ _ _ _ hc
    simp only [entryJobs_eq source destination preserve hs hd] at h
    cases h
    rw [Bool.and_true]
    exact ⟨hsuccess, rfl⟩

/-! ## Where they go -/

/-- The names put in for a source: that of its own directory, if the destination is to hold it. -/
def inserted (source destination : Text) : List Name :=
  if endsWithSep destination then (sourceDir source).toList else []

/-- The names of an entry, as they show in a text: none show as an empty one. -/
def shown (ns : List Name) : List Name := if ns = [] then [[]] else ns

theorem shown_ne_nil (ns : List Name) : shown ns ≠ [] := by
  unfold shown
  split
  · exact List.cons_ne_nil _ _
  · assumption

theorem intercalate_shown (ns : List Name) : [sep].intercalate (shown ns) = [sep].intercalate ns := by
  unfold shown
  split
  · rename_i h
    rw [h]
    rfl
  · rfl

theorem sep_not_mem_sourceDir (source d : Text) (h : sourceDir source = some d) : sep ∉ d ∧ d ≠ [] := by
  refine ⟨Posix.sep_not_mem_of_mem_splitOn source d (List.mem_reverse.1 (List.mem_of_find?_eq_some h)), ?_⟩
  simpa using List.find?_some h

theorem sep_not_mem_inserted (source destination : Text) : ∀ n ∈ inserted source destination, sep ∉ n := by
  intro n hn
  unfold inserted at hn
  split at hn
  · exact (sep_not_mem_sourceDir source n (Option.mem_toList.1 hn)).1
  · cases hn

/-- **The text of a destination**: the destination given, and the names put to its end. -/
theorem joinRemote_destStem (source destination : Text) (ns : List Name) :
    joinRemote (destStem source destination) ([sep].intercalate ns) =
      withSep destination ++ [sep].intercalate (inserted source destination ++ shown ns) := by
  unfold destStem inserted
  cases he : endsWithSep destination with
  | false =>
    by_cases hd : destination = []
    · subst hd
      exact (intercalate_shown ns).symm
    · simp [joinRemote, withSep, hd, he, intercalate_shown]
  | true =>
    have hd : destination ≠ [] := by
      rintro rfl
      cases he
    have hw : withSep destination = destination := by simp [withSep, he]
    simp only [if_true, hw]
    cases hs : sourceDir source with
    | none => simp [joinRemote, hd, he, intercalate_shown]
    | some d =>
      obtain ⟨hsep, hne⟩ := sep_not_mem_sourceDir source d hs
      have hend := Posix.endsWithSep_append destination d hne hsep
      have happ : [sep].intercalate (d :: shown ns) = d ++ [sep] ++ [sep].intercalate ns := by
        rw [List.intercalate_cons_of_ne_nil (shown_ne_nil ns), intercalate_shown]
      simp [joinRemote, hd, hend, happ]

/-- **Two entries go to the same text** exactly when the same names are put to the destination's end for both. -/
theorem destination_eq_iff (source source' destination : Text) (ms ns : List Name) (hm : ∀ n ∈ ms, Plain n)
    (hn : ∀ n ∈ ns, Plain n) :
    joinRemote (destStem source destination) ([sep].intercalate ms) =
        joinRemote (destStem source' destination) ([sep].intercalate ns) ↔
      inserted source destination ++ shown ms = inserted source' destination ++ shown ns := by
  have hsep : ∀ (s : Text) (ks : List Name), (∀ k ∈ ks, Plain k) →
      ∀ k ∈ inserted s destination ++ shown ks, sep ∉ k := by
    intro s ks hks k hk
    rcases List.mem_append.1 hk with hk | hk
    · exact sep_not_mem_inserted s destination k hk
    · unfold shown at hk
      split at hk
      · rw [List.mem_singleton.1 hk]
        exact List.not_mem_nil
      · exact (hks k hk).noSep
  rw [joinRemote_destStem, joinRemote_destStem, List.append_cancel_left_eq]
  refine ⟨fun h => ?_, fun h => by rw [h]⟩
  exact Posix.intercalate_injective (List.append_ne_nil_of_right_ne_nil _ (shown_ne_nil ms))
    (List.append_ne_nil_of_right_ne_nil _ (shown_ne_nil ns)) (hsep source ms hm) (hsep source' ns hn) h

end Qcp
