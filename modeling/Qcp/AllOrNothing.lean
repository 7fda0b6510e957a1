import Qcp.Responses
/-!
# AllOrNothing — what is left of a SetMetadata that fails

The items of a SetMetadata are applied one by one, and only then is it answered.  `setMetadata_restores_iff` says for
which of them a directory's permissions are as before wherever the handler gives up: over any stream, on which the
answer may be lost, and over one that loses nothing.
-/
namespace Qcp

open Bare (Text)
open Posix (Path)
open Proc (Task View Local Ends Comes)

/-! ## What the items do -/

instance (md : TaggedData) : Decidable (Settable md) := inferInstanceAs (Decidable (_ ∧ _))

/-- The mode an item sets. -/
def TaggedData.modeSet (md : TaggedData) : Option UInt32 :=
  if md.metadataAttr = some .modeBits then md.data.asUnsigned.map modeOf else none

/-- The modes set in front of the first item that cannot be. -/
def modesSet (metadata : List TaggedData) : List UInt32 :=
  (metadata.takeWhile fun md => Settable md).filterMap TaggedData.modeSet

/-- **A mode that something else may fail behind is the one there was**: every mode but the last, and that too if there
is an item that cannot be set, or if the answer can be lost. -/
def Idle (lossless : Bool) (permissions : UInt32) (metadata : List TaggedData) : Prop :=
  ∀ mode ∈ (if lossless = true ∧ ∀ md ∈ metadata, Settable md then (modesSet metadata).dropLast
    else modesSet metadata), mode = permissions

/-- The same item by item: with these permissions now, they are the first ones wherever it may fail. -/
def Unmoved (lossless : Bool) (permissions : UInt32) : UInt32 → List TaggedData → Prop
  | now, [] => lossless = false → now = permissions
  | now, md :: mds =>
    if Settable md then
      match md.modeSet with
      | none => Unmoved lossless permissions now mds
      | some mode => now = permissions ∧ Unmoved lossless permissions mode mds
    else now = permissions

theorem modesSet_cons (md : TaggedData) (mds : List TaggedData) (h : Settable md) :
    modesSet (md :: mds) = md.modeSet.toList ++ modesSet mds := by
  unfold modesSet
  rw [List.takeWhile_cons_of_pos (by simpa using h)]
  cases hm : md.modeSet <;> simp [hm]

theorem unmoved_iff (lossless : Bool) (permissions : UInt32) : ∀ (now : UInt32) (mds : List TaggedData),
    Unmoved lossless permissions now mds ↔
      ∀ mode ∈ (if lossless = true ∧ ∀ md ∈ mds, Settable md then (now :: modesSet mds).dropLast
        else now :: modesSet mds), mode = permissions
  | now, [] => by cases lossless <;> simp [Unmoved, modesSet]
  | now, md :: mds => by
    unfold Unmoved
    by_cases h : Settable md
    · rw [if_pos h, modesSet_cons md mds h]
      have hall : (∀ x ∈ md :: mds, Settable x) ↔ ∀ x ∈ mds, Settable x := by simp [h]
      simp only [hall]
      cases hm : md.modeSet with
      | none => exact unmoved_iff lossless permissions now mds
      | some mode =>
        simp only [unmoved_iff lossless permissions mode mds, Option.toList_some, List.singleton_append,
          List.dropLast_cons_cons]
        split <;> simp only [List.forall_mem_cons]
    · have hall : ¬ (lossless = true ∧ ∀ x ∈ md :: mds, Settable x) := fun hx => h (hx.2 md List.mem_cons_self)
      have hnone : modesSet (md :: mds) = [] := by
        unfold modesSet
        rw [List.takeWhile_cons_of_neg (by simpa using h)]
        rfl
      rw [if_neg h, if_neg hall, hnone]
      simp

theorem unmoved_iff_idle (lossless : Bool) (permissions : UInt32) (mds : List TaggedData) :
    Unmoved lossless permissions permissions mds ↔ Idle lossless permissions mds := by
  rw [unmoved_iff, Idle]
  split
  · cases modesSet mds <;> simp
  · simp

/-! ## One item -/

section

variable {H : Host}

/-- An item is passed over. -/
theorem applyAll_passed (path : Path) (md : TaggedData) (mds : List TaggedData) (h : Settable md)
    (hm : md.modeSet = none) :
    (SetMetadataHandler.applyAll path (md :: mds) : Act H Unit) = SetMetadataHandler.applyAll path mds := by
  rw [SetMetadataHandler.applyAll]
  cases hattr : md.metadataAttr with
  | none => rfl
  | some attr =>
    cases attr with
    | invalid => rfl
    | accessTime => exact absurd hattr h.1
    | modificationTime => exact absurd hattr h.2
    | modeBits =>
      rw [TaggedData.modeSet, if_pos hattr] at hm
      rw [Option.map_eq_none_iff.1 hm]

/-- Or it is set. -/
theorem applyAll_set (path : Path) (md : TaggedData) (mds : List TaggedData) (mode : UInt32)
    (hm : md.modeSet = some mode) :
    (SetMetadataHandler.applyAll path (md :: mds) : Act H Unit) = (do
      match ← Fs.setPermissions path mode with
      | .error e => errorAndReturn (.io e)
      | .ok _ => SetMetadataHandler.applyAll path mds) := by
  unfold TaggedData.modeSet at hm
  split at hm
  · rename_i hattr
    obtain ⟨m, hdata, rfl⟩ := Option.map_eq_some_iff.1 hm
    rewrite [SetMetadataHandler.applyAll, hattr, hdata]
    rfl
  · cases hm

/-- Or it cannot be. -/
theorem applyAll_unset (path : Path) (md : TaggedData) (mds : List TaggedData) (h : ¬ Settable md) :
    ∃ e, (SetMetadataHandler.applyAll path (md :: mds) : Act H Unit) = Task.fail e := by
  rw [SetMetadataHandler.applyAll]
  cases hattr : md.metadataAttr with
  | none => exact absurd (by simp [Settable, hattr]) h
  | some attr =>
    cases attr with
    | invalid => exact absurd (by simp [Settable, hattr]) h
    | modeBits => exact absurd (by simp [Settable, hattr]) h
    | accessTime => exact ⟨_, rfl⟩
    | modificationTime => exact ⟨_, rfl⟩

/-! ## What is left -/

/-- A path has these permissions. -/
def Permits (w : World) (h : Place) (permissions : UInt32) : Prop :=
  ∃ n, w h = some n ∧ n.info.permissions = permissions

/-- It was answered that all is well, or the permissions are these. -/
def Restored (h : Place) (permissions : UInt32) (_ : Except Err Unit) (v : View H.sig) : Prop :=
  Msg.response okResponse ∈ v.sent ∨ Permits v.world h permissions

theorem Permits.moved {w : World} {h : Place} {now permissions : UInt32} (hnow : Permits w h now)
    (hne : now ≠ permissions) : ¬ Permits w h permissions := by
  rintro ⟨n', hn', hp⟩
  obtain ⟨n, hn, hnp⟩ := hnow
  cases hn.symm.trans hn'
  exact hne (hnp.symm.trans hp)

variable {W : Prop} {v : View H.sig} {h : Place} {permissions : UInt32}

theorem Ends.restored_refused (err : Refusal) (hp : Permits v.world h permissions) :
    Ends W (Restored h permissions) (Qcp.errorAndReturn err : Act H Unit) v :=
  Ends.writer (fun _ => Or.inr hp) (fun _ => Or.inr hp) fun _ _ => Or.inr hp

theorem Ends.restored_ok (hp : ¬ W → Permits v.world h permissions) :
    Ends W (Restored h permissions) (sendOk : Act H Unit) v :=
  Ends.writer (fun _ => Or.inl (List.mem_append_right _ (List.mem_singleton_self _)))
    (fun hf => absurd okResponse_fits hf) fun hw _ => Or.inr (hp hw)

/-- **One by one**: the permissions are as they were wherever an item fails, or the answer is lost. -/
theorem Ends.restored_applyAll (lossless : Bool) (path : Path) (permissions : UInt32) :
    ∀ (mds : List TaggedData) (now : UInt32) (v : View H.sig), Permits v.world (H.place path) now →
      Unmoved lossless permissions now mds → Ends (lossless = true) (Restored (H.place path) permissions)
        (SetMetadataHandler.applyAll path mds : Act H Unit) v
  | [], now, v, hnow, hu => Ends.restored_ok fun hw => by
    rw [hu (Bool.eq_false_of_not_eq_true hw)] at hnow
    exact hnow
  | md :: mds, now, v, hnow, hu => by
    unfold Unmoved at hu
    by_cases hset : Settable md
    · rw [if_pos hset] at hu
      cases hm : md.modeSet with
      | none =>
        rw [hm] at hu
        rw [applyAll_passed path md mds hset hm]
        exact Ends.restored_applyAll lossless path permissions mds now v hnow hu
      | some mode =>
        rw [hm] at hu
        rw [applyAll_set path md mds mode hm]
        apply Ends.then
        apply Ends.call
        intro r w hsem
        cases r with
        | error e =>
          have hw : w = v.world := hsem
          rw [hu.1] at hnow
          exact Ends.restored_refused (.io e) (by rw [hw]; exact hnow)
        | ok u =>
          obtain ⟨n, -, rfl⟩ := hsem
          exact Ends.restored_applyAll lossless path permissions mds mode _ ⟨_, World.put_same _ _ _, rfl⟩ hu.2
    · rw [if_neg hset] at hu
      obtain ⟨e, he⟩ := applyAll_unset (H := H) path md mds hset
      rw [he]
      rw [hu] at hnow
      exact Ends.fail (Or.inr hnow)

theorem Ends.restored (lossless : Bool) (args : SetMetadataArgs) {w : World} {n : Node}
    (hn : w (H.place args.path) = some n) (hidle : Idle lossless n.info.permissions args.metadata) :
    Ends (lossless = true) (Restored (H.place args.path) n.info.permissions)
      (SetMetadataHandler.handleImpl args : Act H Unit) (View.init w) := by
  have hpermits : Permits w (H.place args.path) n.info.permissions := ⟨n, hn, rfl⟩
  apply Ends.then
  apply Ends.call
  intro r w' hsem
  obtain ⟨rfl, -⟩ := hsem
  cases r with
  | error e => exact Ends.restored_refused (.io e) hpermits
  | ok info =>
    rw [Proc.Onwards]
    by_cases hd : info.isDir = true
    · simp only [hd, if_true]
      exact Ends.restored_applyAll lossless args.path n.info.permissions args.metadata n.info.permissions _ hpermits
        ((unmoved_iff_idle _ _ _).2 hidle)
    · simp only [hd]
      exact Ends.restored_refused (.status .itIsAFile) hpermits

/-! ## A mode that is left -/

/-- A system that does not let a mode be set. -/
def notPermitted : IoError := ⟨.permissionDenied, []⟩

theorem notPermitted_fits : Response.form.Fits (Refusal.io notPermitted).response := by decide

/-- **A mode that was set before an item failed is there to stay**, and no success was answered; so is the last one when
the answer is lost. -/
theorem comes_moved (lossless : Bool) (path : Path) (permissions : UInt32) :
    ∀ (mds : List TaggedData) (now : UInt32) (s : Local H.sig), Permits s.world (H.place path) now →
      s.sendLost = false → Msg.response okResponse ∉ s.sent → ¬ Unmoved lossless permissions now mds →
      ∃ r s', Comes (lossless = true) (SetMetadataHandler.applyAll path mds : Act H Unit) s r s' ∧
        Msg.response okResponse ∉ s'.sent ∧ ¬ Permits s'.world (H.place path) permissions
  | [], now, s, hnow, _, hok, hu => by
    unfold Unmoved at hu
    push Not at hu
    obtain ⟨rfl, hne⟩ := hu
    refine ⟨_, _, Comes.unwritten (F := Response.form) (a := okResponse) okResponse_fits notPermitted
      (by decide) s, ?_, hnow.moved hne⟩
    simpa [Proc.Event.sent?] using hok
  | md :: mds, now, s, hnow, hlost, hok, hu => by
    have hmoved : now ≠ permissions → ¬ Permits s.world (H.place path) permissions := hnow.moved
    unfold Unmoved at hu
    by_cases hset : Settable md
    · rw [if_pos hset] at hu
      cases hm : md.modeSet with
      | none =>
        rw [hm] at hu
        rw [applyAll_passed path md mds hset hm]
        exact comes_moved lossless path permissions mds now s hnow hlost hok hu
      | some mode =>
        rw [hm] at hu
        rw [applyAll_set path md mds mode hm]
        by_cases hnp : now = permissions
        · obtain ⟨n, hn, -⟩ := hnow
          let n' : Node := { n with info := { n.info with permissions := mode } }
          have hsem : H.sem s.world (.setPermissions path mode) (.ok ()) (s.world.put (H.place path) n') := ⟨n, hn, rfl⟩
          let s1 : Local H.sig := ask (.setPermissions path mode) (.ok ()) (s.world.put (H.place path) n') s
          have hrest : ¬ Unmoved lossless permissions mode mds := fun hx => hu ⟨hnp, hx⟩
          have hok1 : Msg.response okResponse ∉ s1.sent := by rw [sent_ask]; exact hok
          obtain ⟨r, s', hc, hok', hp'⟩ := comes_moved lossless path permissions mds mode s1
            ⟨n', World.put_same s.world (H.place path) n', rfl⟩ hlost hok1 hrest
          exact ⟨r, s', Comes.then (Comes.asked hsem hlost) hc, hok', hp'⟩
        · have hsem : H.sem s.world (.setPermissions path mode) (.error notPermitted) s.world := rfl
          let s1 : Local H.sig := ask (.setPermissions path mode) (.error notPermitted) s.world s
          refine ⟨.ok (), s1.push (.sent (Response.form.msg (Refusal.io notPermitted).response)),
            Comes.then (Comes.asked hsem hlost) (Comes.writer notPermitted_fits hlost), ?_, hmoved hnp⟩
          rw [Local.sent_push, sent_ask]
          intro hx
          rcases List.mem_append.1 hx with hx | hx
          · exact hok hx
          · have heq : Msg.response okResponse = Msg.response (Refusal.io notPermitted).response :=
              List.mem_singleton.1 hx
            have hstatus := congrArg Response.status (Msg.response.inj heq)
            exact absurd hstatus (by decide)
    · rw [if_neg hset] at hu
      obtain ⟨e, he⟩ := applyAll_unset (H := H) path md mds hset
      rw [he]
      exact ⟨.error e, s, Comes.fail e s, hok, hmoved hu⟩

theorem comes_moved_handler (lossless : Bool) (args : SetMetadataArgs) {w : World} {n : Node}
    (hn : w (H.place args.path) = some n) (hd : n.info.isDir = true)
    (h : ¬ Idle lossless n.info.permissions args.metadata) : ∃ r s,
      Comes (lossless = true) (SetMetadataHandler.handleImpl args : Act H Unit) (Local.init w) r s ∧
      Msg.response okResponse ∉ s.sent ∧ ¬ Permits s.world (H.place args.path) n.info.permissions := by
  have hsem : H.sem w (.metadata args.path) (.ok n.info) w := ⟨rfl, fun m hm => by cases hm; exact ⟨n, hn, rfl⟩⟩
  let s1 : Local H.sig := ask (.metadata args.path) (.ok n.info) w (Local.init w)
  have hok : Msg.response okResponse ∉ s1.sent := by rw [sent_ask]; exact List.not_mem_nil
  obtain ⟨r, s, hc, hok', hp⟩ := comes_moved lossless args.path n.info.permissions args.metadata n.info.permissions s1
    ⟨n, hn, rfl⟩ rfl hok (fun hu => h ((unmoved_iff_idle _ _ _).1 hu))
  refine ⟨r, s, Comes.then (Comes.asked hsem rfl) ?_, hok', hp⟩
  simp only [hd, if_true]
  exact hc

/-- **A SetMetadata that does not answer that all is well leaves a directory's permissions as they were**, whatever
happens; with `lossless`, as long as nothing that is written is lost. -/
def AllOrNothing (lossless : Bool) (H : Host) (args : SetMetadataArgs) (w : World) (permissions : UInt32) : Prop :=
  ∀ r s, Proc.Runs (lossless = true) ((SetMetadataHandler.handleImpl args : Act H Unit), Local.init w) (.ret r, s) →
    Msg.response okResponse ∉ s.sent → Permits s.world (H.place args.path) permissions

end

/-- **Which commands are applied as a whole**: those all of whose modes are those of the directory; where the answer is
not lost, but for a last one that nothing can fail behind. -/
theorem setMetadata_restores_iff (lossless : Bool) (H : Host) (args : SetMetadataArgs) (w : World) (n : Node)
    (hn : w (H.place args.path) = some n) (hd : n.info.isDir = true) :
    AllOrNothing lossless H args w n.info.permissions ↔ Idle lossless n.info.permissions args.metadata := by
  constructor
  · intro h
    by_contra hidle
    obtain ⟨r, s, hc, hok, hp⟩ := comes_moved_handler lossless args hn hd hidle
    exact hp (h r s hc hok)
  · intro hidle r s hs hok
    rcases (Ends.restored lossless args hn hidle).run hs with h | h
    · exact absurd h hok
    · exact h

/-- A mode that is new is set as a whole when the answer is not lost; the mode there was, always. -/
theorem setMetadata_restores_iff_root :
    AllOrNothing true anyHost ⟨"d".toList, [MetadataAttr.newMode 0o700], []⟩ (allOf .directory) 0o755 ∧
    ¬ AllOrNothing false anyHost ⟨"d".toList, [MetadataAttr.newMode 0o700], []⟩ (allOf .directory) 0o755 ∧
    AllOrNothing false anyHost ⟨"d".toList, [MetadataAttr.newMode 0o755], []⟩ (allOf .directory) 0o755 := by
  refine ⟨?_, ?_, ?_⟩
  · exact (setMetadata_restores_iff true anyHost ⟨"d".toList, [MetadataAttr.newMode 0o700], []⟩ (allOf .directory) _ rfl
      rfl).2 nofun
  · intro h
    have hidle := (setMetadata_restores_iff false anyHost ⟨"d".toList, [MetadataAttr.newMode 0o700], []⟩
      (allOf .directory) _ rfl rfl).1 h
    exact absurd (hidle 0o700 (by decide)) (by decide)
  · exact (setMetadata_restores_iff false anyHost ⟨"d".toList, [MetadataAttr.newMode 0o755], []⟩
      (allOf .directory) _ rfl rfl).2 fun _ hm => List.mem_singleton.1 hm

/-- A mode, and a time behind it. -/
def modeAndTime : List TaggedData := [MetadataAttr.newMode 0o700, MetadataAttr.newAtime 0]

/-- **A directory keeps the mode of a command that failed**, also when nothing that is written is lost. -/
theorem not_allOrNothing : ¬ ∀ (args : SetMetadataArgs) (w : World) (n : Node), w (anyHost.place args.path) = some n →
    n.info.isDir = true → AllOrNothing true anyHost args w n.info.permissions := by
  intro h
  have hidle : ¬ Idle true 0o755 modeAndTime := fun hi => absurd (hi 0o700 (by decide)) (by decide)
  obtain ⟨r, s, hc, hok, hp⟩ := comes_moved_handler (H := anyHost) true ⟨"d".toList, modeAndTime, []⟩
    (w := allOf .directory) rfl rfl hidle
  exact hp (h ⟨"d".toList, modeAndTime, []⟩ (allOf .directory) _ rfl rfl r s hc hok)

end Qcp
