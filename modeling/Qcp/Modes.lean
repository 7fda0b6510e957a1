import Qcp.Destination
import Qcp.Phases
import Qcp.RecursiveGet
/-!
# Modes — which mode bits a peer can have set

Modes come in file headers, in file trailers, in SetMetadata commands and in listings.  `Confines p` says that the
program `p` never applies one with bits besides the permissions: neither a server (`Avoids.handleStream`) nor a
client's requests (`confines_sendImpl`) do, whatever they are sent.  The mode of a listed directory is applied at the
end of a recursive GET; `modes_confined_iff` says for which listings it has no other bits.
-/
namespace Qcp

open Bare (Bytes Text)
open Posix (Path)
open Proc (Steps Task Local Avoids Gives)

/-! ## Modes -/

/-- The mode an operation applies. -/
def Op.mode : Op → Option UInt32
  | openWrite _ mode => mode
  | setFilePermissions _ mode | setPermissions _ mode => some mode
  | _ => none

/-- **No bit besides the permissions**: neither set-uid nor set-gid nor sticky. -/
def Confined (mode : UInt32) : Prop := mode &&& ~~~0o777 = 0

instance (mode : UInt32) : Decidable (Confined mode) := inferInstanceAs (Decidable (_ = _))

/-- An operation that applies other bits. -/
def Op.Exceeds (op : Op) : Prop := ∃ mode, op.mode = some mode ∧ ¬ Confined mode

theorem confined_and (m k : UInt32) (h : Confined m) : Confined (m &&& k) := by
  unfold Confined at h ⊢
  rw [UInt32.and_assoc, UInt32.and_comm k, ← UInt32.and_assoc, h, UInt32.zero_and]

/-- What is read off the wire is masked. -/
theorem confined_modeOf (m : UInt64) : Confined (modeOf m) := by
  have hmask : (0o777 : UInt64).toUInt32 &&& ~~~0o777 = 0 := by decide
  unfold Confined modeOf
  rw [UInt64.toUInt32_and, UInt32.and_assoc, hmask, UInt32.and_zero]

theorem not_exceeds_of_none {op : Op} (h : op.mode = none) : ¬ op.Exceeds := by
  rintro ⟨mode, hm, -⟩
  rw [h] at hm
  cases hm

theorem not_exceeds_of_some {op : Op} {mode : UInt32} (h : op.mode = some mode) (hc : Confined mode) :
    ¬ op.Exceeds := by
  rintro ⟨mode', hm, hn⟩
  rw [h] at hm
  cases hm
  exact hn hc

/-- **The mode a file is created with**, whatever its header has in it. -/
theorem confined_appliedMode (H : Host) (metadata : List TaggedData) (mode : UInt32)
    (h : appliedMode H metadata = some mode) : Confined mode := by
  unfold appliedMode at h
  revert h
  refine List.foldlRecOn (motive := fun now => now = some mode → Confined mode) metadata _ (fun hm => by cases hm) ?_
  intro now hnow md _
  split
  · cases md.data.asUnsigned with
    | none => exact hnow
    | some u =>
      intro hm
      cases hm
      exact confined_and _ _ (confined_modeOf u)
  · exact hnow

/-- **The mode a file is given at the end**, whatever its trailer has in it. -/
theorem confined_collect (metadata : List TaggedData) (c : Changes) (mode : UInt32)
    (h : Changes.collect metadata = some c) (hm : c.permissions = some mode) : Confined mode := by
  have step : ∀ (mds : List TaggedData) (now : Changes), (∀ m, now.permissions = some m → Confined m) →
      mds.foldlM Changes.add now = some c → ∀ m, c.permissions = some m → Confined m := by
    intro mds
    induction mds with
    | nil =>
      intro now hnow hc
      cases hc
      exact hnow
    | cons md mds ih =>
      intro now hnow hc
      rw [List.foldlM_cons] at hc
      obtain ⟨next, hnext, hrest⟩ := Option.bind_eq_some_iff.1 hc
      refine ih next ?_ hrest
      unfold Changes.add at hnext
      split at hnext
      · cases hnext
        intro m hm
        cases hm
        exact confined_modeOf _
      · obtain ⟨t, -, rfl⟩ := Option.map_eq_some_iff.1 hnext
        exact hnow
      · obtain ⟨t, -, rfl⟩ := Option.map_eq_some_iff.1 hnext
        exact hnow
      · cases hnext
        exact hnow
  exact step metadata .empty (fun m hm => by cases hm) h mode hm

/-! ## Either side of a stream -/

section Sides

variable {H : Host}

/-- **No mode with other bits is applied**, in any state of any run. -/
def Confines {α : Type} (p : Act H α) : Prop :=
  ∀ (w : World) (c : Proc.Config H.sig (Except Err α)), Steps (p, Local.init w) c →
    ∀ e ∈ c.2.done, ∀ mode, e.1.mode = some mode → Confined mode

theorem confines_of_avoids {α : Type} {p : Act H α} (h : Avoids (S := H.sig) Op.Exceeds p) : Confines p := by
  intro w c hs e he mode hm
  by_contra hn
  exact h.run hs e he ⟨mode, hm, hn⟩

/-- Something that applies no mode is asked for. -/
theorem Avoids.asked (op : Op) (h : op.mode = none) : Avoids (S := H.sig) Op.Exceeds (Act.call op : Act H _) :=
  Avoids.call (S := H.sig) (not_exceeds_of_none h)

theorem Avoids.refused (err : Refusal) : Avoids (S := H.sig) Op.Exceeds (errorAndReturn err : Act H Unit) :=
  Avoids.writer (F := Response.form) _

theorem Avoids.sendOk : Avoids (S := H.sig) Op.Exceeds (sendOk : Act H Unit) :=
  Avoids.writer (F := Response.form) ⟨Status.ok.toRepr, none⟩

theorem Avoids.intoResult (r : Response) : Avoids (S := H.sig) Op.Exceeds (intoResult r : Act H Response) := by
  unfold Qcp.intoResult
  split <;> exact trivial

theorem Avoids.ensure (c : Bool) (text : Text) : Avoids (S := H.sig) Op.Exceeds (ensure c text : Act H Unit) := by
  unfold Qcp.ensure
  split <;> exact trivial

theorem Avoids.progressBarFor (inner : SessionCommandInner) (steps : Nat) :
    Avoids (S := H.sig) Op.Exceeds (progressBarFor inner steps : Act H Unit) := by
  unfold Qcp.progressBarFor
  split <;> exact trivial

theorem Avoids.protocolFilename (path : Path) :
    Avoids (S := H.sig) Op.Exceeds (protocolFilename path : Act H Text) := by
  unfold Qcp.protocolFilename
  split <;> exact trivial

theorem Avoids.openWithMeta (path : Path) : Avoids (S := H.sig) Op.Exceeds (openWithMeta path : Act H _) := by
  refine .then (Avoids.asked (.openRead path) rfl) fun r => ?_
  cases r with
  | error e => exact .pure _
  | ok h =>
    refine .then (Avoids.asked (.fileMetadata h) rfl) fun r => ?_
    cases r with
    | error e => exact .pure _
    | ok info =>
      simp only
      split <;> exact .pure _

theorem Avoids.copyOut (h : Place) (bufferSize : Nat) :
    Avoids (S := H.sig) Op.Exceeds (copyOut h bufferSize : Act H _) := by
  have finish : ∀ amt, Avoids (S := H.sig) Op.Exceeds (copyEnd Task.flush amt : Act H _) := by
    refine fun amt => .then .flush fun r => ?_
    cases r <;> exact .pure _
  refine .loop (fun amt => .then (Avoids.asked (.readAt h amt bufferSize) rfl) fun r => ?_) 0
  cases r with
  | error e => exact .pure _
  | ok bs =>
    simp only
    split
    · exact finish amt
    · refine .then (.send _) fun r => ?_
      cases r <;> exact .pure _

theorem Avoids.createOrTruncate (path : Path) (header : FileHeaderV2) :
    Avoids (S := H.sig) Op.Exceeds (createOrTruncate path header : Act H _) := by
  have opened : ∀ p, Avoids (S := H.sig) Op.Exceeds
      (TokioFile.openWrite p (appliedMode H header.metadata) : Act H _) := by
    refine fun p => .call ?_
    rintro ⟨mode, hm, hn⟩
    exact hn (confined_appliedMode H header.metadata mode hm)
  refine .then (Avoids.asked (.metadata path) rfl) fun r => ?_
  cases r with
  | error e => exact opened _
  | ok info =>
    simp only
    split
    · exact opened _
    · split
      · exact opened _
      · exact .pure _

theorem Avoids.received (limit : Nat) (h : Place) (bufferSize : Nat) :
    Avoids (S := H.sig) Op.Exceeds (Qcp.copyIn limit h bufferSize : Act H _) :=
  Avoids.copyIn limit h bufferSize (not_exceeds_of_none rfl) fun _ => not_exceeds_of_none rfl

/-- **What a trailer makes of a file.** -/
theorem Avoids.updated (h : Place) (metadata : List TaggedData) :
    Avoids (S := H.sig) Op.Exceeds (Qcp.updateMetadata h metadata : Act H Unit) :=
  Avoids.updateMetadata h metadata (not_exceeds_of_none rfl) (fun _ _ => not_exceeds_of_none rfl) fun c mode hc hm =>
    not_exceeds_of_some rfl (confined_collect metadata c mode hc hm)

/-! ## Requests -/

theorem Avoids.getSend (inner : SessionCommandInner) (job : CopyJobSpec) :
    Avoids (S := H.sig) Op.Exceeds (GetHandler.sendImpl inner job : Act H RequestResult) := by
  refine .then (Avoids.writer _) fun _ => .then Avoids.flushed fun _ => .then (Avoids.reader _) fun r => ?_
  refine .then (Avoids.intoResult r) fun _ => .then (Avoids.reader _) fun header => ?_
  refine .then (Avoids.createOrTruncate _ _) fun r => .then (Avoids.ofExcept r) fun file => ?_
  refine .then (Avoids.progressBarFor _ _) fun _ => .then (Avoids.received _ _ _) fun r => ?_
  refine .then (Avoids.ofExcept r) fun _ => .then (Avoids.reader _) fun trailer => ?_
  refine .then (Avoids.asked (.flushFile file) rfl) fun r => .then (Avoids.ofExcept r) fun _ => ?_
  exact .then (Avoids.updated _ _) fun _ => .pure _

theorem Avoids.getHandle (inner : SessionCommandInner) (args : Get2Args) :
    Avoids (S := H.sig) Op.Exceeds (GetHandler.handleImpl inner args : Act H Unit) := by
  refine .then (Avoids.openWithMeta _) fun r => ?_
  cases r with
  | error e => exact Avoids.refused _
  | ok found =>
    obtain ⟨file, originalMeta⟩ := found
    simp only
    split
    · exact Avoids.refused _
    · refine .then Avoids.sendOk fun _ => .then (Avoids.protocolFilename _) fun _ => .then (Avoids.writer _) fun _ => ?_
      refine .then (Avoids.copyOut _ _) fun r => ?_
      cases r with
      | error e => exact .fail _
      | ok sent => exact .then (Avoids.ensure _ _) fun _ => .then (Avoids.writer _) fun _ => Avoids.flushed

theorem Avoids.putSend (inner : SessionCommandInner) (job : CopyJobSpec) :
    Avoids (S := H.sig) Op.Exceeds (PutHandler.sendImpl inner job : Act H RequestResult) := by
  refine .then (Avoids.openWithMeta _) fun r => .then (Avoids.ofExcept r) fun found => ?_
  obtain ⟨file, srcMeta⟩ := found
  simp only
  split
  · exact .fail _
  · refine .then (Avoids.progressBarFor _ _) fun _ => .then (Avoids.writer _) fun _ => .then Avoids.flushed fun _ => ?_
    refine .then (Avoids.protocolFilename _) fun _ => .then (Avoids.writer _) fun _ => .then
      (Avoids.reader _) fun r => ?_
    refine .then (Avoids.intoResult r) fun _ => .then (Avoids.copyOut _ _) fun r => ?_
    cases r with
    | error e =>
      simp only
      unfold PutHandler.explainFailure
      split
      · refine .then (Avoids.reader _).attempt fun r => ?_
        cases r <;> exact .fail _
      · exact .fail _
    | ok sent =>
      refine .then (Avoids.ensure _ _) fun _ => .then (Avoids.writer _) fun _ => .then Avoids.flushed fun _ => ?_
      exact .then (Avoids.reader _) fun _ => .then (Avoids.ensure _ _) fun _ => .pure _

theorem Avoids.putHandle (inner : SessionCommandInner) (args : Get2Args) :
    Avoids (S := H.sig) Op.Exceeds (PutHandler.handleImpl inner args : Act H Unit) := by
  refine .then (Avoids.appendFilename (fun _ => not_exceeds_of_none rfl) _) fun append => ?_
  cases append with
  | none => exact Avoids.refused _
  | some append =>
    refine .then (Avoids.reader _) fun header => .then (Avoids.createOrTruncate _ _) fun r => ?_
    cases r with
    | error e => exact Avoids.refused _
    | ok file =>
      refine .then Avoids.sendOk fun _ => .then Avoids.flushed fun _ => .then (Avoids.received _ _ _) fun r => ?_
      cases r with
      | error e => exact Avoids.refused _
      | ok n =>
        refine .then (Avoids.reader _) fun trailer => .then (Avoids.asked (.flushFile file) rfl) fun r => ?_
        refine .then (Avoids.ofExcept r) fun _ => .then (Avoids.updated _ _) fun _ => ?_
        exact .then Avoids.sendOk fun _ => Avoids.flushed

theorem Avoids.createDirectorySend (inner : SessionCommandInner) (job : CopyJobSpec) :
    Avoids (S := H.sig) Op.Exceeds (CreateDirectoryHandler.sendImpl inner job : Act H RequestResult) := by
  refine .then (Avoids.ensure _ _) fun _ => .then (Avoids.ensure _ _) fun _ => .then (Avoids.writer _) fun _ => ?_
  refine .then Avoids.flushed fun _ => .then (Avoids.reader _) fun r => ?_
  exact .then (Avoids.intoResult r) fun _ => .pure _

theorem Avoids.createDirectoryHandle (args : CreateDirectoryArgs) :
    Avoids (S := H.sig) Op.Exceeds (CreateDirectoryHandler.handleImpl args : Act H Unit) := by
  refine .then (Avoids.asked (.metadata args.dirName) rfl) fun r => ?_
  cases r with
  | ok info =>
    simp only
    split
    · exact Avoids.refused _
    · split
      · exact Avoids.sendOk
      · exact .fail _
  | error e =>
    refine .then (Avoids.asked (.createDir args.dirName) rfl) fun r => ?_
    cases r with
    | error e => exact Avoids.refused _
    | ok u => exact Avoids.sendOk

theorem Avoids.setMetadataSend (inner : SessionCommandInner) (job : CopyJobSpec) :
    Avoids (S := H.sig) Op.Exceeds (SetMetadataHandler.sendImpl inner job : Act H RequestResult) := by
  refine .then (Avoids.ensure _ _) fun _ => .then (Avoids.asked (.metadata job.source.filename) rfl) fun r => ?_
  refine .then (Avoids.ofExcept r) fun localmeta => .then (Avoids.ensure _ _) fun _ => .then
    (Avoids.writer _) fun _ => ?_
  refine .then Avoids.flushed fun _ => .then (Avoids.reader _) fun r => ?_
  exact .then (Avoids.intoResult r) fun _ => .pure _

/-- **What a SetMetadata makes of a directory**, item by item. -/
theorem Avoids.applyAll (path : Path) : ∀ metadata : List TaggedData,
    Avoids (S := H.sig) Op.Exceeds (SetMetadataHandler.applyAll path metadata : Act H Unit)
  | [] => Avoids.sendOk
  | md :: mds => by
    rw [SetMetadataHandler.applyAll]
    cases md.metadataAttr with
    | none => exact Avoids.applyAll path mds
    | some attr =>
      cases attr with
      | invalid => exact Avoids.applyAll path mds
      | accessTime => exact .fail _
      | modificationTime => exact .fail _
      | modeBits =>
        cases md.data.asUnsigned with
        | none => exact Avoids.applyAll path mds
        | some mode =>
          have set : Avoids (S := H.sig) Op.Exceeds (Fs.setPermissions path (modeOf mode) : Act H _) :=
            .call (not_exceeds_of_some rfl (confined_modeOf mode))
          refine .then set fun r => ?_
          cases r with
          | error e => exact Avoids.refused _
          | ok u => exact Avoids.applyAll path mds

theorem Avoids.setMetadataHandle (args : SetMetadataArgs) :
    Avoids (S := H.sig) Op.Exceeds (SetMetadataHandler.handleImpl args : Act H Unit) := by
  refine .then (Avoids.asked (.metadata args.path) rfl) fun r => ?_
  cases r with
  | error e => exact Avoids.refused _
  | ok localmeta =>
    simp only
    split
    · exact Avoids.applyAll _ _
    · exact Avoids.refused _

theorem Avoids.listingSend (inner : SessionCommandInner) (job : CopyJobSpec) (recurse : Bool) :
    Avoids (S := H.sig) Op.Exceeds (ListingHandler.sendImpl inner job recurse : Act H RequestResult) := by
  refine .then (Avoids.ensure _ _) fun _ => .then (Avoids.writer _) fun _ => .then Avoids.flushed fun _ => ?_
  refine .then (Avoids.reader _) fun r => .then (Avoids.intoResult r) fun _ => ?_
  refine .then (.loop (fun data => .then (Avoids.reader _) fun packet => ?_) _) fun _ => .pure _
  split <;> exact .pure _

theorem Avoids.sendAll : ∀ packets : List ListData,
    Avoids (S := H.sig) Op.Exceeds (ListingHandler.sendAll packets : Act H Unit)
  | [] => Avoids.flushed
  | p :: ps => .then (Avoids.writer p) fun _ => Avoids.sendAll ps

theorem Avoids.listingHandle (args : ListArgs) :
    Avoids (S := H.sig) Op.Exceeds (ListingHandler.handleImpl args : Act H Unit) := by
  refine .then (Avoids.asked (.metadata args.path) rfl) fun r => ?_
  cases r with
  | error e => exact Avoids.refused _
  | ok info =>
    simp only
    split
    · exact .then Avoids.sendOk fun _ => Avoids.writer _
    · refine .then (Avoids.asked (.walkDir args.path _) rfl) fun r => ?_
      cases r with
      | error e => exact Avoids.refused _
      | ok entries =>
        simp only
        split
        · exact trivial
        · exact .then Avoids.sendOk fun _ => Avoids.sendAll _

/-- **A server's side of a stream.** -/
theorem Avoids.handleStream (inner : SessionCommandInner) :
    Avoids (S := H.sig) Op.Exceeds (handleStream inner : Act H Unit) := by
  refine .then (Avoids.reader Command.form).attempt fun r => ?_
  split
  · rename_i command
    cases command with
    | get args => exact Avoids.getHandle inner ⟨args.filename, []⟩
    | get2 args => exact Avoids.getHandle inner args
    | put args => exact Avoids.putHandle inner ⟨args.filename, []⟩
    | put2 args => exact Avoids.putHandle inner args
    | createDirectory args => exact Avoids.createDirectoryHandle args
    | setMetadata args => exact Avoids.setMetadataHandle args
    | list args => exact Avoids.listingHandle args
  · split <;> exact trivial
  · exact .fail _

/-- **A client's side of a stream.** -/
theorem Avoids.sendImpl (inner : SessionCommandInner) : ∀ request : Request,
    Avoids (S := H.sig) Op.Exceeds (request.sendImpl inner : Act H RequestResult)
  | .get job => Avoids.getSend inner job
  | .put job => Avoids.putSend inner job
  | .createDirectory job => Avoids.createDirectorySend inner job
  | .setMetadata job => Avoids.setMetadataSend inner job
  | .list job recurse => Avoids.listingSend inner job recurse

end Sides

/-! ## A client's jobs -/

/-- Does what is to be done for a job in the end. -/
def PostAction.perform {H : Host} (inner : SessionCommandInner) : PostAction → Act H RequestResult
  | .send request => request.sendImpl inner
  | .setPermissions path mode => do
    let _ ← Act.ofExcept .io (← Fs.metadata path)
    Act.ofExcept .io (← Fs.setPermissions path mode)
    return .default
  | .nothing => return .default

/-- What is done for a job in one of the phases, on a stream. -/
def runRequest {H : Host} (inner : SessionCommandInner) (copySpec : CopyJobSpec) (pass : TransferPhase)
    (recurse : Bool) :
    Act H RequestResult :=
  match pass with
  | .pre => (clientSender copySpec .pre recurse).sendImpl inner
  | .transfer => (clientSender copySpec .transfer recurse).sendImpl inner
  | .post => (managePostTransferRequest copySpec recurse).perform inner

/-- The modes a step applies have no other bits; a local directory is made without any. -/
def RunStep.Confines (H : Host) (inner : SessionCommandInner) (recurse : Bool) : RunStep → Prop
  | directory _ _ => True
  | request job phase _ => Qcp.Confines (runRequest inner job phase recurse : Act H RequestResult)

/-- **No run over these jobs applies a mode with other bits**, whatever comes of its requests. -/
def KeepsModes (H : Host) (inner : SessionCommandInner) (recurse : Bool) (jobs : List CopyJobSpec) : Prop :=
  ∀ (σ : Type) (R : Runner σ) (w : σ), ∀ e ∈ (processFileTransfers R jobs ⟨w, []⟩).2.steps, e.Confines H inner recurse

/-- The mode that the job asks for in the end can be applied. -/
def CopyJobSpec.Modest (job : CopyJobSpec) : Prop :=
  job.finishes = true → job.destination.userAtHost = none → ∀ mode, job.mode = some mode → Confined mode

section Jobs

variable {H : Host} {inner : SessionCommandInner} {recurse : Bool}

theorem confines_sendImpl (request : Request) : Confines (request.sendImpl inner : Act H RequestResult) :=
  confines_of_avoids (Avoids.sendImpl inner request)

theorem confines_before_post (job : CopyJobSpec) (phase : TransferPhase) (h : phase ≠ .post) :
    Confines (runRequest inner job phase recurse : Act H RequestResult) := by
  cases phase with
  | pre => exact confines_sendImpl (clientSender job .pre recurse)
  | transfer => exact confines_sendImpl (clientSender job .transfer recurse)
  | post => exact absurd rfl h

theorem avoids_setPermissions (path : Text) (mode : UInt32) (h : Confined mode) :
    Avoids (S := H.sig) Op.Exceeds ((PostAction.setPermissions path mode).perform inner : Act H RequestResult) := by
  have set : Avoids (S := H.sig) Op.Exceeds (Fs.setPermissions path mode : Act H _) :=
    .call (not_exceeds_of_some rfl h)
  refine .then (Avoids.asked (.metadata path) rfl) fun r => .then (Avoids.ofExcept r) fun _ => ?_
  exact .then set fun r => .then (Avoids.ofExcept r) fun _ => .pure _

/-- Where there is something it is given the mode. -/
theorem steps_setPermissions (inner : SessionCommandInner) (path : Text) (mode : UInt32) :
    ∃ c : Proc.Config H.sig (Except Err RequestResult),
      Steps (((PostAction.setPermissions path mode).perform inner : Act H RequestResult),
        Local.init (allOf .directory)) c ∧
      ⟨.setPermissions path mode, .ok ()⟩ ∈ c.2.done := by
  let info : Metadata := ⟨.directory, 0, 0o755, none, none⟩
  have hinfo : H.sem (allOf .directory) (.metadata path) (.ok info) (allOf .directory) :=
    ⟨rfl, fun m hm => by cases hm; exact ⟨_, rfl, rfl⟩⟩
  have hset : H.sem (allOf .directory) (.setPermissions path mode) (.ok ())
      ((allOf .directory).put (H.place path) ⟨{ info with permissions := mode }, []⟩) := ⟨_, rfl, rfl⟩
  have hasked := Gives.asked (s := Local.init (S := H.sig) (allOf .directory)) hinfo
  refine ⟨_, hasked.steps (Gives.steps (Gives.pure info _) (Gives.steps (Gives.asked hset) .refl)), ?_⟩
  rw [done_ask]
  exact List.mem_append_right _ (List.mem_singleton_self _)

theorem confines_setPermissions_iff (path : Text) (mode : UInt32) :
    Confines ((PostAction.setPermissions path mode).perform inner : Act H RequestResult) ↔ Confined mode := by
  constructor
  · intro h
    obtain ⟨c, hs, he⟩ := steps_setPermissions (H := H) inner path mode
    exact h _ c hs _ he mode rfl
  · intro h
    exact confines_of_avoids (avoids_setPermissions path mode h)

/-- **The mode of a directory that is finished is applied as it is**, if the directory is a local one. -/
theorem confines_post_iff (job : CopyJobSpec) (hf : job.finishes = true) :
    Confines (runRequest inner job .post recurse : Act H RequestResult) ↔ job.Modest := by
  have hnothing : Confines (PostAction.nothing.perform inner : Act H RequestResult) :=
    confines_of_avoids (Avoids.pure _)
  unfold runRequest managePostTransferRequest CopyJobSpec.Modest
  cases hd : job.destination.userAtHost with
  | some host =>
    simp only [Option.isSome_some, true_and, if_true]
    refine iff_of_true ?_ fun _ h => by cases h
    split
    · exact confines_sendImpl (clientSender job .post recurse)
    · exact hnothing
  | none =>
    simp only [Option.isSome_none, Bool.false_eq_true, false_and, if_false]
    cases hm : job.mode with
    | none => exact iff_of_true hnothing fun _ _ mode h => by cases h
    | some mode =>
      simp only [confines_setPermissions_iff]
      constructor
      · intro h _ _ mode' hmode
        cases hmode
        exact h
      · intro h
        exact h hf trivial mode rfl

/-- **Which jobs are such that no run over them applies other bits.** -/
theorem keepsModes_iff (jobs : List CopyJobSpec) :
    KeepsModes H inner recurse jobs ↔ (1 < jobs.length → ∀ job ∈ jobs, job.Modest) := by
  constructor
  · intro h hlen job hj hf
    -- in a run to which nothing happens each such job is finished
    obtain ⟨transfers, posts, hsteps, -, hposts, -, hall⟩ := processFileTransfers_steps smooth jobs ()
    have hmem : job ∈ posts.map RunStep.job := by
      rw [hall fun _ => rfl, if_pos hlen, List.mem_filter]
      exact ⟨List.mem_reverse.2 hj, hf⟩
    obtain ⟨e, he, rfl⟩ := List.mem_map.1 hmem
    have hc := h Unit smooth () e (hsteps ▸ List.mem_append_right _ he)
    have hpost := hposts e he
    cases e with
    | directory j made => cases hpost
    | request j phase outcome =>
      cases phase with
      | pre => cases hpost
      | transfer => cases hpost
      | post => exact (confines_post_iff j hf).1 hc hf
  · intro h σ R w e he
    obtain ⟨transfers, posts, hsteps, htransfers, hposts, hprefix, -⟩ := processFileTransfers_steps R jobs w
    rw [hsteps] at he
    rcases List.mem_append.1 he with he | he
    · have hnot := htransfers e he
      cases e with
      | directory j made => exact trivial
      | request j phase outcome =>
        apply confines_before_post
        rintro rfl
        cases hnot
    · have hmem := hprefix.subset (List.mem_map_of_mem he)
      have hpost := hposts e he
      split at hmem
      · rename_i hlen
        obtain ⟨hj, hf⟩ := List.mem_filter.1 hmem
        cases e with
        | directory j made => exact trivial
        | request j phase outcome =>
          cases phase with
          | pre => cases hpost
          | transfer => cases hpost
          | post => exact (confines_post_iff j hf).2 (h hlen j (List.mem_reverse.1 hj))
      · cases hmem

end Jobs

/-! ## Listings -/

/-- The mode of an entry of a listing: the first there is, cut off. -/
def ListEntry.mode (item : ListEntry) : Option UInt32 :=
  (findTag item.attributes MetadataAttr.modeBits.toRepr).map fun i => i.coerceUnsigned.toUInt32

/-- The entries that are listed, each with the job it is listed for. -/
def listed (request : CopyJobSpec → Except Text (Option ListData)) (jobsIn : List CopyJobSpec) :
    List (CopyJobSpec × ListEntry) :=
  jobsIn.flatMap fun job =>
    match request job with
    | .ok (some data) => data.entries.map fun item => (job, item)
    | _ => []

/-- **Listings whose modes have no other bits**, as far as they are applied: those of directories, where the metadata
are to be preserved and more than one entry is listed. -/
def ModestListings (request : CopyJobSpec → Except Text (Option ListData)) (jobsIn : List CopyJobSpec) : Prop :=
  1 < (listed request jobsIn).length → ∀ x ∈ listed request jobsIn, x.2.directory = true → x.1.preserve = true →
    x.1.destination.userAtHost = none → ∀ mode, x.2.mode = some mode → Confined mode

/-- There is a job for each entry that is listed. -/
theorem listAll_eq (request : CopyJobSpec → Except Text (Option ListData)) (single : Bool) :
    ∀ (jobs new : List CopyJobSpec), listAll request single jobs = .ok new →
      new = (listed request jobs).map fun x => newJob single x.1 x.2
  | [], new, h => by
    cases h
    rfl
  | job :: jobs, new, h => by
    unfold listAll at h
    obtain ⟨data?, hr, h⟩ := (Configuration.bind_eq_ok _ _ _).1 h
    cases data? with
    | none => cases h
    | some data =>
      obtain ⟨rest, hrest, h⟩ := (Configuration.bind_eq_ok _ _ _).1 h
      cases h
      rw [listAll_eq request single jobs rest hrest]
      simp only [listed, List.flatMap_cons, hr, List.map_append, List.map_map]
      rfl

theorem newJob_modest_iff (single : Bool) (job : CopyJobSpec) (item : ListEntry) : (newJob single job item).Modest ↔
    (item.directory = true → job.preserve = true → job.destination.userAtHost = none →
      ∀ mode, item.mode = some mode → Confined mode) := by
  unfold CopyJobSpec.Modest CopyJobSpec.finishes
  rw [Bool.and_eq_true, and_imp]
  rfl

/-- **No mode with other bits is applied**: by a server, by a client that does what the user asked for, nor by one
that goes on to transfer what was listed. -/
structure ModesConfined (H : Host) (inner : SessionCommandInner) (recurse : Bool) (new : List CopyJobSpec) : Prop where
  served : Confines (handleStream inner : Act H Unit)
  asked : ∀ request : Request, Confines (request.sendImpl inner : Act H RequestResult)
  plain : ∀ jobs : List CopyJobSpec, (∀ job ∈ jobs, job.mode = none) → KeepsModes H inner recurse jobs
  listed : KeepsModes H inner recurse new

/-- **When all modes are confined**: when those of the listings are. -/
theorem modes_confined_iff (H : Host) (inner : SessionCommandInner) (recurse : Bool) (negotiated : Option Compatibility)
    (destMeta : Text → Option FileKind) (request : CopyJobSpec → Except Text (Option ListData))
    (createDirAll : Text → Except Text Unit) (jobsIn new : List CopyJobSpec)
    (h : processRecursiveGet negotiated destMeta request createDirAll jobsIn = .ok new) :
    ModesConfined H inner recurse new ↔ ModestListings request jobsIn := by
  obtain ⟨first, rest, -, hl⟩ := processRecursiveGet_lists negotiated destMeta request createDirAll jobsIn new h
  have hnew := listAll_eq request _ jobsIn new hl
  have hkeeps : KeepsModes H inner recurse new ↔ ModestListings request jobsIn := by
    rw [keepsModes_iff, hnew, List.length_map, List.forall_mem_map]
    simp only [newJob_modest_iff]
    rfl
  rw [← hkeeps]
  constructor
  · intro hc
    exact hc.listed
  · intro hk
    refine ⟨confines_of_avoids (Avoids.handleStream inner), fun request => confines_sendImpl request,
      fun jobs hnone => ?_, hk⟩
    refine (keepsModes_iff jobs).2 fun _ job hj _ _ mode hm => ?_
    rw [hnone job hj] at hm
    cases hm

/-- The job of `qcp -r -p host:src out`. -/
def preservingJob : CopyJobSpec := { plainJob with preserve := true }

/-- A server that lists a directory of this mode, and a file in it. -/
def listsWithMode (mode : UInt32) : CopyJobSpec → Except Text (Option ListData) := fun _ =>
  .ok (some ⟨[⟨"src".toList, true, 0, [MetadataAttr.newMode mode]⟩, ⟨"src/f".toList, false, 0, []⟩], false⟩)

/-- What it is that is transferred then. -/
def preservedJobs (mode : UInt32) : List CopyJobSpec :=
  [newJob false preservingJob ⟨"src".toList, true, 0, [MetadataAttr.newMode mode]⟩,
    newJob false preservingJob ⟨"src/f".toList, false, 0, []⟩]

theorem recursive_get_preserving (mode : UInt32) : processRecursiveGet (some (.level 4)) (fun _ => some .directory)
    (listsWithMode mode) (fun _ => .ok ()) [preservingJob] = .ok (preservedJobs mode) := rfl

theorem modes_confined_iff_plain : ModesConfined anyHost ⟨.level 4, .systemDefault, false⟩ true (preservedJobs 0o755) ↔
    ModestListings (listsWithMode 0o755) [preservingJob] :=
  modes_confined_iff anyHost ⟨.level 4, .systemDefault, false⟩ true (some (.level 4)) (fun _ => some .directory)
    (listsWithMode 0o755) (fun _ => .ok ()) [preservingJob] (preservedJobs 0o755) (recursive_get_preserving 0o755)

/-- **A directory that is listed with set-uid is given set-uid.** -/
theorem not_modes_confined :
    ¬ ∀ (request : CopyJobSpec → Except Text (Option ListData)) (jobsIn new : List CopyJobSpec),
    processRecursiveGet (some (.level 4)) (fun _ => some .directory) request (fun _ => .ok ()) jobsIn = .ok new →
    ModesConfined anyHost ⟨.level 4, .systemDefault, false⟩ true new := by
  intro h
  have hall := h (listsWithMode 0o4755) [preservingJob] _ (recursive_get_preserving 0o4755)
  have hmodest := (keepsModes_iff _).1 hall.listed (by decide) _ List.mem_cons_self
  exact absurd (hmodest rfl rfl 0o4755 rfl) (by decide)

end Qcp
