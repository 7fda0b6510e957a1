import Qcp.Session
/-!
# Phases — a list of jobs, transferred and finished

`processFileTransfers` goes through the jobs once to transfer them, and once more in reverse to finish the
directories.  What the requests come to is up to a runner, whose state may change at every call; a run keeps what it
did, step by step.  `processFileTransfers_disciplined` says in which order, and what is counted.  `posts_prefix` holds
in every run: at most one request in the end for each directory to be finished.  `directories_finished_iff` says when
there is one for each.
-/
namespace Qcp

open Bare (Text)
open Posix (fileName)

/-! ## Requests -/

inductive TransferPhase where
  | pre
  | transfer
  | post
deriving DecidableEq, Repr

/-- What a client sends for a job. -/
def clientSender (copySpec : CopyJobSpec) (phase : TransferPhase) (recurse : Bool) : Request :=
  match phase with
  | .pre => .list copySpec recurse
  | .transfer =>
    if copySpec.source.userAtHost.isSome then .get copySpec
    else if copySpec.directory then .createDirectory copySpec
    else .put copySpec
  | .post => .setMetadata copySpec

/-- What is done for a job once everything is transferred. -/
inductive PostAction where
  | send (request : Request)
  | setPermissions (path : Text) (mode : UInt32)
  | nothing

def managePostTransferRequest (copySpec : CopyJobSpec) (recurse : Bool) : PostAction :=
  let destinationIsRemote := copySpec.destination.userAtHost.isSome
  if destinationIsRemote ∧ copySpec.preserve ∧ copySpec.directory then .send (clientSender copySpec .post recurse)
  else if destinationIsRemote then .nothing
  else
    match copySpec.mode with
    | some mode => .setPermissions copySpec.destination.filename mode
    | none => .nothing

/-- Whether the metadata of what the job makes are to be set at the end. -/
def CopyJobSpec.finishes (job : CopyJobSpec) : Bool := job.directory && job.preserve

/-- What is sent in the end is for a remote directory whose metadata matter. -/
theorem managePostTransferRequest_send_iff (job : CopyJobSpec) (recurse : Bool) (request : Request) :
    managePostTransferRequest job recurse = .send request ↔
      request = .setMetadata job ∧ job.destination.userAtHost.isSome = true ∧ job.finishes = true := by
  unfold managePostTransferRequest CopyJobSpec.finishes
  cases hr : job.destination.userAtHost.isSome <;> cases hp : job.preserve <;> cases hd : job.directory <;>
    simp [clientSender, eq_comm] <;> split <;> simp

inductive CreateOutcome where
  | created
  | alreadyExists
  | failed
deriving DecidableEq, Repr

/-- What is counted of a request. -/
structure CommandStats where
  payloadBytes : UInt64
  peakTransferRate : UInt64
deriving DecidableEq, Repr

def CommandStats.default : CommandStats := ⟨0, 0⟩

/-- All that was counted, and what was counted of one request more. -/
def CommandStats.aggregate (stats result : CommandStats) : CommandStats :=
  ⟨stats.payloadBytes + result.payloadBytes, max stats.peakTransferRate result.peakTransferRate⟩

/-- All that a list of jobs has to do with: the connection, the requests on it, and the local file system. -/
structure Runner (σ : Type) where
  openStream : σ → Except Text Unit × σ
  runJob : CopyJobSpec → Nat → TransferPhase → σ → Except Text CommandStats × σ
  metadata : Text → σ → Option FileKind × σ
  createDirAll : Text → σ → CreateOutcome × σ

/-- What was done for a job, and what came of it. -/
inductive RunStep where
  | directory (job : CopyJobSpec) (made : Bool)
  | request (job : CopyJobSpec) (phase : TransferPhase) (outcome : Except Text CommandStats)

namespace RunStep

def job : RunStep → CopyJobSpec
  | directory job _ | request job _ _ => job

def failed : RunStep → Bool
  | directory _ made => !made
  | request _ _ (.ok _) => false
  | request _ _ (.error _) => true

def isPost : RunStep → Bool
  | request _ .post _ => true
  | _ => false

/-- What is counted of it, if it is a transfer that succeeded. -/
def transferred : RunStep → Option CommandStats
  | request _ .transfer (.ok stats) => some stats
  | _ => none

end RunStep

/-- Where a run is, and what it has done. -/
structure Progress (σ : Type) where
  state : σ
  steps : List RunStep

/-- The longest name to be displayed, in bytes. -/
def longestFilename (jobs : List CopyJobSpec) : Nat :=
  jobs.foldl (fun result j => max result (Bare.Codec.encText ((fileName j.source.filename).getD [])).length) 0

section Run

variable {σ : Type} (R : Runner σ)

/-- One request on a stream of its own; to have no stream is fatal. -/
def request (job : CopyJobSpec) (filenameWidth : Nat) (phase : TransferPhase) (s : Progress σ) :
    Except Text (Except Text CommandStats) × Progress σ :=
  match R.openStream s.state with
  | (.error e, w) => (.error e, { s with state := w })
  | (.ok (), w) =>
    let (result, w) := R.runJob job filenameWidth phase w
    (.ok result, ⟨w, s.steps ++ [.request job phase result]⟩)

/-- A local directory that has to be there; `false` if it cannot be. -/
def makeLocal (path : Text) (w : σ) : Bool × σ :=
  match R.metadata path w with
  | (some kind, w) => (kind ≠ .file, w)
  | (none, w) =>
    let (outcome, w) := R.createDirAll path w
    (outcome ≠ .failed, w)

/-- The transfer phase; what fails stops it. -/
def transferLoop (destinationIsRemote : Bool) (filenameWidth : Nat) :
    List CopyJobSpec → CommandStats → Progress σ → Except Text (Bool × CommandStats) × Progress σ
  | [], stats, s => (.ok (true, stats), s)
  | job :: jobs, stats, s =>
    if destinationIsRemote = false ∧ job.directory then
      let (made, w) := makeLocal R job.destination.filename s.state
      if made then transferLoop destinationIsRemote filenameWidth jobs stats ⟨w, s.steps ++ [.directory job made]⟩
      else (.ok (false, stats), ⟨w, s.steps ++ [.directory job made]⟩)
    else
      match request R job filenameWidth .transfer s with
      | (.error e, s) => (.error e, s)
      | (.ok (.error _), s) => (.ok (false, stats), s)
      | (.ok (.ok result), s) => transferLoop destinationIsRemote filenameWidth jobs (stats.aggregate result) s

/-- The post phase; what fails is told of, and the others go on. -/
def postLoop : List CopyJobSpec → Bool → Progress σ → Except Text Bool × Progress σ
  | [], success, s => (.ok success, s)
  | job :: jobs, success, s =>
    if job.finishes then
      match request R job 0 .post s with
      | (.error e, s) => (.error e, s)
      | (.ok (.error _), s) => postLoop jobs false s
      | (.ok (.ok _), s) => postLoop jobs success s
    else postLoop jobs success s

/-- All jobs go the way of the first. -/
def destinationIsRemote (jobs : List CopyJobSpec) : Bool := jobs.head?.any fun j => j.destination.userAtHost.isSome

def processFileTransfers (jobs : List CopyJobSpec) (s : Progress σ) : Except Text (Bool × CommandStats) × Progress σ :=
  match transferLoop R (destinationIsRemote jobs) (longestFilename jobs) jobs .default s with
  | (.error e, s) => (.error e, s)
  | (.ok (success, stats), s) =>
    if jobs.length > 1 then
      match postLoop R jobs.reverse success s with
      | (.error e, s) => (.error e, s)
      | (.ok success, s) => (.ok (success, stats), s)
    else (.ok (success, stats), s)

/-- The jobs that were asked for in the post phase, in the order of the requests. -/
def Progress.posts (s : Progress σ) : List CopyJobSpec := (s.steps.filter RunStep.isPost).map RunStep.job

/-! ## What may happen -/

/-- **All transfers succeed**, from one state of the runner to another. -/
def AllTransferred (destinationIsRemote : Bool) (filenameWidth : Nat) : List CopyJobSpec → σ → σ → Prop
  | [], w, w' => w' = w
  | job :: jobs, w, w' =>
    if destinationIsRemote = false ∧ job.directory then
      (makeLocal R job.destination.filename w).1 = true ∧
        AllTransferred destinationIsRemote filenameWidth jobs (makeLocal R job.destination.filename w).2 w'
    else ∃ w1 w2 result, R.openStream w = (.ok (), w1) ∧ R.runJob job filenameWidth .transfer w1 = (.ok result, w2) ∧
      AllTransferred destinationIsRemote filenameWidth jobs w2 w'

/-- There is a stream for each of these, one after the other. -/
def StreamsOpen : List CopyJobSpec → σ → Prop
  | [], _ => True
  | job :: jobs, w => ∃ w1, R.openStream w = (.ok (), w1) ∧ StreamsOpen jobs (R.runJob job 0 .post w1).2

/-- There is always a stream. -/
def Runner.Opens : Prop := ∀ w, (R.openStream w).1 = .ok ()

/-- What the transfer phase does for a job. -/
def RunStep.Transfers (destinationIsRemote : Bool) (job : CopyJobSpec) : RunStep → Prop
  | directory j _ => j = job ∧ destinationIsRemote = false ∧ job.directory = true
  | request j phase _ => j = job ∧ phase = .transfer ∧ ¬ (destinationIsRemote = false ∧ job.directory = true)

/-- **What a transfer phase has done**: one thing for each job in turn, up to the first that fails. -/
def Transferred (destinationIsRemote : Bool) : List CopyJobSpec → List RunStep → Prop
  | [], steps => steps = []
  | _ :: _, [] => False
  | job :: jobs, e :: steps => e.Transfers destinationIsRemote job ∧
    if e.failed then steps = [] else Transferred destinationIsRemote jobs steps

/-! ## The two phases -/

section Request

variable {R} {job : CopyJobSpec} {s : Progress σ} {w : σ}

theorem request_of_stream (filenameWidth : Nat) (phase : TransferPhase) (h : R.openStream s.state = (.ok (), w)) :
    request R job filenameWidth phase s = (.ok (R.runJob job filenameWidth phase w).1,
      ⟨(R.runJob job filenameWidth phase w).2,
        s.steps ++ [.request job phase (R.runJob job filenameWidth phase w).1]⟩) := by
  unfold request
  rw [h]

theorem request_of_no_stream (filenameWidth : Nat) (phase : TransferPhase) {e : Text}
    (h : R.openStream s.state = (.error e, w)) :
    request R job filenameWidth phase s = (.error e, { s with state := w }) := by
  unfold request
  rw [h]

theorem streamsOpen_cons_iff (jobs : List CopyJobSpec) {w0 : σ} (h : R.openStream w0 = (.ok (), w)) :
    StreamsOpen R (job :: jobs) w0 ↔ StreamsOpen R jobs (R.runJob job 0 .post w).2 := by
  constructor
  · rintro ⟨w1, h1, hs⟩
    cases h.symm.trans h1
    exact hs
  · exact fun hs => ⟨w, h, hs⟩

theorem Runner.Opens.stream (h : R.Opens) (w : σ) : R.openStream w = (.ok (), (R.openStream w).2) :=
  Prod.ext (h w) rfl

theorem Runner.Opens.streamsOpen (h : R.Opens) : ∀ (jobs : List CopyJobSpec) (w : σ), StreamsOpen R jobs w
  | [], _ => trivial
  | _ :: jobs, w => ⟨_, h.stream w, Runner.Opens.streamsOpen h jobs _⟩

end Request

/-- All that is counted of what was done. -/
def tally (stats : CommandStats) (steps : List RunStep) : CommandStats :=
  (steps.filterMap RunStep.transferred).foldl CommandStats.aggregate stats

theorem transferLoop_of_allTransferred (destinationIsRemote : Bool) (filenameWidth : Nat) :
    ∀ (jobs : List CopyJobSpec) (stats : CommandStats) (s : Progress σ) (w' : σ),
      AllTransferred R destinationIsRemote filenameWidth jobs s.state w' →
      ∃ stats' steps, (∀ e ∈ steps, e.isPost = false) ∧
        transferLoop R destinationIsRemote filenameWidth jobs stats s = (.ok (true, stats'), ⟨w', s.steps ++ steps⟩)
  | [], stats, s, w', h => by
    refine ⟨stats, [], fun r hr => absurd hr List.not_mem_nil, ?_⟩
    cases h
    rw [List.append_nil]
    rfl
  | job :: jobs, stats, s, w', h => by
    unfold AllTransferred at h
    unfold transferLoop
    split at h
    · rename_i hc
      obtain ⟨stats', steps, hall, heq⟩ := transferLoop_of_allTransferred destinationIsRemote filenameWidth jobs stats
        ⟨(makeLocal R job.destination.filename s.state).2, s.steps ++ [.directory job true]⟩ w' h.2
      refine ⟨stats', .directory job true :: steps, List.forall_mem_cons.2 ⟨rfl, hall⟩, ?_⟩
      rw [if_pos hc]
      simp only [h.1, if_true, heq, List.append_assoc, List.singleton_append]
    · rename_i hc
      obtain ⟨w1, w2, result, ho, hr, h⟩ := h
      obtain ⟨stats', steps, hall, heq⟩ := transferLoop_of_allTransferred destinationIsRemote filenameWidth jobs
        (stats.aggregate result) ⟨w2, s.steps ++ [.request job .transfer (.ok result)]⟩ w' h
      refine ⟨stats', .request job .transfer (.ok result) :: steps, List.forall_mem_cons.2 ⟨rfl, hall⟩, ?_⟩
      rw [if_neg hc, request_of_stream filenameWidth .transfer ho, hr]
      simp only [heq, List.append_assoc, List.singleton_append]

/-- **What the transfer phase does**, and what it returns unless there is no stream. -/
theorem transferLoop_steps (destinationIsRemote : Bool) (filenameWidth : Nat) :
    ∀ (jobs : List CopyJobSpec) (stats : CommandStats) (s : Progress σ), ∃ steps, (∀ e ∈ steps, e.isPost = false) ∧
      (transferLoop R destinationIsRemote filenameWidth jobs stats s).2.steps = s.steps ++ steps ∧
      (R.Opens → Transferred destinationIsRemote jobs steps ∧
        (transferLoop R destinationIsRemote filenameWidth jobs stats s).1 =
          .ok (!steps.any RunStep.failed, tally stats steps))
  | [], _, s => ⟨[], fun r hr => absurd hr List.not_mem_nil, (List.append_nil _).symm, fun _ => ⟨rfl, rfl⟩⟩
  | job :: jobs, stats, s => by
    unfold transferLoop
    split
    · rename_i hc
      simp only
      cases hm : (makeLocal R job.destination.filename s.state).1 with
      | true =>
        obtain ⟨steps, hall, heq, hrun⟩ := transferLoop_steps destinationIsRemote filenameWidth jobs stats
          ⟨(makeLocal R job.destination.filename s.state).2, s.steps ++ [.directory job true]⟩
        refine ⟨.directory job true :: steps, List.forall_mem_cons.2 ⟨rfl, hall⟩, ?_, fun ho => ?_⟩
        · simpa using heq
        · exact ⟨⟨⟨rfl, hc⟩, (hrun ho).1⟩, (hrun ho).2⟩
      | false =>
        exact ⟨[.directory job false], fun e he => by rw [List.mem_singleton.1 he]; rfl, rfl,
          fun _ => ⟨⟨⟨rfl, hc⟩, rfl⟩, rfl⟩⟩
    · rename_i hc
      rcases ho : R.openStream s.state with ⟨e | u, w⟩
      · rw [request_of_no_stream filenameWidth .transfer ho]
        refine ⟨[], fun r hr => absurd hr List.not_mem_nil, (List.append_nil _).symm, fun hopen => ?_⟩
        cases ho.symm.trans (hopen.stream s.state)
      · rw [request_of_stream filenameWidth .transfer ho]
        cases hr : (R.runJob job filenameWidth .transfer w).1 with
        | error e =>
          exact ⟨[.request job .transfer (.error e)], fun e he => by rw [List.mem_singleton.1 he]; rfl, rfl,
            fun _ => ⟨⟨⟨rfl, rfl, hc⟩, rfl⟩, rfl⟩⟩
        | ok result =>
          obtain ⟨steps, hall, heq, hrun⟩ := transferLoop_steps destinationIsRemote filenameWidth jobs
            (stats.aggregate result)
            ⟨(R.runJob job filenameWidth .transfer w).2, s.steps ++ [.request job .transfer (.ok result)]⟩
          refine ⟨.request job .transfer (.ok result) :: steps, List.forall_mem_cons.2 ⟨rfl, hall⟩, ?_, fun ho => ?_⟩
          · simpa using heq
          · exact ⟨⟨⟨rfl, rfl, hc⟩, (hrun ho).1⟩, (hrun ho).2⟩

/-- **What the post phase asks for**: the directories to be finished, in order, as long as there are streams. -/
theorem postLoop_steps : ∀ (jobs : List CopyJobSpec) (success : Bool) (s : Progress σ), ∃ steps,
    (∀ e ∈ steps, e.isPost = true) ∧ steps.map RunStep.job <+: jobs.filter CopyJobSpec.finishes ∧
      (steps.map RunStep.job = jobs.filter CopyJobSpec.finishes ↔
        StreamsOpen R (jobs.filter CopyJobSpec.finishes) s.state) ∧
      (postLoop R jobs success s).2.steps = s.steps ++ steps ∧
      (StreamsOpen R (jobs.filter CopyJobSpec.finishes) s.state →
        (postLoop R jobs success s).1 = .ok (success && !steps.any RunStep.failed))
  | [], success, _ => ⟨[], fun r hr => absurd hr List.not_mem_nil, List.prefix_refl _, iff_of_true rfl trivial,
      (List.append_nil _).symm, fun _ => by rw [List.any_nil, Bool.not_false, Bool.and_true]; rfl⟩
  | job :: jobs, success, s => by
    unfold postLoop
    cases hf : job.finishes with
    | false =>
      rw [List.filter_cons_of_neg (by rw [hf]; exact Bool.false_ne_true)]
      exact postLoop_steps jobs success s
    | true =>
      rw [List.filter_cons_of_pos hf, if_pos rfl]
      rcases ho : R.openStream s.state with ⟨e | u, w⟩
      · rw [request_of_no_stream 0 .post ho]
        have hno : ¬ StreamsOpen R (job :: jobs.filter CopyJobSpec.finishes) s.state := by
          rintro ⟨w1, h1, -⟩
          cases ho.symm.trans h1
        exact ⟨[], fun r hr => absurd hr List.not_mem_nil, List.nil_prefix, iff_of_false (by simp) hno,
          (List.append_nil _).symm, fun h => absurd h hno⟩
      · rw [request_of_stream 0 .post ho, streamsOpen_cons_iff _ ho]
        generalize (R.runJob job 0 .post w).2 = w'
        generalize (R.runJob job 0 .post w).1 = outcome
        have hcons : ∀ steps : List RunStep,
            ((RunStep.request job .post outcome :: steps).map RunStep.job = job :: jobs.filter CopyJobSpec.finishes ↔
              steps.map RunStep.job = jobs.filter CopyJobSpec.finishes) := fun steps => by
          rw [List.map_cons, RunStep.job, List.cons.injEq, eq_self_iff_true, true_and]
        cases outcome with
        | error e =>
          obtain ⟨steps, hall, hp, hiff, heq, hok⟩ := postLoop_steps jobs false
            ⟨w', s.steps ++ [.request job .post (.error e)]⟩
          refine ⟨.request job .post (.error e) :: steps, List.forall_mem_cons.2 ⟨rfl, hall⟩,
            List.cons_prefix_cons.2 ⟨rfl, hp⟩, (hcons steps).trans hiff, by simpa using heq, fun ho => ?_⟩
          rw [List.any_cons, RunStep.failed, Bool.true_or, Bool.not_true, Bool.and_false]
          exact hok ho
        | ok result =>
          obtain ⟨steps, hall, hp, hiff, heq, hok⟩ := postLoop_steps jobs success
            ⟨w', s.steps ++ [.request job .post (.ok result)]⟩
          exact ⟨.request job .post (.ok result) :: steps, List.forall_mem_cons.2 ⟨rfl, hall⟩,
            List.cons_prefix_cons.2 ⟨rfl, hp⟩, (hcons steps).trans hiff, by simpa using heq, hok⟩

/-! ## All directories are finished -/

/-- What becomes of the second phase is what becomes of the run. -/
theorem progress_of_postLoop (stats : CommandStats) (r : Except Text Bool × Progress σ) :
    (match r with
      | (.error e, s) => (Except.error e, s)
      | (.ok success, s) => ((Except.ok (success, stats) : Except Text (Bool × CommandStats)), s)).2 = r.2 := by
  obtain ⟨_ | _, s⟩ := r <;> rfl

theorem posts_of_steps {s : Progress σ} {transfers posts : List RunStep} (h : s.steps = transfers ++ posts)
    (ht : ∀ e ∈ transfers, e.isPost = false) (hp : ∀ e ∈ posts, e.isPost = true) : s.posts = posts.map RunStep.job := by
  have hnone : transfers.filter RunStep.isPost = [] :=
    List.filter_eq_nil_iff.2 fun e he => by rw [ht e he]; exact Bool.false_ne_true
  rw [Progress.posts, h, List.filter_append, hnone, List.filter_eq_self.2 hp, List.nil_append]

theorem posts_nil_of_steps {s : Progress σ} (h : ∀ e ∈ s.steps, e.isPost = false) : s.posts = [] := by
  have hnone : s.steps.filter RunStep.isPost = [] :=
    List.filter_eq_nil_iff.2 fun e he => by rw [h e he]; exact Bool.false_ne_true
  rw [Progress.posts, hnone, List.map_nil]

/-- **What a run does**: the transfers, and then requests for the directories to be finished, one for each if there are
streams. -/
theorem processFileTransfers_steps (jobs : List CopyJobSpec) (w : σ) : ∃ transfers posts,
    (processFileTransfers R jobs ⟨w, []⟩).2.steps = transfers ++ posts ∧ (∀ e ∈ transfers, e.isPost = false) ∧
      (∀ e ∈ posts, e.isPost = true) ∧
      posts.map RunStep.job <+: (if 1 < jobs.length then jobs.reverse.filter CopyJobSpec.finishes else []) ∧
      (R.Opens → posts.map RunStep.job = if 1 < jobs.length then jobs.reverse.filter CopyJobSpec.finishes else []) := by
  obtain ⟨transfers, htransfers, heq, hrun⟩ :=
    transferLoop_steps R (destinationIsRemote jobs) (longestFilename jobs) jobs
    .default ⟨w, []⟩
  rw [List.nil_append] at heq
  have hnone : ∀ e ∈ ([] : List RunStep), e.isPost = true := fun e he => absurd he List.not_mem_nil
  unfold processFileTransfers
  rcases ht : transferLoop R (destinationIsRemote jobs) (longestFilename jobs) jobs .default ⟨w, []⟩ with
    ⟨e | ⟨success, stats⟩, s⟩
  · rw [ht] at heq hrun
    refine ⟨transfers, [], ?_, htransfers, hnone, List.nil_prefix, fun ho => ?_⟩
    · rw [List.append_nil]
      exact heq
    · cases (hrun ho).2
  · rw [ht] at heq
    simp only at heq ⊢
    by_cases hlen : 1 < jobs.length
    · obtain ⟨posts, hall, hprefix, hopen, hsteps, -⟩ := postLoop_steps R jobs.reverse success s
      rw [if_pos hlen, if_pos hlen, progress_of_postLoop]
      refine ⟨transfers, posts, ?_, htransfers, hall, hprefix, fun ho => hopen.2 (ho.streamsOpen _ _)⟩
      rw [hsteps, heq]
    · rw [if_neg hlen, if_neg hlen]
      exact ⟨transfers, [], by rw [List.append_nil]; exact heq, htransfers, hnone, List.nil_prefix, fun _ => rfl⟩

/-- **Whatever comes of the requests**, directories are finished at most once, children first, and nothing else is. -/
theorem posts_prefix (jobs : List CopyJobSpec) (w : σ) :
    (processFileTransfers R jobs ⟨w, []⟩).2.posts <+: jobs.reverse.filter CopyJobSpec.finishes := by
  obtain ⟨transfers, posts, hsteps, htransfers, hposts, hprefix, -⟩ := processFileTransfers_steps R jobs w
  rw [posts_of_steps hsteps htransfers hposts]
  apply hprefix.trans
  split
  · exact List.prefix_refl _
  · exact List.nil_prefix

/-- **Every directory is finished once, and nothing else is, exactly when** none stands alone in the list and there are
streams to ask on. -/
theorem directories_finished_iff (jobs : List CopyJobSpec) (w w' : σ)
    (h : AllTransferred R (destinationIsRemote jobs) (longestFilename jobs) jobs w w') :
    ((processFileTransfers R jobs ⟨w, []⟩).2.posts.Perm (jobs.filter CopyJobSpec.finishes)) ↔
      (∀ job ∈ jobs, job.finishes = true → 1 < jobs.length) ∧
        StreamsOpen R (jobs.reverse.filter CopyJobSpec.finishes) w' := by
  obtain ⟨stats, transfers, htransfers, heq⟩ := transferLoop_of_allTransferred R (destinationIsRemote jobs)
    (longestFilename jobs) jobs .default ⟨w, []⟩ w' h
  rw [List.nil_append] at heq
  unfold processFileTransfers
  rw [heq]
  simp only
  by_cases hlen : jobs.length > 1
  · obtain ⟨posts, hall, hprefix, hopen, hsteps, -⟩ := postLoop_steps R jobs.reverse true ⟨w', transfers⟩
    rw [if_pos hlen]
    have hperm : (posts.map RunStep.job).Perm (jobs.filter CopyJobSpec.finishes) ↔
        posts.map RunStep.job = jobs.reverse.filter CopyJobSpec.finishes := by
      have hrev := (List.reverse_perm jobs).filter CopyJobSpec.finishes
      exact ⟨fun hp => hprefix.eq_of_length (hp.trans hrev.symm).length_eq, fun he => he ▸ hrev⟩
    rw [progress_of_postLoop, posts_of_steps hsteps htransfers hall, hperm, hopen]
    exact (and_iff_right fun _ _ _ => hlen).symm
  · rw [if_neg hlen]
    rw [posts_nil_of_steps (s := ⟨w', transfers⟩) htransfers, List.nil_perm, List.filter_eq_nil_iff]
    constructor
    · intro hnone
      refine ⟨fun job hj hf => absurd hf (hnone job hj), ?_⟩
      rw [List.filter_eq_nil_iff.2 fun job hj => hnone job (List.mem_reverse.1 hj)]
      trivial
    · exact fun hall job hj hf => hlen (hall.1 job hj hf)

/-! ## The discipline of a run -/

/-- The payload of the transfers that succeeded. -/
def transferredBytes (steps : List RunStep) : Nat :=
  ((steps.filterMap RunStep.transferred).map fun r => r.payloadBytes.toNat).sum

/-- The best rate of the transfers that succeeded. -/
def transferredPeak (steps : List RunStep) : UInt64 :=
  ((steps.filterMap RunStep.transferred).map CommandStats.peakTransferRate).foldl max 0

/-- **A disciplined run**: what it transferred, what it finished after that, and what it returned. -/
structure Disciplined (jobs : List CopyJobSpec) (success : Bool) (stats : CommandStats)
    (transfers posts : List RunStep) : Prop where
  ofJobs : ∀ e ∈ transfers, e.Transfers (destinationIsRemote jobs) e.job
  inOrder : transfers.map RunStep.job <+: jobs
  stops : ∀ e ∈ transfers.dropLast, e.failed = false
  complete : (∀ e ∈ transfers, e.failed = false) → transfers.map RunStep.job = jobs
  ofPosts : ∀ e ∈ posts, e.isPost = true
  reversed : posts.map RunStep.job = if 1 < jobs.length then jobs.reverse.filter CopyJobSpec.finishes else []
  /-- Once a directory is finished, nothing is done beneath it. -/
  nested : ∀ beneath : CopyJobSpec → CopyJobSpec → Prop, jobs.Pairwise (fun a b => ¬ beneath a b) →
    (transfers ++ posts).Pairwise fun e f => e.isPost = true → ¬ beneath f.job e.job
  success_iff : success = true ↔ ∀ e ∈ transfers ++ posts, e.failed = false
  payload : stats.payloadBytes.toNat = transferredBytes transfers
  peak : stats.peakTransferRate = transferredPeak transfers

theorem RunStep.Transfers.job_eq {destinationIsRemote : Bool} {job : CopyJobSpec} {e : RunStep}
    (h : e.Transfers destinationIsRemote job) : e.job = job := by
  cases e <;> exact h.1

namespace Transferred

variable {destinationIsRemote : Bool}

theorem ofJobs : ∀ {jobs : List CopyJobSpec} {steps : List RunStep}, Transferred destinationIsRemote jobs steps →
    ∀ e ∈ steps, e.Transfers destinationIsRemote e.job
  | [], _, h => by cases h; exact fun e he => absurd he List.not_mem_nil
  | _ :: _, [], h => h.elim
  | _ :: _, e :: steps, ⟨he, h⟩ => by
    refine List.forall_mem_cons.2 ⟨he.job_eq.symm ▸ he, ?_⟩
    split at h
    · cases h; exact fun e he => absurd he List.not_mem_nil
    · exact ofJobs h

theorem inOrder : ∀ {jobs : List CopyJobSpec} {steps : List RunStep}, Transferred destinationIsRemote jobs steps →
    steps.map RunStep.job <+: jobs
  | [], _, h => by cases h; exact List.prefix_refl _
  | _ :: _, [], h => h.elim
  | _ :: _, e :: steps, ⟨he, h⟩ => by
    refine List.cons_prefix_cons.2 ⟨he.job_eq, ?_⟩
    split at h
    · cases h; exact List.nil_prefix
    · exact inOrder h

theorem stops : ∀ {jobs : List CopyJobSpec} {steps : List RunStep}, Transferred destinationIsRemote jobs steps →
    ∀ e ∈ steps.dropLast, e.failed = false
  | [], _, h => by cases h; exact fun e he => absurd he List.not_mem_nil
  | _ :: _, [], h => h.elim
  | _ :: _, [e], _ => fun e he => absurd he List.not_mem_nil
  | _ :: _, e :: f :: steps, ⟨_, h⟩ => by
    rw [List.dropLast_cons_cons]
    split at h
    · cases h
    · rename_i hf
      exact List.forall_mem_cons.2 ⟨Bool.eq_false_iff.2 hf, stops h⟩

theorem complete : ∀ {jobs : List CopyJobSpec} {steps : List RunStep}, Transferred destinationIsRemote jobs steps →
    (∀ e ∈ steps, e.failed = false) → steps.map RunStep.job = jobs
  | [], _, h, _ => by cases h; rfl
  | _ :: _, [], h, _ => h.elim
  | _ :: _, e :: steps, ⟨he, h⟩, hall => by
    obtain ⟨hf, hall⟩ := List.forall_mem_cons.1 hall
    rw [hf, if_neg Bool.false_ne_true] at h
    rw [List.map_cons, he.job_eq, complete h hall]

end Transferred

theorem aggregate_payload : ∀ (rs : List CommandStats) (stats : CommandStats),
    stats.payloadBytes.toNat + (rs.map fun r => r.payloadBytes.toNat).sum < 2 ^ 64 →
    (rs.foldl CommandStats.aggregate stats).payloadBytes.toNat =
      stats.payloadBytes.toNat + (rs.map fun r => r.payloadBytes.toNat).sum
  | [], _, _ => rfl
  | r :: rs, stats, h => by
    rw [List.map_cons, List.sum_cons] at h ⊢
    have hadd : (stats.aggregate r).payloadBytes.toNat = stats.payloadBytes.toNat + r.payloadBytes.toNat := by
      show (stats.payloadBytes + r.payloadBytes).toNat = _
      rw [UInt64.toNat_add, Nat.mod_eq_of_lt (by omega)]
    rw [List.foldl_cons, aggregate_payload rs _ (by omega), hadd, Nat.add_assoc]

theorem aggregate_peak : ∀ (rs : List CommandStats) (stats : CommandStats),
    (rs.foldl CommandStats.aggregate stats).peakTransferRate =
      (rs.map CommandStats.peakTransferRate).foldl max stats.peakTransferRate
  | [], _ => rfl
  | r :: rs, stats => aggregate_peak rs (stats.aggregate r)

theorem transferred_of_isPost {steps : List RunStep} (h : ∀ e ∈ steps, e.isPost = true) :
    steps.filterMap RunStep.transferred = [] := by
  refine List.filterMap_eq_nil_iff.2 fun e he => ?_
  have hpost := h e he
  rcases e with ⟨job, made⟩ | ⟨job, _ | _ | _, outcome⟩ <;> first | rfl | cases hpost

theorem transferredBytes_append {transfers posts : List RunStep} (h : ∀ e ∈ posts, e.isPost = true) :
    transferredBytes (transfers ++ posts) = transferredBytes transfers := by
  unfold transferredBytes
  rw [List.filterMap_append, transferred_of_isPost h, List.append_nil]

theorem disciplined_of {jobs : List CopyJobSpec} {transfers posts : List RunStep}
    (ht : Transferred (destinationIsRemote jobs) jobs transfers) (hnot : ∀ e ∈ transfers, e.isPost = false)
    (hp : ∀ e ∈ posts, e.isPost = true)
    (hrev : posts.map RunStep.job = if 1 < jobs.length then jobs.reverse.filter CopyJobSpec.finishes else [])
    (hfits : transferredBytes transfers < 2 ^ 64) :
    Disciplined jobs (!(transfers ++ posts).any RunStep.failed) (tally .default transfers) transfers posts where
  ofJobs := ht.ofJobs
  inOrder := ht.inOrder
  stops := ht.stops
  complete := ht.complete
  ofPosts := hp
  reversed := hrev
  nested beneath h := by
    have hback : (jobs.reverse.filter CopyJobSpec.finishes).Pairwise fun a b => ¬ beneath b a :=
      (List.pairwise_reverse.2 h).filter _
    have hposts : (posts.map RunStep.job).Pairwise fun a b => ¬ beneath b a := by
      rw [hrev]
      split
      · exact hback
      · exact List.Pairwise.nil
    have hbefore : ∀ e ∈ transfers, ∀ f : RunStep, e.isPost = true → ¬ beneath f.job e.job := fun e he _ hpost => by
      rw [hnot e he] at hpost
      cases hpost
    refine List.pairwise_append.2 ⟨?_, ?_, fun e he f _ => hbefore e he f⟩
    · exact List.Pairwise.imp_of_mem (fun he _ _ => hbefore _ he _) (List.pairwise_of_forall fun _ _ => trivial)
    · apply (List.pairwise_map.1 hposts).imp
      exact fun h _ => h
  success_iff := by
    rw [Bool.not_eq_true', List.any_eq_false]
    simp only [Bool.not_eq_true]
  payload := by
    have hzero : CommandStats.default.payloadBytes.toNat = 0 := rfl
    have := aggregate_payload (transfers.filterMap RunStep.transferred) .default
      (by rw [hzero, Nat.zero_add]; exact hfits)
    rw [hzero, Nat.zero_add] at this
    exact this
  peak := aggregate_peak _ _

/-- **A run is disciplined**, as long as there are streams and what it counts fits a word. -/
theorem processFileTransfers_disciplined (jobs : List CopyJobSpec) (w : σ) (ho : R.Opens)
    (hfits : transferredBytes (processFileTransfers R jobs ⟨w, []⟩).2.steps < 2 ^ 64) :
    ∃ success stats transfers posts, (processFileTransfers R jobs ⟨w, []⟩).1 = .ok (success, stats) ∧
      (processFileTransfers R jobs ⟨w, []⟩).2.steps = transfers ++ posts ∧
      Disciplined jobs success stats transfers posts := by
  obtain ⟨transfers, hnot, hsteps, hrun⟩ := transferLoop_steps R (destinationIsRemote jobs) (longestFilename jobs) jobs
    .default ⟨w, []⟩
  obtain ⟨ht, hret⟩ := hrun ho
  unfold processFileTransfers at hfits ⊢
  generalize transferLoop R (destinationIsRemote jobs) (longestFilename jobs) jobs .default ⟨w, []⟩ = r at *
  obtain ⟨r, s⟩ := r
  cases hret
  rw [List.nil_append] at hsteps
  simp only at hfits hsteps ⊢
  by_cases hlen : jobs.length > 1
  · obtain ⟨posts, hp, -, hiff, hsteps', hret⟩ := postLoop_steps R jobs.reverse (!transfers.any RunStep.failed) s
    have hopen := ho.streamsOpen (jobs.reverse.filter CopyJobSpec.finishes) s.state
    have hall := hret hopen
    rw [if_pos hlen] at hfits ⊢
    generalize postLoop R jobs.reverse (!transfers.any RunStep.failed) s = r at *
    obtain ⟨r, s'⟩ := r
    cases hall
    simp only at hfits hsteps' ⊢
    rw [hsteps', hsteps] at hfits ⊢
    rw [transferredBytes_append hp] at hfits
    refine ⟨_, _, transfers, posts, rfl, rfl, ?_⟩
    rw [← Bool.not_or, ← List.any_append]
    exact disciplined_of ht hnot hp (by rw [if_pos hlen]; exact hiff.2 hopen) hfits
  · rw [if_neg hlen] at hfits ⊢
    simp only at hfits ⊢
    rw [hsteps] at hfits ⊢
    refine ⟨_, _, transfers, [], rfl, (List.append_nil _).symm, ?_⟩
    have hnone : ∀ e ∈ ([] : List RunStep), e.isPost = true := fun e he => absurd he List.not_mem_nil
    have := disciplined_of ht hnot hnone (by rw [if_neg hlen]; rfl) hfits
    rwa [List.append_nil] at this

end Run

/-! ## A directory by itself -/

/-- A runner to which nothing ever happens. -/
def smooth : Runner Unit where
  openStream _ := (.ok (), ())
  runJob _ _ _ _ := (.ok CommandStats.default, ())
  metadata _ _ := (none, ())
  createDirAll _ _ := (.created, ())

/-- The job of a directory that is copied with its metadata. -/
def directoryJob (name : Text) : CopyJobSpec where
  source := ⟨none, name⟩
  destination := ⟨some "host".toList, name⟩
  userAtHost := "host".toList
  preserve := true
  directory := true
  mode := none

theorem allTransferred_smooth (remote : Bool) (filenameWidth : Nat) : ∀ jobs : List CopyJobSpec,
    AllTransferred smooth remote filenameWidth jobs () ()
  | [] => rfl
  | job :: jobs => by
    unfold AllTransferred
    split
    · exact ⟨rfl, allTransferred_smooth remote filenameWidth jobs⟩
    · exact ⟨(), (), CommandStats.default, rfl, rfl, allTransferred_smooth remote filenameWidth jobs⟩

theorem directories_finished_iff_two :
    ((processFileTransfers smooth [directoryJob ['a'], directoryJob ['b']] ⟨(), []⟩).2.posts.Perm
      ([directoryJob ['a'], directoryJob ['b']].filter CopyJobSpec.finishes)) ↔
      (∀ job ∈ [directoryJob ['a'], directoryJob ['b']], job.finishes = true →
        1 < [directoryJob ['a'], directoryJob ['b']].length) ∧
        StreamsOpen smooth ([directoryJob ['a'], directoryJob ['b']].reverse.filter CopyJobSpec.finishes) () :=
  directories_finished_iff smooth [directoryJob ['a'], directoryJob ['b']] () () (allTransferred_smooth _ _ _)

theorem processFileTransfers_disciplined_two : ∃ success stats transfers posts,
    (processFileTransfers smooth [directoryJob ['a'], directoryJob ['b']] ⟨(), []⟩).1 = .ok (success, stats) ∧
      (processFileTransfers smooth [directoryJob ['a'], directoryJob ['b']] ⟨(), []⟩).2.steps = transfers ++ posts ∧
      Disciplined [directoryJob ['a'], directoryJob ['b']] success stats transfers posts :=
  processFileTransfers_disciplined smooth [directoryJob ['a'], directoryJob ['b']] () (fun _ => rfl) (by decide)

/-- **A directory that is all there is to copy is never finished.** -/
theorem not_directories_finished : ¬ ∀ (R : Runner Unit) (jobs : List CopyJobSpec) (w w' : Unit),
    AllTransferred R (destinationIsRemote jobs) (longestFilename jobs) jobs w w' →
    (processFileTransfers R jobs ⟨w, []⟩).2.posts.Perm (jobs.filter CopyJobSpec.finishes) := by
  intro hall
  have h := hall smooth [directoryJob ['a']] () () (allTransferred_smooth _ _ _)
  have hlen := h.length_eq
  exact absurd hlen (by decide)

end Qcp
