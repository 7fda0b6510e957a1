import Qcp.Closedown
import Qcp.Delivery
import Qcp.Mirror
import Qcp.OneHost
import Qcp.Overlap
import Qcp.Uploads
/-!
# Client — a client's run, from its command line to its outcome

`run` prepares the jobs, has both channels set up, does what it was asked to, and reads the server's report.  What these
come to is up to a rig; `run_true` says what has gone well when the outcome is success.  `upload_arrives` and
`download_arrives` take this to the worlds: a whole tree is there, or here.
-/
namespace Qcp

open Bare (Bytes Text)
open Posix (Path extend)
open Proc (Pair Local Reaches Gives)
open Walkdir (Root)

/-- What was prepared are the jobs. -/
theorem jobspecs_of_prep {α : Type} {tree : Path → Root} {resolveHostAlias : Text → Option Text}
    {lookupHostByFamily : Text → Except Text α} {args : CliArgs} {r : PrepResult α}
    (h : prep tree resolveHostAlias lookupHostByFamily args = .ok r) :
    jobspecs tree args = .ok (r.fullSuccess, r.jobSpecs) := by
  unfold prep at h
  rcases hj : jobspecs tree args with e | ⟨success, jobs⟩
  · rw [hj] at h
    cases h
  · rw [hj] at h
    cases jobs with
    | nil => cases h
    | cons job jobs =>
      simp only at h
      split at h
      · cases h
      · cases h
        rfl

/-! ## A file that is sent, and one that is fetched -/

/-- A host whose current directory is not where the other files are. -/
def apartHost : Host := ⟨fun p => if p = "./".toList then 1 else 0, 0⟩

def currentDir : World := fun h => if h = 1 then some ⟨⟨.directory, 0, 0o755, none, none⟩, []⟩ else none

def sending : CopyJobSpec := ⟨⟨none, "f".toList⟩, ⟨some "host".toList, "./".toList⟩, "host".toList, false, false, none⟩

/-- A world of one file that is one byte long. -/
def shortFile : World := fun h => if h = 0 then some ⟨⟨.file, 1, 0o644, none, none⟩, [7]⟩ else none

def sendingCommand : Command := .put ⟨"./".toList⟩

/-- What the client says first, and what it says in the end. -/
def sentFirst : Bytes := (Msg.command sendingCommand).enc ++ (Msg.fileHeader (fetchedHeader 1)).enc

def sentLast : Bytes := [7] ++ (Msg.fileTrailer .v1).enc

/-- The client waits twice for consent. -/
theorem client_sends : Reaches (fun c => c.2.taken = [] ∧ c.2.out = sentFirst ∧
      Reaches (fun c => c.2.taken = (Msg.response okResponse).enc ∧ c.2.out = sentFirst ++ sentLast ∧
        Reaches (fun c => (∃ a, c.1 = .ret (.ok a)) ∧
          c.2.taken = (Msg.response okResponse).enc ++ (Msg.response okResponse).enc) c) c)
      (PutHandler.sendImpl (H := oneHost) (withBuffer 1048576) sending, Local.init shortFile) := by
  have hok := Response.readsBack_of_fits okResponse (by decide)
  refine Gives.reaches (Gives.openWithMeta (H := oneHost) (n := ⟨⟨.file, 1, 0o644, none, none⟩, [7]⟩) rfl rfl) ?_
  apply Gives.reaches (Gives.pure _ _)
  simp only [Metadata.isDir, reduceCtorEq, decide_false, Bool.false_eq_true, if_false]
  apply Gives.reaches (Gives.pure _ _)
  apply Gives.reaches (Gives.writer (F := Command.form) (a := sendingCommand) (by decide) rfl)
  apply Gives.reaches Gives.flushed
  apply Gives.reaches (Gives.pure "f".toList _)
  apply Gives.reaches (Gives.writer (F := FileHeader.form) (a := fetchedHeader 1) (by decide) rfl)
  refine Reaches.now ⟨rfl, rfl, ?_⟩
  apply Gives.reaches (Gives.reader (by decide) hok rfl)
  apply Gives.reaches (Gives.pure _ _)
  refine Gives.reaches (Gives.copyOut (H := oneHost) (h := 0) 1048576 (by decide) (by decide) rfl) ?_
  refine Gives.reaches (Gives.ensure (by decide)) ?_
  apply Gives.reaches (Gives.writer (F := FileTrailer.form) (a := .v1) (by decide) rfl)
  apply Gives.reaches Gives.flushed
  refine Reaches.now ⟨?_, ?_, ?_⟩
  · simp [Proc.Event.read]
    rfl
  · simp
    rfl
  apply Gives.reaches (Gives.reader (by decide) hok rfl)
  refine Gives.reaches (Gives.ensure (by decide)) ?_
  refine Reaches.now ⟨⟨_, rfl⟩, ?_⟩
  simp [Proc.Event.read]
  rfl

/-- A file is received, whose size was announced. -/
theorem reaches_received {H : Host} {α : Type} {P : Proc.Config H.sig (Except Err α) → Prop} {s : Local H.sig}
    {h : Place}
    {n : Node} {len cap : Nat} {bs : Bytes} {k : Except IoError Nat → Act H α} (hbs : bs ≠ [] ∧ bs.length = len)
    (hcap : bs.length ≤ cap) (hs : s.recvLost = false ∧ s.sendLost = false) (hn : s.world h = some n)
    (hk : ∀ (s' : Local H.sig) n', s'.taken = s.taken ++ bs → s'.out = s.out →
      s'.recvLost = false ∧ s'.sendLost = false → s'.world h = some n' → Reaches P (k (.ok bs.length), s')) :
      Reaches P ((copyIn len h cap >>= k : Act H α), s) := by
  obtain ⟨w, hw, hg⟩ := Gives.copyIn hbs.1 hcap hs.1 hn
  rw [← hbs.2]
  exact Gives.reaches hg (hk _ _ (by simp [Proc.Event.read]) (by simp [Proc.Event.wrote]) hs hw)

/-- The server consents twice. -/
theorem server_receives : Reaches (fun c => c.2.taken = sentFirst ∧ c.2.out = (Msg.response okResponse).enc ∧
      Reaches (fun c => c.1 = .ret (.ok ()) ∧ c.2.taken = sentFirst ++ sentLast ∧
        c.2.out = (Msg.response okResponse).enc ++ (Msg.response okResponse).enc) c)
      (handleStream (H := apartHost) (withBuffer 1048576), Local.init currentDir) := by
  refine Gives.reaches (Gives.attempt (Gives.reader (F := Command.form) (a := sendingCommand) (by decide)
    (Command.readsBack_of_fits _ (fun t ht => absurd ht List.not_mem_nil) (by decide)) rfl)) ?_
  have hdir : Host.sem apartHost currentDir (.metadata "./".toList) (.ok ⟨.directory, 0, 0o755, none, none⟩)
      currentDir :=
    ⟨rfl, fun m hm => by cases hm; exact ⟨_, rfl, rfl⟩⟩
  have asked : ∀ s : Local apartHost.sig, s.world = currentDir →
    Gives (Fs.isDir "./".toList : Act apartHost Bool) s true
      (ask (.metadata "./".toList) (.ok ⟨.directory, 0, 0o755, none, none⟩) s.world s) := by
    intro s hs
    rw [← hs] at hdir
    exact Gives.then (Gives.asked hdir) (Gives.pure _ _)
  have hnone : Host.sem apartHost currentDir (.metadata "./f".toList) (.error ⟨.notFound, []⟩) currentDir :=
    ⟨rfl, nofun⟩
  have hnew : Host.sem apartHost currentDir (.openWrite "./f".toList none) (.ok 0)
      (currentDir.put 0 ⟨⟨.file, 0, apartHost.createMode none, none, none⟩, []⟩) := ⟨rfl, _, .created none none, rfl⟩
  -- what is there is a directory, and is asked for twice
  refine Gives.reaches (Gives.then
    (asked _ rfl) (Gives.then (Gives.pure true _) (Gives.then (asked _ rfl) (Gives.pure _ _)))) ?_
  apply Gives.reaches (Gives.reader (F := FileHeader.form) (a := fetchedHeader 1) (by decide)
    (FileHeader.readsBack_of_fits _ (fun t ht => absurd ht List.not_mem_nil) (by decide)) rfl)
  refine Gives.reaches (Gives.createOrTruncate (.error _) hnone nofun hnew) ?_
  apply Gives.reaches (Gives.writer (F := Response.form) (a := okResponse) (by decide) rfl)
  apply Gives.reaches Gives.flushed
  refine Reaches.now ⟨?_, rfl, ?_⟩
  · simp [Proc.Event.read]
    rfl
  have hbs : ([7] : Bytes) ≠ [] ∧ ([7] : Bytes).length = (fetchedHeader 1).toV2.size.toNat := by decide
  have hput := World.put_same currentDir 0 ⟨⟨.file, 0, apartHost.createMode none, none, none⟩, []⟩
  refine reaches_received hbs (by decide) ⟨rfl, rfl⟩ hput fun s' n' ht ho hl hn' => ?_
  apply Gives.reaches (Gives.reader (F := FileTrailer.form) (a := .v1) (by decide)
    (FileTrailer.readsBack_of_fits .v1 (fun t ht => absurd ht List.not_mem_nil) (by decide)) hl.1)
  apply Gives.reaches Gives.flushFile
  apply Gives.reaches (Gives.pure _ _)
  refine Gives.reaches (Gives.updateMetadata hn') ?_
  refine Gives.reaches (Gives.writer (F := Response.form) (a := okResponse) (by decide) ?_) ?_
  · exact hl.2
  refine ⟨_, Gives.flushed, rfl, ?_, ?_⟩
  · simp [Proc.Event.read, ht]
    rfl
  · simp [ho]
    rfl

/-- **A run in which a file is sent.** -/
theorem sending_run : ∃ x : Joint oneHost apartHost, Pair.Reach (PutHandler.sendImpl (withBuffer 1048576) sending)
    (handleStream (withBuffer 1048576)) shortFile currentDir x ∧ x.2.1 = .ret (.ok ()) ∧ ∃ a, x.1.1 = .ret (.ok a) := by
  obtain ⟨c, hc, hct, hco, c', hc', hct', hco', c'', hc'', hret, hct''⟩ := client_sends
  obtain ⟨d, hd, hdt, hdo, d', hd', hret', hdt', hdo'⟩ := server_receives
  have h := Pair.Reach.turns hc hct hd (by rw [hdt, hco]) hc' (by rw [hct', hdo])
  exact ⟨_, (h.right hd' (by rw [hdt', hco'])).left hc'' (by rw [hct'', hdo']), hret', hret⟩

namespace Client

/-! ## The main loop -/

/-- All that a client's run has to do with: what a list of jobs has, listings, both channels and the terminal. -/
structure Rig (σ α : Type) extends Runner σ where
  setupTracing : σ → Except Text Unit × σ
  establishControlChannel : PrepResult α → σ → Except Text (Configuration × Compatibility) × σ
  establishDataChannel : PrepResult α → Configuration → σ → Except Text Unit × σ
  runPre : CopyJobSpec → σ → Except Text RequestResult × σ
  readClosedownReport : σ → Except Text ClosedownReportV1 × σ
  clearDisplay : σ → Except Text Unit × σ

def noListText : Text := "logic error: pre-transfer request did not return List response data".toList

section Run

variable {σ α : Type} (rig : Rig σ α)

/-- Every job's listing, on a stream of its own, and a job for each entry; what fails stops it. -/
def listLoop (singleSourceMkdirMode : Bool) :
    List CopyJobSpec → Progress σ → Except Text (List CopyJobSpec) × Progress σ
  | [], s => (.ok [], s)
  | job :: jobs, s =>
    match rig.openStream s.state with
    | (.error e, w) => (.error e, { s with state := w })
    | (.ok (), w) =>
      match rig.runPre job w with
      | (.error e, w) => (.error e, ⟨w, s.steps ++ [.request job .pre (.error e)]⟩)
      | (.ok result, w) =>
        let s : Progress σ := ⟨w, s.steps ++ [.request job .pre (.ok ⟨result.payloadBytes, 0⟩)]⟩
        match result.list with
        | none => (.error noListText, s)
        | some contents =>
          match listLoop singleSourceMkdirMode jobs s with
          | (.error e, s) => (.error e, s)
          | (.ok newJobs, s) => (.ok (contents.entries.map (newJob singleSourceMkdirMode job) ++ newJobs), s)

def creatingText (dirToCreate : Text) : Text := "while creating local destination directory ".toList ++ dirToCreate

/-- The directory of the special mode; unlike that of a job, no failure to make it is passed over. -/
def createDestination (singleSourceMkdirMode : Bool) (first : CopyJobSpec) (newJobs : List CopyJobSpec)
    (s : Progress σ) :
    Except Text Unit × Progress σ :=
  match singleSourceMkdirMode, newJobs with
  | true, job :: _ =>
    if job.directory then
      match rig.createDirAll first.destination.filename s.state with
      | (.created, w) => (.ok (), ⟨w, s.steps ++ [.directory first true]⟩)
      | (_, w) => (.error (creatingText first.destination.filename), ⟨w, s.steps ++ [.directory first false]⟩)
    else (.ok (), s)
  | _, _ => (.ok (), s)

def processRecursiveGet (compat : Compatibility) (jobsIn : List CopyJobSpec) (s : Progress σ) :
    Except Text (Bool × CommandStats) × Progress σ :=
  if compat.supports .mkdirSetmetaLs = false then (.error unsupportedText, s)
  else
    match jobsIn with
    | [] => (.error "logic error: empty jobs list in recursive GET".toList, s)
    | first :: _ =>
      let (destMeta, w) := rig.metadata first.destination.filename s.state
      let s := { s with state := w }
      match singleSourceMode (fun _ => destMeta) first.destination.filename jobsIn.length with
      | .error e => (.error e, s)
      | .ok single =>
        match listLoop rig single jobsIn s with
        | (.error e, s) => (.error e, s)
        | (.ok newJobs, s) =>
          match createDestination rig single first newJobs s with
          | (.error e, s) => (.error e, s)
          | (.ok (), s) => processFileTransfers rig.toRunner newJobs s

def processJobRequests (compat : Compatibility) (recurse : Bool) (jobsIn : List CopyJobSpec) (s : Progress σ) :
    Except Text (Bool × CommandStats) × Progress σ :=
  if destinationIsRemote jobsIn = false ∧ recurse then processRecursiveGet rig compat jobsIn s
  else processFileTransfers rig.toRunner jobsIn s

def establishingText : Text := "while establishing control channel".toList

/-- The main loop of the client: whether all went well, unless something was fatal. -/
def run (tree : Path → Root) (resolveHostAlias : Text → Option Text) (lookupHostByFamily : Text → Except Text α)
    (args : CliArgs) (dryRun : Bool) (w : σ) : Except Fault Bool × Progress σ :=
  match rig.setupTracing w with
  | (.error e, w) => (.error (.error e), ⟨w, []⟩)
  | (.ok (), w) =>
    match prep tree resolveHostAlias lookupHostByFamily args with
    | .error e => (.error e, ⟨w, []⟩)
    | .ok prepResult =>
      match rig.establishControlChannel prepResult w with
      | (.error _, w) => (.error (.error establishingText), ⟨w, []⟩)
      | (.ok (config, compat), w) =>
        if dryRun then (.ok prepResult.fullSuccess, ⟨w, []⟩)
        else
          match rig.establishDataChannel prepResult config w with
          | (.error e, w) => (.error (.error e), ⟨w, []⟩)
          | (.ok (), w) =>
            match processJobRequests rig compat args.recurse prepResult.jobSpecs ⟨w, []⟩ with
            | (.error e, s) => (.error (.error e), s)
            | (.ok (overallSuccess, _), s) =>
              match rig.readClosedownReport s.state with
              | (.error e, w) => (.error (.error e), { s with state := w })
              | (.ok _, w) =>
                match rig.clearDisplay w with
                | (.error e, w) => (.error (.error e), { s with state := w })
                | (.ok (), w) => (.ok (overallSuccess && prepResult.fullSuccess), { s with state := w })

/-! ## What success takes -/

variable {rig : Rig σ α}

/-- **Each job was listed**, and each entry of its listing is a job. -/
theorem listLoop_ok (single : Bool) : ∀ (jobs : List CopyJobSpec) (s s' : Progress σ) (newJobs : List CopyJobSpec),
    listLoop rig single jobs s = (.ok newJobs, s') → ∃ lists : List ListData, lists.length = jobs.length ∧
      (∀ p ∈ jobs.zip lists, ∃ w w' result, rig.runPre p.1 w = (.ok result, w') ∧ result.list = some p.2) ∧
      newJobs = (jobs.zip lists).flatMap fun p => p.2.entries.map (newJob single p.1)
  | [], s, s', newJobs, h => by
    cases h
    exact ⟨[], rfl, fun p hp => absurd hp List.not_mem_nil, rfl⟩
  | job :: jobs, s, s', newJobs, h => by
    unfold listLoop at h
    rcases ho : rig.openStream s.state with ⟨e | u, w⟩
    · rw [ho] at h
      cases h
    · rw [ho] at h
      simp only at h
      rcases hr : rig.runPre job w with ⟨e | result, w'⟩
      · rw [hr] at h
        cases h
      · rw [hr] at h
        simp only at h
        cases hl : result.list with
        | none =>
          rw [hl] at h
          cases h
        | some contents =>
          rw [hl] at h
          simp only at h
          rcases hrest : listLoop rig single jobs
            ⟨w', s.steps ++ [.request job .pre (.ok ⟨result.payloadBytes, 0⟩)]⟩ with
            ⟨e | rest, s₂⟩
          · rw [hrest] at h
            cases h
          · rw [hrest] at h
            cases h
            obtain ⟨lists, hlen, hall, rfl⟩ := listLoop_ok single jobs _ _ _ hrest
            exact ⟨contents :: lists, congrArg (· + 1) hlen,
              List.forall_mem_cons.2 ⟨⟨w, w', result, hr, hl⟩, hall⟩, rfl⟩

/-- One source stands alone, where there is nothing yet. -/
theorem singleSourceMode_ok {destMeta : Text → Option FileKind} {dest : Text} {jobs : Nat} {single : Bool}
    (h : singleSourceMode destMeta dest jobs = .ok single) :
    single = (destMeta dest).isNone ∧ (single = true → jobs = 1) := by
  unfold singleSourceMode at h
  split at h
  · cases h
  · rename_i hd
    cases h
    rw [hd]
    exact ⟨rfl, nofun⟩
  · rename_i hd
    split at h
    · rename_i hone
      cases h
      rw [hd]
      exact ⟨rfl, fun _ => hone⟩
    · cases h

/-- **A recursive GET that succeeded** transferred what was listed. -/
theorem processRecursiveGet_true {compat : Compatibility} {jobsIn : List CopyJobSpec} {s s' : Progress σ}
    {stats : CommandStats} (h : processRecursiveGet rig compat jobsIn s = (.ok (true, stats), s')) :
    ∃ (single : Bool) (lists : List ListData) (s₀ : Progress σ),
      (∃ first ∈ jobsIn.head?, single = (rig.metadata first.destination.filename s.state).1.isNone) ∧
      (single = true → jobsIn.length = 1) ∧ lists.length = jobsIn.length ∧
      (∀ p ∈ jobsIn.zip lists, ∃ w w' result, rig.runPre p.1 w = (.ok result, w') ∧ result.list = some p.2) ∧
      processFileTransfers rig.toRunner ((jobsIn.zip lists).flatMap fun p => p.2.entries.map (newJob single p.1)) s₀ =
        (.ok (true, stats), s') := by
  unfold processRecursiveGet at h
  split at h
  · cases h
  · cases jobsIn with
    | nil => cases h
    | cons first rest =>
      simp only at h
      split at h
      · cases h
      · rename_i single hsingle
        split at h
        · cases h
        · rename_i newJobs s₁ hlist
          split at h
          · cases h
          · rename_i s₂ _
            obtain ⟨lists, hlen, hall, rfl⟩ := listLoop_ok single _ _ _ _ hlist
            obtain ⟨hnone, hone⟩ := singleSourceMode_ok hsingle
            exact ⟨single, lists, s₂, ⟨first, rfl, hnone⟩, hone, hlen, hall, h⟩

/-- **A run that succeeded**: it had jobs for all that was asked for, and did them. -/
theorem run_true {tree : Path → Root} {resolveHostAlias : Text → Option Text}
    {lookupHostByFamily : Text → Except Text α} {args : CliArgs} {w : σ} {s' : Progress σ}
    (h : run rig tree resolveHostAlias lookupHostByFamily args false w = (.ok true, s')) :
    ∃ (jobs : List CopyJobSpec) (compat : Compatibility) (w₀ : σ) (s : Progress σ) (stats : CommandStats),
      jobspecs tree args = .ok (true, jobs) ∧
      processJobRequests rig compat args.recurse jobs ⟨w₀, []⟩ = (.ok (true, stats), s) ∧ s'.steps = s.steps := by
  unfold run at h
  split at h
  · cases h
  · split at h
    · cases h
    · rename_i prepResult hprep
      split at h
      · cases h
      · rename_i config compat w₂ _
        simp only [Bool.false_eq_true, if_false] at h
        split at h
        · cases h
        · rename_i w₃ _
          split at h
          · cases h
          · rename_i overallSuccess stats s hprocess
            split at h
            · cases h
            · split at h
              · cases h
              · cases hs : overallSuccess && prepResult.fullSuccess with
                | false =>
                  rw [hs] at h
                  cases h
                | true =>
                  rw [hs] at h
                  cases h
                  obtain ⟨rfl, hfull⟩ := Bool.and_eq_true_iff.1 hs
                  refine ⟨prepResult.jobSpecs, compat, w₃, s, stats, ?_, hprocess, rfl⟩
                  rw [← hfull]
                  exact jobspecs_of_prep hprep

/-! ## Nothing has failed -/

theorem listLoop_settled (single : Bool) : ∀ (jobs : List CopyJobSpec) (s s' : Progress σ) (newJobs : List CopyJobSpec),
    listLoop rig single jobs s = (.ok newJobs, s') → ∀ e ∈ s'.steps, e ∈ s.steps ∨ e.failed = false
  | [], s, s', newJobs, h => by
    cases h
    exact fun e he => Or.inl he
  | job :: jobs, s, s', newJobs, h => by
    unfold listLoop at h
    split at h
    · cases h
    · split at h
      · cases h
      · rename_i result w' _
        split at h
        · cases h
        · rename_i contents _
          simp only at h
          split at h
          · cases h
          · rename_i rest s₂ hrest
            cases h
            intro e he
            rcases listLoop_settled single jobs _ _ _ hrest e he with hmem | hf
            · refine (List.mem_append.1 hmem).imp id fun hmem => ?_
              rw [List.mem_singleton.1 hmem]
              rfl
            · exact Or.inr hf

theorem createDestination_settled {single : Bool} {first : CopyJobSpec} {newJobs : List CopyJobSpec} {s s' : Progress σ}
    (h : createDestination rig single first newJobs s = (.ok (), s')) :
    ∀ e ∈ s'.steps, e ∈ s.steps ∨ e.failed = false := by
  have same : s' = s → ∀ e ∈ s'.steps, e ∈ s.steps ∨ e.failed = false := fun hs e he => Or.inl (hs ▸ he)
  unfold createDestination at h
  split at h
  · split at h
    · split at h
      · cases h
        intro e he
        refine (List.mem_append.1 he).imp id fun hmem => ?_
        rw [List.mem_singleton.1 hmem]
        rfl
      · cases h
    · cases h
      exact same rfl
  · cases h
    exact same rfl

theorem processRecursiveGet_settled {compat : Compatibility} {jobsIn : List CopyJobSpec} {s s' : Progress σ}
    {stats : CommandStats} (h : processRecursiveGet rig compat jobsIn s = (.ok (true, stats), s')) :
    ∀ e ∈ s'.steps, e ∈ s.steps ∨ e.failed = false := by
  unfold processRecursiveGet at h
  split at h
  · cases h
  · cases jobsIn with
    | nil => cases h
    | cons first rest =>
      simp only at h
      split at h
      · cases h
      · split at h
        · cases h
        · rename_i hlist
          split at h
          · cases h
          · rename_i hcreate
            intro e he
            rcases success_settled h e he with he | hf
            · rcases createDestination_settled hcreate e he with he | hf
              · exact listLoop_settled _ _ _ _ _ hlist e he
              · exact Or.inr hf
            · exact Or.inr hf

/-- **In a run that succeeded** nothing that was done has failed. -/
theorem run_settled {tree : Path → Root} {resolveHostAlias : Text → Option Text}
    {lookupHostByFamily : Text → Except Text α} {args : CliArgs} {w : σ} {s' : Progress σ}
    (h : run rig tree resolveHostAlias lookupHostByFamily args false w = (.ok true, s')) :
    ∀ e ∈ s'.steps, e.failed = false := by
  obtain ⟨jobs, compat, w₀, s, stats, -, hprocess, hsteps⟩ := run_true h
  intro e he
  rw [hsteps] at he
  unfold processJobRequests at hprocess
  have hempty : e ∉ (⟨w₀, []⟩ : Progress σ).steps := List.not_mem_nil
  split at hprocess
  · exact (processRecursiveGet_settled hprocess e he).resolve_left hempty
  · exact (success_settled hprocess e he).resolve_left hempty

end Run

/-! ## What arrives -/

section Arrives

theorem goes_of_between {sources : List FileSpec} {destination : FileSpec} {job : CopyJobSpec}
    (h : job.Between sources destination) (hs : ∀ s ∈ sources, s.userAtHost = none)
    (hd : destination.userAtHost ≠ none) :
    job.goes .put := by
  obtain ⟨⟨s, hmem, hsource⟩, hdest, -⟩ := h
  refine ⟨hsource.trans (hs s hmem), ?_⟩
  rw [hdest]
  exact Option.isSome_iff_ne_none.2 hd

theorem goes_get_of_between {sources : List FileSpec} {destination : FileSpec} {job : CopyJobSpec}
    (h : job.Between sources destination) (hs : ∀ s ∈ sources, s.userAtHost ≠ none)
    (hd : destination.userAtHost = none) :
    job.goes .get := by
  obtain ⟨⟨s, hmem, hsource⟩, hdest, -⟩ := h
  refine ⟨?_, hdest.trans hd⟩
  rw [hsource]
  exact Option.isSome_iff_ne_none.2 (hs s hmem)

/-- The jobs of a command line all go one way. -/
theorem goes_of_jobspecs {tree : Path → Root} {sources : List FileSpec} {destination : FileSpec}
    {recurse preserve full : Bool} {jobs : List CopyJobSpec}
    (h : jobspecs tree ⟨sources ++ [destination], recurse, preserve⟩ = .ok (full, jobs)) :
    (destination.userAtHost ≠ none → ∀ job ∈ jobs, job.goes .put) ∧
      (destination.userAtHost = none → ∀ job ∈ jobs, job.goes .get) := by
  obtain ⟨ss, d, hc⟩ := checked_of_jobspecs tree _ full jobs h
  obtain ⟨rfl, hd⟩ := List.append_inj' hc.paths rfl
  cases hd
  rcases hc.sides with ⟨hd, hs⟩ | ⟨hd, -, hs⟩
  · exact ⟨fun _ job hj => goes_of_between (hc.between job hj) hs hd, fun hn => absurd hn hd⟩
  · exact ⟨fun hn => absurd hd hn, fun _ job hj => goes_get_of_between (hc.between job hj) hs hd⟩

/-- **What a recursive GET transferred**, if all went well. -/
theorem transferred_of_run {σ α : Type} {rig : Rig σ α} {tree : Path → Root} {resolveHostAlias : Text → Option Text}
    {lookupHostByFamily : Text → Except Text α} {sources : List FileSpec} {destination : FileSpec}
    {preserve full : Bool} {jobs : List CopyJobSpec} {w₀ : σ} {s' : Progress σ} (hd : destination.userAtHost = none)
    (hjobs : jobspecs tree ⟨sources ++ [destination], true, preserve⟩ = .ok (full, jobs))
    (hrun : run rig tree resolveHostAlias lookupHostByFamily ⟨sources ++ [destination], true, preserve⟩ false w₀ =
      (.ok true, s')) :
    ∃ (single : Bool) (lists : List ListData) (transferred : List CopyJobSpec) (s₀ s : Progress σ)
      (stats : CommandStats),
      (∃ first ∈ jobs.head?, ∃ w, single = (rig.metadata first.destination.filename w).1.isNone) ∧
      (single = true → jobs.length = 1) ∧ lists.length = jobs.length ∧
      (∀ p ∈ jobs.zip lists, ∃ w w' result, rig.runPre p.1 w = (.ok result, w') ∧ result.list = some p.2) ∧
      transferred = ((jobs.zip lists).flatMap fun p => p.2.entries.map (newJob single p.1)) ∧
      (∀ job ∈ jobs ++ transferred, job.goes .get) ∧
      processFileTransfers rig.toRunner transferred s₀ = (.ok (true, stats), s) ∧ s'.steps = s.steps := by
  obtain ⟨jobs', compat, w₁, s, stats, hj, hprocess, hsteps⟩ := run_true hrun
  cases hjobs.symm.trans hj
  have hgo := (goes_of_jobspecs hjobs).2 hd
  have hlocal : destinationIsRemote jobs = false := by
    cases jobs with
    | nil => rfl
    | cons first rest =>
      exact Option.isSome_eq_false_iff.2 (Option.isNone_iff_eq_none.2 (hgo first List.mem_cons_self).2)
  unfold processJobRequests at hprocess
  rw [if_pos ⟨hlocal, rfl⟩] at hprocess
  obtain ⟨single, lists, s₀, ⟨first, hfirst, hsingle⟩, hone, hlen, hall, htransfers⟩ :=
    processRecursiveGet_true hprocess
  refine ⟨single, lists, _, s₀, s, stats, ⟨first, hfirst, w₁, hsingle⟩, hone, hlen, hall, rfl, fun job hmem => ?_,
    htransfers, hsteps⟩
  rcases List.mem_append.1 hmem with hmem | hmem
  · exact hgo job hmem
  · obtain ⟨p, hp, hmem⟩ := List.mem_flatMap.1 hmem
    obtain ⟨item, -, rfl⟩ := List.mem_map.1 hmem
    exact hgo p.1 (List.of_mem_zip hp).1

variable (G H : Host) (inner inner' : SessionCommandInner) (u w u' w' : World) (tree : Path → Root)
  (sources : List FileSpec) (destination : FileSpec) (recurse preserve full : Bool) (jobs : List CopyJobSpec)

/-- **An upload that succeeded**: there is all that the sources hold, or each source if they are not looked into,
whatever the servers of earlier streams still do.  Of what two jobs might both change nothing is said, and of what the
server holds besides. -/
theorem upload_arrives {σ α : Type} (rig : Rig σ α) (resolveHostAlias : Text → Option Text)
    (lookupHostByFamily : Text → Except Text α) (w₀ : σ) (s' : Progress σ)
    (hin : inner.config.ioBufferSize ≠ 0) (hin' : inner'.config.ioBufferSize ≠ 0) (hd : destination.userAtHost ≠ none)
    (hjobs : jobspecs tree ⟨sources ++ [destination], recurse, preserve⟩ = .ok (full, jobs))
    (hap : jobs.Pairwise (ApartThere H w)) (lingering : List (Bytes × Proc.Config H.sig (Except Err Unit)))
    (hoverlap : Overlap.Reach (G := G) (H := H) inner inner' recurse jobs u w ⟨⟨.idle u' w', s'.steps⟩, lingering⟩)
    (hrun : run rig tree resolveHostAlias lookupHostByFamily ⟨sources ++ [destination], recurse, preserve⟩ false w₀ =
      (.ok true, s')) :
    if recurse then ∀ s ∈ sources, (tree s.filename).Clean ∧ ∀ ns k, (tree s.filename).Reaches ns k →
      (destination.filename = [] → ns ≠ []) → (nodeJob s destination preserve ⟨ns, k⟩).Uploaded G H u w w'
    else ∀ s ∈ sources, (singleJob destination (1 < sources.length) preserve s).Uploaded G H u w w' := by
  have hreach := overlap_sequential hoverlap (run_settled hrun)
  obtain ⟨jobs', compat, w₁, s, stats, hj, hprocess, hsteps⟩ := run_true hrun
  cases hjobs.symm.trans hj
  have hgo := (goes_of_jobspecs hjobs).1 hd
  obtain ⟨hne, hlocal, hcases⟩ := jobspecs_put tree sources destination recurse preserve true jobs hd hjobs
  -- the first job, if there is one, says that all go there
  have hall : ∀ job ∈ jobs, job.Uploaded G H u w w' := by
    intro job hmem
    unfold processJobRequests at hprocess
    rw [destinationIsRemote_of_goes hmem hgo, if_neg (by simp)] at hprocess
    rw [hsteps] at hreach
    exact put_session_delivers hin hin' hgo hap hreach hprocess job hmem
  rcases hcases with ⟨rfl, hs⟩ | ⟨rfl, hs⟩
  · obtain ⟨hclean, rfl⟩ := recurseSources_ok tree destination preserve sources true jobs hlocal hs
    rw [if_pos rfl]
    exact fun s hmem => ⟨hclean.1 rfl s hmem, fun ns k hr hroot => hall _ (List.mem_flatMap.2
      ⟨s, hmem, (mem_sourceJobs tree destination preserve s _).2 ⟨ns, k, hr, hroot, rfl⟩⟩)⟩
  · obtain ⟨-, rfl⟩ := plainJobs_ok destination (1 < sources.length) preserve hd sources jobs hlocal hs
    rw [if_neg (by simp)]
    exact fun s hmem => hall _ (List.mem_map_of_mem hmem)

/-- A rig that nothing goes wrong with, and whose requests all come to this. -/
def paying (payloadBytes : UInt64) : Rig Unit Unit :=
  { smooth with
    runJob := fun _ _ _ _ => (.ok ⟨payloadBytes, 0⟩, ())
    setupTracing := fun _ => (.ok (), ())
    establishControlChannel := fun _ _ => (.ok (Configuration.systemDefault, .level 4), ())
    establishDataChannel := fun _ _ _ => (.ok (), ())
    runPre := fun _ _ => (.error noListText, ())
    readClosedownReport := fun _ => (.ok ⟨0, 0, 0, 0, 0, 0, 0, []⟩, ())
    clearDisplay := fun _ => (.ok (), ()) }

theorem upload_arrives_short : ∃ (u' w' : World) (steps : List RunStep),
    Session.Reach (G := oneHost) (H := apartHost) (withBuffer 1048576) (withBuffer 1048576) true [sending] shortFile
      currentDir ⟨.idle u' w', steps⟩ ∧
    ∀ s ∈ [(⟨none, "f".toList⟩ : FileSpec)], (Root.leaf true).Clean ∧ ∀ ns k, (Root.leaf true).Reaches ns k →
      (".".toList = [] → ns ≠ []) → (nodeJob s ⟨some "host".toList, ".".toList⟩ false ⟨ns, k⟩).Uploaded oneHost
      apartHost
        shortFile currentDir w' := by
  obtain ⟨x, hx, -, a, ha⟩ := sending_run
  have hreach := Session.reach_idle true (List.mem_singleton_self sending) hx ha
  obtain ⟨lingering, hoverlap⟩ := Overlap.reach_of_session hreach
  exact ⟨_, _, _, hreach, upload_arrives oneHost apartHost (withBuffer 1048576) (withBuffer 1048576) shortFile
    currentDir _ _
    (fun _ => .leaf true) [⟨none, "f".toList⟩] ⟨some "host".toList, ".".toList⟩ true false true [sending]
    (paying a.payloadBytes) (fun _ => none) (fun _ => .ok ()) () ⟨(), _⟩ (by decide) (by decide) (by decide) rfl
    (List.pairwise_singleton _ _) lingering hoverlap rfl⟩

/-- **A download that succeeded**: here is each file that was listed, or each source if nothing was to be listed. -/
theorem download_arrives {σ α : Type} (rig : Rig σ α) (resolveHostAlias : Text → Option Text)
    (lookupHostByFamily : Text → Except Text α) (w₀ : σ) (s' : Progress σ)
    (hin : inner.config.ioBufferSize ≠ 0) (hd : destination.userAtHost = none)
    (hjobs : jobspecs tree ⟨sources ++ [destination], recurse, preserve⟩ = .ok (full, jobs))
    (hrun : run rig tree resolveHostAlias lookupHostByFamily ⟨sources ++ [destination], recurse, preserve⟩ false w₀ =
      (.ok true, s')) :
    ∃ transferred : List CopyJobSpec,
      (if recurse then ∃ (single : Bool) (lists : List ListData), lists.length = jobs.length ∧
        (∀ p ∈ jobs.zip lists, ∃ w w' result, rig.runPre p.1 w = (.ok result, w') ∧ result.list = some p.2) ∧
        transferred = (jobs.zip lists).flatMap fun p => p.2.entries.map (newJob single p.1)
      else transferred = jobs ∧ transferred.map CopyJobSpec.source = sources) ∧
      (transferred.Pairwise (ApartHere G u) → ∀ lingering : List (Bytes × Proc.Config H.sig (Except Err Unit)),
        Overlap.Reach (G := G) (H := H) inner inner' recurse (jobs ++ transferred) u w
          ⟨⟨.idle u' w', s'.steps⟩, lingering⟩ →
        ∀ job ∈ transferred, job.directory = false → job.Downloaded G H u w u') := by
  have hsettled := run_settled hrun
  cases recurse with
  | false =>
    obtain ⟨jobs', compat, w₁, s, stats, hj, hprocess, hsteps⟩ := run_true hrun
    cases hjobs.symm.trans hj
    have hgo := (goes_of_jobspecs hjobs).2 hd
    rw [hsteps] at hsettled ⊢
    unfold processJobRequests at hprocess
    rw [if_neg (by simp)] at hprocess
    refine ⟨jobs, ⟨rfl, ?_⟩, fun hap lingering ho =>
      get_session_delivers hin ?_ hap (overlap_sequential ho hsettled) hprocess⟩
    · obtain ⟨ss, d, hc⟩ := checked_of_jobspecs tree _ true jobs hjobs
      obtain ⟨rfl, -⟩ := List.append_inj' hc.paths rfl
      exact hc.single (by simp)
    · exact fun job hmem => hgo job ((List.mem_append.1 hmem).elim id id)
  | true =>
    obtain ⟨single, lists, transferred, s₀, s, stats, -, -, hlen, hall, rfl, hgo, htransfers, hsteps⟩ :=
      transferred_of_run hd hjobs hrun
    rw [hsteps] at hsettled ⊢
    exact ⟨_, ⟨single, lists, hlen, hall, rfl⟩, fun hap lingering ho =>
      get_session_delivers hin hgo hap (overlap_sequential ho hsettled) htransfers⟩

theorem download_arrives_dated : ∃ (u' w' : World) (steps : List RunStep),
    Session.Reach (G := maskedHost) (H := maskedHost) (atLevel2 1048576) (atLevel2 1048576) false
    ([preserving] ++ [preserving])
      (fun _ => none) (dated [7]) ⟨.idle u' w', steps⟩ ∧
    preserving.Downloaded maskedHost maskedHost (fun _ => none) (dated [7]) u' := by
  obtain ⟨x, hx, -, ⟨a, ha⟩, -⟩ :=
    dated_run [7] [7] 1048576 (datedTrailer 1) (by decide) (by decide) (by decide) (by decide)
    (Or.inr ⟨by decide, by decide, by decide⟩) (by decide) (FileTrailer.forFile_plain _ _ _)
    (fun s n hn => Gives.updateMetadata_changed (c := ⟨some ⟨1000, 0⟩, some ⟨2000, 0⟩, some 0o666, true⟩) hn
      (Changes.collect_toTaggedData (datedInfo 1)) rfl rfl) (List.prefix_refl _)
  have hmem : preserving ∈ [preserving] ++ [preserving] := List.mem_append_left _ (List.mem_singleton_self _)
  have hreach := Session.reach_idle false hmem hx ha
  obtain ⟨lingering, hoverlap⟩ := Overlap.reach_of_session hreach
  obtain ⟨transferred, ht, hall⟩ := download_arrives maskedHost maskedHost (atLevel2 1048576) (atLevel2 1048576)
    (fun _ => none) (dated [7]) _ _ (fun _ => .leaf true) [⟨some "host".toList, "f".toList⟩] ⟨none, "f".toList⟩
      false true true
    [preserving] (paying a.payloadBytes) (fun _ => none) (fun _ => .ok ()) () ⟨(), _⟩ (by decide) rfl rfl rfl
  rw [if_neg (by simp)] at ht
  rw [ht.1] at hall
  exact ⟨_, _, _, hreach, hall (List.pairwise_singleton _ _) lingering hoverlap preserving
    (List.mem_singleton_self _) rfl⟩

end Arrives

end Client

end Qcp

