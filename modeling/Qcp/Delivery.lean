import Qcp.Preserve
import Qcp.Sessions
/-!
# Delivery — what a session that succeeds has brought about

`success_steps` says what a list of jobs has done when it reports success: each transfer in turn, none of which
failed, and then directories only.  A file that was brought stays, as no later job may change it (`Carried.there_eq`,
`Carried.here_eq`), so that `put_session_delivers` and `get_session_delivers` find all of them in the last worlds.
-/
namespace Qcp

open Bare (Bytes Text)
open Posix (Path push fileName)
open Proc (Pair View Local Steps Task Ok Reaches Gives)
open Frame (frame)

/-! ## Lists of jobs that succeed -/

section Success

variable {σ : Type} {R : Runner σ}

theorem transferLoop_success (destinationIsRemote : Bool) (filenameWidth : Nat) : ∀ (jobs : List CopyJobSpec)
    (stats stats' : CommandStats) (s s' : Progress σ),
    transferLoop R destinationIsRemote filenameWidth jobs stats s = (.ok (true, stats'), s') →
    ∃ transfers, s'.steps = s.steps ++ transfers ∧ transfers.map RunStep.job = jobs ∧
      ∀ e ∈ transfers, e.failed = false ∧ e.Transfers destinationIsRemote e.job
  | [], stats, stats', s, s', h => by
    cases h
    exact ⟨[], (List.append_nil _).symm, rfl, fun e he => absurd he List.not_mem_nil⟩
  | job :: jobs, stats, stats', s, s', h => by
    -- the first step, and those of the rest
    have more : ∀ {e : RunStep} {stats : CommandStats} {w : σ}, e.failed = false → e.Transfers destinationIsRemote job →
        transferLoop R destinationIsRemote filenameWidth jobs stats ⟨w, s.steps ++ [e]⟩ = (.ok (true, stats'), s') →
        ∃ transfers, s'.steps = s.steps ++ transfers ∧ transfers.map RunStep.job = job :: jobs ∧
          ∀ e ∈ transfers, e.failed = false ∧ e.Transfers destinationIsRemote e.job := by
      intro e stats w hf ht h
      obtain ⟨transfers, hs, hm, hall⟩ := transferLoop_success destinationIsRemote filenameWidth jobs _ _ _ _ h
      have hj := ht.job_eq
      refine ⟨e :: transfers, ?_, ?_, List.forall_mem_cons.2 ⟨⟨hf, hj.symm ▸ ht⟩, hall⟩⟩
      · rw [hs, List.append_assoc]
        rfl
      · rw [List.map_cons, hj, hm]
    unfold transferLoop at h
    split at h
    · rename_i hc
      simp only at h
      cases hm : (makeLocal R job.destination.filename s.state).1 with
      | true =>
        rw [hm] at h
        exact more (e := .directory job true) rfl ⟨rfl, hc⟩ h
      | false =>
        rw [hm] at h
        cases h
    · rename_i hc
      rcases ho : R.openStream s.state with ⟨e | u, w⟩
      · rw [request_of_no_stream filenameWidth .transfer ho] at h
        cases h
      · rw [request_of_stream filenameWidth .transfer ho] at h
        cases hr : (R.runJob job filenameWidth .transfer w).1 with
        | error e =>
          rw [hr] at h
          cases h
        | ok result =>
          rw [hr] at h
          exact more (e := .request job .transfer (.ok result)) rfl ⟨rfl, rfl, hc⟩ h

theorem postLoop_success : ∀ (jobs : List CopyJobSpec) (success : Bool) (s s' : Progress σ),
    postLoop R jobs success s = (.ok true, s') → success = true ∧ ∃ posts, s'.steps = s.steps ++ posts ∧
      ∀ e ∈ posts, e.failed = false ∧ e.isPost = true ∧ e.job ∈ jobs ∧ e.job.finishes = true
  | [], success, s, s', h => by
    cases h
    exact ⟨rfl, [], (List.append_nil _).symm, fun e he => absurd he List.not_mem_nil⟩
  | job :: jobs, success, s, s', h => by
    unfold postLoop at h
    split at h
    · rename_i hf
      rcases ho : R.openStream s.state with ⟨e | u, w⟩
      · rw [request_of_no_stream 0 .post ho] at h
        cases h
      · rw [request_of_stream 0 .post ho] at h
        cases hr : (R.runJob job 0 .post w).1 with
        | error e =>
          rw [hr] at h
          cases (postLoop_success jobs false _ _ h).1
        | ok result =>
          rw [hr] at h
          obtain ⟨hs, posts, heq, hall⟩ := postLoop_success jobs success _ _ h
          refine ⟨hs, .request job .post (.ok result) :: posts, ?_,
            List.forall_mem_cons.2 ⟨⟨rfl, rfl, List.mem_cons_self, hf⟩, fun e he => ?_⟩⟩
          · rw [heq, List.append_assoc]
            rfl
          · obtain ⟨hfail, hpost, hmem, hfin⟩ := hall e he
            exact ⟨hfail, hpost, List.mem_cons_of_mem _ hmem, hfin⟩
    · obtain ⟨hs, posts, heq, hall⟩ := postLoop_success jobs success s s' h
      refine ⟨hs, posts, heq, fun e he => ?_⟩
      obtain ⟨hfail, hpost, hmem, hfin⟩ := hall e he
      exact ⟨hfail, hpost, List.mem_cons_of_mem _ hmem, hfin⟩

/-- **What a list of jobs has done that succeeded.** -/
theorem success_steps {jobs : List CopyJobSpec} {s s' : Progress σ} {stats : CommandStats}
    (h : processFileTransfers R jobs s = (.ok (true, stats), s')) :
    ∃ transfers posts, s'.steps = s.steps ++ (transfers ++ posts) ∧ transfers.map RunStep.job = jobs ∧
      (∀ e ∈ transfers, e.failed = false ∧ e.Transfers (destinationIsRemote jobs) e.job) ∧
      ∀ e ∈ posts, e.failed = false ∧ e.isPost = true ∧ e.job ∈ jobs ∧ e.job.finishes = true := by
  unfold processFileTransfers at h
  rcases ht : transferLoop R (destinationIsRemote jobs) (longestFilename jobs) jobs .default s with
    ⟨e | ⟨success, stats₁⟩, s₁⟩
  · rw [ht] at h
    cases h
  · rw [ht] at h
    simp only at h
    have done : success = true → ∀ posts, s'.steps = s₁.steps ++ posts →
        (∀ e ∈ posts, e.failed = false ∧ e.isPost = true ∧ e.job ∈ jobs ∧ e.job.finishes = true) →
        ∃ transfers posts, s'.steps = s.steps ++ (transfers ++ posts) ∧ transfers.map RunStep.job = jobs ∧
          (∀ e ∈ transfers, e.failed = false ∧ e.Transfers (destinationIsRemote jobs) e.job) ∧
          ∀ e ∈ posts, e.failed = false ∧ e.isPost = true ∧ e.job ∈ jobs ∧ e.job.finishes = true := by
      rintro rfl posts hs hp
      obtain ⟨transfers, heq, hm, hall⟩ := transferLoop_success _ _ jobs _ _ _ _ ht
      exact ⟨transfers, posts, by rw [hs, heq, List.append_assoc], hm, hall, hp⟩
    split at h
    · rcases hp : postLoop R jobs.reverse success s₁ with ⟨e | ok, s₂⟩
      · rw [hp] at h
        cases h
      · rw [hp] at h
        cases h
        obtain ⟨hs, posts, heq, hall⟩ := postLoop_success jobs.reverse success s₁ s' hp
        refine done hs posts heq fun e he => ?_
        obtain ⟨hfail, hpost, hmem, hfin⟩ := hall e he
        exact ⟨hfail, hpost, List.mem_reverse.1 hmem, hfin⟩
    · cases h
      exact done rfl [] (List.append_nil _).symm fun e he => absurd he List.not_mem_nil

/-- **None of its steps has failed.** -/
theorem success_settled {jobs : List CopyJobSpec} {s s' : Progress σ} {stats : CommandStats}
    (h : processFileTransfers R jobs s = (.ok (true, stats), s')) : ∀ e ∈ s'.steps, e ∈ s.steps ∨ e.failed = false := by
  obtain ⟨transfers, posts, hs, -, htransfers, hposts⟩ := success_steps h
  intro e he
  rw [hs] at he
  rcases List.mem_append.1 he with he | he
  · exact Or.inl he
  · exact Or.inr ((List.mem_append.1 he).elim (fun he => (htransfers e he).1) fun he => (hposts e he).1)

end Success

/-! ## What stays as it is -/

section Stays

variable {G H : Host} {inner inner' : SessionCommandInner} {recurse : Bool} {jobs : List CopyJobSpec}
  {steps : List RunStep} {a c : World × World} {q : Place}

/-- A step is not one that made a directory here. -/
def RunStep.isRequest : RunStep → Bool
  | directory _ _ => false
  | request _ _ _ => true

/-- **What no job may change of the server's world stays.** -/
theorem Carried.there_eq (h : Carried G H inner inner' recurse jobs steps a c)
    (hq : ∀ e ∈ steps, ¬ e.job.AltersThere H a.2 q) : c.2 q = a.2 q := by
  induction steps generalizing a with
  | nil =>
    cases h
    rfl
  | cons e steps ih =>
    obtain ⟨b, he, h⟩ := h
    obtain ⟨hno, hrest⟩ := List.forall_mem_cons.1 hq
    cases e with
    | directory job made =>
      obtain ⟨-, -, hb⟩ := he
      rw [ih h (by rw [hb]; exact hrest), hb]
    | request job phase outcome =>
      obtain ⟨hj, hp, x, r, hr, -, -, rfl⟩ := he
      obtain ⟨-, hw⟩ := run_footprint hp hr
      rw [ih h fun f hf ha => hrest f hf (ha.of_kept hw.kinds)]
      exact hw.only q hno

/-- **And of the client's**, if there is something, or no directory is made. -/
theorem Carried.here_eq (h : Carried G H inner inner' recurse jobs steps a c)
    (hq : ∀ e ∈ steps, ¬ e.job.AltersHere G a.1 q) (hd : a.1 q ≠ none ∨ ∀ e ∈ steps, e.isRequest = true) :
    c.1 q = a.1 q := by
  induction steps generalizing a with
  | nil =>
    cases h
    rfl
  | cons e steps ih =>
    obtain ⟨b, he, h⟩ := h
    obtain ⟨hno, hrest⟩ := List.forall_mem_cons.1 hq
    have hd' := hd.imp_right fun hall => (List.forall_mem_cons.1 hall).2
    -- the first step leaves it, and so do the others
    have step : KindsKept a.1 b.1 → b.1 q = a.1 q → c.1 q = a.1 q := fun hk hb => by
      rw [ih h (fun f hf ha => hrest f hf (ha.of_kept hk)) (by rw [hb]; exact hd'), hb]
    cases e with
    | directory job made =>
      obtain ⟨-, hm, -⟩ := he
      rcases hd with hsome | hall
      · exact step hm.kindsKept ((hm q id).resolve_right fun hn => hsome hn.1)
      · cases (List.forall_mem_cons.1 hall).1
    | request job phase outcome =>
      obtain ⟨hj, hp, x, r, hr, -, -, rfl⟩ := he
      obtain ⟨hu, -⟩ := run_footprint hp hr
      exact step hu.kinds (hu.only q hno)

theorem Carried.mem_jobs (h : Carried G H inner inner' recurse jobs steps a c) : ∀ e ∈ steps, e.job ∈ jobs := by
  induction steps generalizing a with
  | nil => exact fun e he => absurd he List.not_mem_nil
  | cons e steps ih =>
    obtain ⟨b, he, h⟩ := h
    refine List.forall_mem_cons.2 ⟨?_, ih h⟩
    cases e with
    | directory job made => exact he.1
    | request job phase outcome => exact he.1

theorem Carried.kindsKept_there (h : Carried G H inner inner' recurse jobs steps a c) : KindsKept a.2 c.2 :=
  ((Within.refl jobs a.1 a.2).carried h).there.kinds

theorem Carried.kindsKept_here (h : Carried G H inner inner' recurse jobs steps a c) : KindsKept a.1 c.1 :=
  ((Within.refl jobs a.1 a.2).carried h).kinds

/-- One of the steps, and the worlds before and after it. -/
theorem Carried.split {e : RunStep} {before after : List RunStep}
    (h : Carried G H inner inner' recurse jobs (before ++ e :: after) a c) :
    ∃ b b', Carried G H inner inner' recurse jobs before a b ∧ e.Done G H inner inner' recurse jobs b b' ∧
      Carried G H inner inner' recurse jobs after b' c := by
  obtain ⟨b, hb, b', he, hc⟩ := (carried_append_iff before (e :: after) a c).1 h
  exact ⟨b, b', hb, he, hc⟩

end Stays

/-! ## Jobs that go one way -/

/-- From here to there, or from there to here. -/
def CopyJobSpec.goes (job : CopyJobSpec) : Way → Prop
  | .put => job.source.userAtHost = none ∧ job.destination.userAtHost.isSome = true
  | .get => job.source.userAtHost.isSome = true ∧ job.destination.userAtHost = none

section OneWay

variable {G H : Host} {inner inner' : SessionCommandInner} {recurse : Bool} {jobs : List CopyJobSpec}
    {job : CopyJobSpec}
  {u w : World} {q : Place}

theorem CopyJobSpec.goes.not_altersHere (h : job.goes .put) : ¬ job.AltersHere G u q := by
  rintro (ha | ⟨-, hd, -⟩)
  · unfold clientSender at ha
    simp only [h.1, Option.isSome_none, Bool.false_eq_true, if_false] at ha
    split at ha <;> exact ha
  · have hs := h.2
    rw [hd] at hs
    cases hs

theorem CopyJobSpec.goes.not_altersThere (h : job.goes .get) : ¬ job.AltersThere H w q := by
  rintro (ha | ⟨-, hd, -⟩)
  · unfold clientSender at ha
    simp only [h.1, if_true] at ha
    exact ha
  · rw [h.2] at hd
    cases hd

theorem CopyJobSpec.goes.clientSender_get (h : job.goes .get) : clientSender job .transfer recurse = .get job := by
  unfold clientSender
  simp only [h.1, if_true]

theorem CopyJobSpec.goes.clientSender_put (h : job.goes .put) (hd : job.directory = false) :
    clientSender job .transfer recurse = .put job := by
  unfold clientSender
  simp only [h.1, hd, Option.isSome_none, Bool.false_eq_true, if_false]

theorem CopyJobSpec.goes.clientSender_directory (h : job.goes .put) (hd : job.directory = true) :
    clientSender job .transfer recurse = .createDirectory job := by
  unfold clientSender
  simp only [h.1, hd, Option.isSome_none, Bool.false_eq_true, if_false, if_true]

/-- What has come of an exchange that was counted. -/
theorem RunStep.Done.exchange {stats : CommandStats} {a b : World × World}
    (h : (RunStep.request job .transfer (.ok stats)).Done G H inner inner' recurse jobs a b) :
    ∃ (x : Joint G H) (r : RequestResult),
      Pair.Reach ((clientSender job .transfer recurse).sendImpl inner) (handleStream inner') a.1 a.2 x ∧
      x.1.1 = .ret (.ok r) ∧ b = (x.1.2.world, x.2.2.world) := by
  obtain ⟨-, -, x, r, hr, hx, hcame, rfl⟩ := h
  cases r with
  | error e => exact absurd hcame id
  | ok r => exact ⟨x, r, hr, hx, rfl⟩

/-- **A directory that was made is one.** -/
theorem made_of_done {stats : CommandStats} {a b : World × World}
    (h : (RunStep.request job .transfer (.ok stats)).Done G H inner inner' recurse jobs a b) (hg : job.goes .put)
    (hd : job.directory = true) : b.2.isDir (H.place job.destination.filename) := by
  obtain ⟨x, r, hr, hx, rfl⟩ := h.exchange
  rw [hg.clientSender_directory hd] at hr
  exact (createDirectory_completes hr hx).1.2

/-- **A file that was sent is where it may land.** -/
theorem put_of_done (hin : inner.config.ioBufferSize ≠ 0) (hin' : inner'.config.ioBufferSize ≠ 0) {stats : CommandStats}
    {a b : World × World} (h : (RunStep.request job .transfer (.ok stats)).Done G H inner inner' recurse jobs a b)
    (hg : job.goes .put) (hd : job.directory = false) : ∃ n info q, a.1 (G.place job.source.filename) = some n ∧
      Request.AltersThere H a.2 q (.put job) ∧ b.2 q = some ⟨info, n.content⟩ := by
  obtain ⟨x, r, hr, hx, rfl⟩ := h.exchange
  rw [hg.clientSender_put hd] at hr
  obtain ⟨⟨hsent, n, t, path, q, c, info, hn, ho, -, -, hw⟩, -⟩ := put_completes hr hin hin' hx
  have hne : x.2.2.tried ≠ [] := fun hnil => by
    have hsub := (sent_prefix_tried hr).length_le
    rw [hsent, hnil] at hsub
    exact absurd hsub (by simp)
  exact ⟨n, c.apply info, q, hn, put_opened hr hne (by rw [ho]; exact List.mem_singleton_self _), hw⟩

/-- **A file that was fetched is where it may land**: as much of it as was announced. -/
theorem get_of_done (hin : inner.config.ioBufferSize ≠ 0) {stats : CommandStats} {a b : World × World}
    (h : (RunStep.request job .transfer (.ok stats)).Done G H inner inner' recurse jobs a b) (hg : job.goes .get) :
    ∃ n info q, a.2 (H.place job.source.filename) = some n ∧ Request.AltersHere G a.1 q (.get job) ∧
      b.1 q = some ⟨info, n.content.take n.info.len.toNat⟩ := by
  obtain ⟨x, r, hr, hx, rfl⟩ := h.exchange
  rw [hg.clientSender_get] at hr
  obtain ⟨n, name, hdr, t, payload, tb, ms, he⟩ := get_exchange hr hx
  obtain ⟨hb, htaken, hhr⟩ := he.taken
  obtain ⟨rfl, rfl, cs, hcs, hcase⟩ :=
    he.sends.received (FileHeader.readsBack_of_fits _ (FileHeader.forFile_plain _ _ _))
    hhr (he.bytes _ htaken)
  have hcap : inner.config.ioBufferSize.toNat ≠ 0 := fun h0 => hin (UInt64.toNat_inj.1 h0)
  have hlen := he.stored.whole.resolve_right hcap
  rw [FileHeader.forFile_size] at hlen hcase
  have hpayload : payload = n.content.take n.info.len.toNat := by
    rcases hcase with ⟨-, hp⟩ | ⟨-, -, -, -, hclen, hp⟩
    · -- the trailer was taken from the file, behind the payload
      rw [← hlen]
      exact List.prefix_iff_eq_take.1 (((List.prefix_append _ _).trans hp).trans hcs)
    · obtain ⟨rest, hrest⟩ := hp
      rw [List.append_assoc] at hrest
      obtain ⟨rfl, -⟩ := List.append_inj hrest (hlen.trans hclen.symm)
      rw [← hclen]
      exact List.prefix_iff_eq_take.1 hcs
  obtain ⟨path, q, c, info, ho, -, hw⟩ := he.stored.kept
  rw [hpayload] at hw
  exact ⟨n, c.apply info, q, he.source,
    get_opened hr (by rw [show opens x.1.2.done = _ from ho]; exact List.mem_singleton_self _), hw⟩

end OneWay

/-! ## Lists of jobs that go one way -/

section Delivered

variable {G H : Host} {inner inner' : SessionCommandInner} {recurse : Bool} {all jobs : List CopyJobSpec}
  {u w u' w' : World} {σ : Type} {R : Runner σ} {s₀ s' : Progress σ} {stats : CommandStats}

/-- **A session told by a list of jobs that succeeded**: each job has its step, and those that come after it are for
other jobs, or finish directories. -/
theorem step_of_success (hreach : Session.Reach (G := G) (H := H) inner inner' recurse all u w ⟨.idle u' w', s'.steps⟩)
    (hrun : processFileTransfers R jobs s₀ = (.ok (true, stats), s')) {job : CopyJobSpec} (hj : job ∈ jobs) :
    ∃ (front back : List CopyJobSpec) (before after : List RunStep) (e : RunStep) (b b' : World × World),
      jobs = front ++ job :: back ∧ e.failed = false ∧ e.Transfers (destinationIsRemote jobs) job ∧
      Carried G H inner inner' recurse all (s₀.steps ++ before) (u, w) b ∧ e.Done G H inner inner' recurse all b b' ∧
      Carried G H inner inner' recurse all after b' (u', w') ∧
      (∀ f ∈ before, f.Transfers (destinationIsRemote jobs) f.job) ∧
      ∀ f ∈ after, f.job ∈ back ∨ (f.job ∈ jobs ∧ f.job.finishes = true) := by
  obtain ⟨transfers, posts, hsteps, hmap, htransfers, hposts⟩ := success_steps hrun
  obtain ⟨front, back, rfl⟩ := List.append_of_mem hj
  obtain ⟨before, rest, rfl, hbefore, hrest⟩ := List.map_eq_append_iff.1 hmap
  obtain ⟨e, after, rfl, he, hafter⟩ := List.map_eq_cons_iff.1 hrest
  have hcarried : Carried G H inner inner' recurse all ((s₀.steps ++ before) ++ e :: (after ++ posts)) (u, w)
      (u', w') := by
    have ht : Carried G H inner inner' recurse _ s'.steps (u, w) (u', w') := Session.Told.of_reach hreach
    rw [hsteps, List.append_assoc, List.cons_append, ← List.append_assoc] at ht
    exact ht
  obtain ⟨b, b', hb, hdone, hc⟩ := hcarried.split
  obtain ⟨hf, ht⟩ := htransfers e (by simp)
  rw [he] at ht
  refine ⟨front, back, before, after ++ posts, e, b, b', rfl, hf, ht, hb, hdone, hc, fun f hf => ?_, fun f hf => ?_⟩
  · exact (htransfers f (List.mem_append_left _ hf)).2
  · rcases List.mem_append.1 hf with hf | hf
    · left
      rw [← hafter]
      exact List.mem_map_of_mem hf
    · exact Or.inr (hposts f hf).2.2

/-- Jobs that are apart from this one are what comes after it. -/
theorem apart_of_later {A : CopyJobSpec → CopyJobSpec → Prop} [Std.Symm A] {front back : List CopyJobSpec}
    {job : CopyJobSpec} (hd : job.directory = false) (hap : (front ++ job :: back).Pairwise A) {f : RunStep}
    (hf : f.job ∈ back ∨ (f.job ∈ front ++ job :: back ∧ f.job.finishes = true)) : A job f.job := by
  rcases hf with hf | ⟨hm, hfin⟩
  · exact (List.pairwise_cons.1 (List.pairwise_append.1 hap).2.1).1 _ hf
  · refine hap.forall (List.mem_append_right _ List.mem_cons_self) hm fun he => ?_
    rw [CopyJobSpec.finishes, ← he, hd] at hfin
    cases hfin

/-- A step that transferred was a request, when nothing is made here. -/
theorem request_of_transfers {e : RunStep} {job : CopyJobSpec} {remote : Bool}
    (h : e.Transfers remote job) (hd : remote = true ∨ job.directory = false) :
    e.isRequest = true ∧ (e.failed = false → ∃ stats, e = .request job .transfer (.ok stats)) := by
  cases e with
  | directory j made =>
    obtain ⟨rfl, hr, hj⟩ := h
    rcases hd with hd | hd
    · cases hr.symm.trans hd
    · cases hj.symm.trans hd
  | request j phase outcome =>
    obtain ⟨rfl, rfl, -⟩ := h
    refine ⟨rfl, fun hf => ?_⟩
    cases outcome with
    | error e => cases hf
    | ok stats => exact ⟨stats, rfl⟩

theorem destinationIsRemote_of_goes {job : CopyJobSpec} (hj : job ∈ jobs) (hgo : ∀ job ∈ jobs, job.goes .put) :
    destinationIsRemote jobs = true := by
  cases jobs with
  | nil => cases hj
  | cons first rest => exact (hgo first List.mem_cons_self).2

theorem Carried.kindsKept_step {before : List RunStep} {e : RunStep} {a b b' : World × World}
    (hb : Carried G H inner inner' recurse all before a b) (he : e.Done G H inner inner' recurse all b b') :
    KindsKept a.1 b'.1 ∧ KindsKept a.2 b'.2 := by
  have h : Carried G H inner inner' recurse all (before ++ [e]) a b' :=
    (carried_append_iff _ _ _ _).2 ⟨b, hb, b', he, rfl⟩
  exact ⟨h.kindsKept_here, h.kindsKept_there⟩

end Delivered

/-! ## What is delivered -/

/-- Two jobs for which nothing there is changed twice. -/
def ApartThere (H : Host) (w : World) (a b : CopyJobSpec) : Prop := ∀ q, a.AltersThere H w q → ¬ b.AltersThere H w q

/-- And nothing here. -/
def ApartHere (G : Host) (u : World) (a b : CopyJobSpec) : Prop := ∀ q, a.AltersHere G u q → ¬ b.AltersHere G u q

instance (H : Host) (w : World) : Std.Symm (ApartThere H w) := ⟨fun _ _ h q hb ha => h q ha hb⟩

instance (G : Host) (u : World) : Std.Symm (ApartHere G u) := ⟨fun _ _ h q hb ha => h q ha hb⟩

/-- **What an upload is to bring about**: there is the directory, or a file with what is here, where it may land. -/
def CopyJobSpec.Uploaded (G H : Host) (u w w' : World) (job : CopyJobSpec) : Prop :=
  if job.directory then w'.isDir (H.place job.destination.filename)
  else ∃ n info q, u (G.place job.source.filename) = some n ∧ Request.AltersThere H w q (.put job) ∧
    w' q = some ⟨info, n.content⟩

/-- **What a download is to bring about**: as much of the file as its length says is here, where it may land. -/
def CopyJobSpec.Downloaded (G H : Host) (u w u' : World) (job : CopyJobSpec) : Prop :=
  ∃ n info q, w (H.place job.source.filename) = some n ∧ Request.AltersHere G u q (.get job) ∧
    u' q = some ⟨info, n.content.take n.info.len.toNat⟩

section Delivers

variable {G H : Host} {inner inner' : SessionCommandInner} {recurse : Bool} {all jobs : List CopyJobSpec}
  {u w u' w' : World} {σ : Type} {R : Runner σ} {s₀ s' : Progress σ} {stats : CommandStats}

/-- **When uploads have succeeded everything is there**: in the end each directory is one, and each file is as it was
here when the session began, as long as no two jobs may change the same place. -/
theorem put_session_delivers {w₀ : σ} (hin : inner.config.ioBufferSize ≠ 0) (hin' : inner'.config.ioBufferSize ≠ 0)
    (hgo : ∀ job ∈ jobs, job.goes .put) (hap : jobs.Pairwise (ApartThere H w))
    (hreach : Session.Reach (G := G) (H := H) inner inner' recurse jobs u w ⟨.idle u' w', s'.steps⟩)
    (hrun : processFileTransfers R jobs ⟨w₀, []⟩ = (.ok (true, stats), s')) :
    ∀ job ∈ jobs, job.Uploaded G H u w w' := by
  intro job hj
  obtain ⟨front, back, before, after, e, b, b', rfl, hf, ht, hb, hdone, hc, hbefore, hafter⟩ :=
    step_of_success hreach hrun hj
  rw [List.nil_append] at hb
  have hremote := destinationIsRemote_of_goes hj hgo
  obtain ⟨stats', rfl⟩ := (request_of_transfers ht (Or.inl hremote)).2 hf
  have hkinds := hb.kindsKept_step hdone
  unfold CopyJobSpec.Uploaded
  cases hd : job.directory with
  | true => exact hc.kindsKept_there.isDir (made_of_done hdone (hgo job hj) hd)
  | false =>
    simp only [Bool.false_eq_true, if_false]
    obtain ⟨n, info, q, hn, hq, hw⟩ := put_of_done hin hin' hdone (hgo job hj) hd
    obtain ⟨name, hname, hl⟩ := hq
    have hq : Request.AltersThere H w q (.put job) := ⟨name, hname, hl.of_kept hb.kindsKept_there⟩
    -- nothing has changed here before, and nothing will be there after
    have hsource := hb.here_eq (q := G.place job.source.filename)
      (fun f hf => (hgo _ (hb.mem_jobs f hf)).not_altersHere)
      (Or.inr fun f hf => (request_of_transfers (hbefore f hf) (Or.inl hremote)).1)
    have hstays := hc.there_eq (q := q) fun f hf ha => by
      refine apart_of_later hd hap (hafter f hf) q (Or.inl ?_) (ha.of_kept hkinds.2)
      rw [(hgo job hj).clientSender_put hd]
      exact hq
    exact ⟨n, info, q, hsource.symm.trans hn, hq, hstays.trans hw⟩

/-- **When downloads have succeeded everything is here**: in the end each file is as it was there when the session
began, as long as no two jobs may change the same place.  Other jobs may have been asked for before, as the listings
are. -/
theorem get_session_delivers (hin : inner.config.ioBufferSize ≠ 0) (hgo : ∀ job ∈ all, job.goes .get)
    (hap : jobs.Pairwise (ApartHere G u))
    (hreach : Session.Reach (G := G) (H := H) inner inner' recurse all u w ⟨.idle u' w', s'.steps⟩)
    (hrun : processFileTransfers R jobs s₀ = (.ok (true, stats), s')) :
    ∀ job ∈ jobs, job.directory = false → job.Downloaded G H u w u' := by
  intro job hj hd
  obtain ⟨front, back, before, after, e, b, b', rfl, hf, ht, hb, hdone, hc, -, hafter⟩ := step_of_success hreach hrun hj
  obtain ⟨stats', rfl⟩ := (request_of_transfers ht (Or.inr hd)).2 hf
  have hkinds := hb.kindsKept_step hdone
  have hg := hgo job hdone.1
  obtain ⟨n, info, q, hn, hq, hw⟩ := get_of_done hin hdone hg
  obtain ⟨name, hname, hl⟩ := hq
  have hq : Request.AltersHere G u q (.get job) := ⟨name, hname, hl.of_kept hb.kindsKept_here⟩
  -- nothing has changed there before, and nothing will be here after
  have hsource := hb.there_eq (q := H.place job.source.filename) fun f hf => (hgo _ (hb.mem_jobs f hf)).not_altersThere
  have hstays := hc.here_eq (q := q) (fun f hf ha => by
    refine apart_of_later hd hap (hafter f hf) q (Or.inl ?_) (ha.of_kept hkinds.1)
    rw [hg.clientSender_get]
    exact hq) (Or.inl (by rw [hw]; exact Option.some_ne_none _))
  exact ⟨n, info, q, hsource.symm.trans hn, hq, hstays.trans hw⟩

end Delivers

end Qcp
