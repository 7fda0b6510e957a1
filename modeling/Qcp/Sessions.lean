import Qcp.Footprint
/-!
# Sessions — a list of jobs between a client and its server

A session is idle between two worlds, or busy with one request on a stream; the next stream is there once the client
is done with the last.  `session_footprint` says what may have changed on either host in any state of any session.
`Carried` is a session told by what was done: it turns what is known of one exchange into what holds of the worlds at
the end (`put_session_delivers`, `get_session_delivers`).
-/
namespace Qcp

open Bare (Bytes Text)
open Posix (Path push fileName)
open Proc (Pair View Local Steps Task Ok Avoids)
open Frame (frame)

/-! ## One request -/

/-- **Where a job may change something on the client's side**: where its file may land, or at its directory. -/
def CopyJobSpec.AltersHere (G : Host) (u : World) (q : Place) (job : CopyJobSpec) : Prop :=
  (clientSender job .transfer false).AltersHere G u q ∨
    (job.finishes = true ∧ job.destination.userAtHost = none ∧ q = G.place job.destination.filename)

/-- **And on the server's**: a directory is one there was, or was made. -/
def CopyJobSpec.AltersThere (H : Host) (w : World) (q : Place) (job : CopyJobSpec) : Prop :=
  (clientSender job .transfer false).AltersThere H w q ∨
    (job.finishes = true ∧ job.destination.userAtHost.isSome = true ∧ q = H.place job.destination.filename ∧
      (w q = none ∨ w.isDir q))

theorem Lands.of_kept {H : Host} {w w' : World} {paths : List Path} {q : Place} (h : KindsKept w w')
    (hl : Lands H w' paths q) : Lands H w paths q := ⟨hl.1, fun hd => hl.2 (h.isDir hd)⟩

theorem KindsKept.of_none {w w' : World} (h : KindsKept w w') {q : Place} (hn : w' q = none) : w q = none := by
  cases hw : w q with
  | none => rfl
  | some n =>
    obtain ⟨n', hn', -⟩ := h q n hw
    cases hn.symm.trans hn'

/-- What is a directory now was one, or was nothing. -/
theorem KindsKept.of_isDir {w w' : World} (h : KindsKept w w') {q : Place} (hd : w'.isDir q) :
    w q = none ∨ w.isDir q := by
  cases hw : w q with
  | none => exact Or.inl rfl
  | some n =>
    obtain ⟨n', hn', hk⟩ := h q n hw
    obtain ⟨m, hm, hmd⟩ := hd
    cases hn'.symm.trans hm
    refine Or.inr ⟨n, hw, ?_⟩
    rw [Metadata.isDir, ← hk]
    exact hmd

namespace CopyJobSpec

variable {G H : Host} {u u' w w' : World} {q : Place} {job : CopyJobSpec}

/-- What a job may change later it may change now. -/
theorem AltersHere.of_kept (h : KindsKept u u') (ha : job.AltersHere G u' q) : job.AltersHere G u q := by
  refine ha.imp (fun hr => ?_) id
  cases hc : clientSender job .transfer false with
  | get j =>
    rw [hc] at hr
    obtain ⟨name, hname, hl⟩ := hr
    exact ⟨name, hname, hl.of_kept h⟩
  | _ =>
    rw [hc] at hr
    exact hr

theorem AltersThere.of_kept (h : KindsKept w w') (ha : job.AltersThere H w' q) : job.AltersThere H w q := by
  rcases ha with hr | ⟨hf, hs, hq, hd⟩
  · left
    unfold clientSender at hr ⊢
    simp only at hr ⊢
    split_ifs at hr ⊢
    · exact hr
    · exact ⟨hr.1, h.of_none hr.2⟩
    · obtain ⟨name, hname, hl⟩ := hr
      exact ⟨name, hname, hl.of_kept h⟩
  · exact Or.inr ⟨hf, hs, hq, hd.elim (fun hn => Or.inl (h.of_none hn)) h.of_isDir⟩

end CopyJobSpec

section Requests

variable {G H : Host} {inner inner' : SessionCommandInner} {recurse : Bool} {job : CopyJobSpec} {u w : World}
    {x : Joint G H}

/-- What is done for a local directory in the end: nothing is said. -/
theorem Ok.perform_silent {action : PostAction} (h : ∀ request, action ≠ .send request) (u : World) :
    Ok (Commanding fun _ => False) (fun _ _ => True) (action.perform inner : Act G RequestResult) (View.init u) := by
  have silent : ∀ v : View G.sig, v.tried = [] → Commanding (fun _ => False) v := fun v ht => Or.inl ht
  cases action with
  | send request => exact absurd rfl (h request)
  | nothing => exact Ok.pure (silent _ rfl) trivial
  | setPermissions path mode =>
    apply Ok.then (Ok.metadata (fun _ _ => silent _ rfl) fun r d _ _ => ?_)
    apply Ok.then (Ok.ofExcept (silent _ rfl) fun info _ => ?_)
    apply Ok.then (Ok.asked (silent _ rfl) fun r w' _ => ?_)
    exact ⟨silent _ rfl, Ok.then (Ok.ofExcept (silent _ rfl) fun _ _ => Ok.pure (silent _ rfl) trivial)⟩

theorem Avoids.perform_strays {A : Place → Prop} {action : PostAction} (h : ∀ request, action ≠ .send request)
    (hA : ∀ path mode, action = .setPermissions path mode → A (G.place path)) :
    Avoids (S := G.sig) (fun op => ∃ q, op.Alters G q ∧ ¬ A q) (action.perform inner : Act G RequestResult) := by
  cases action with
  | send request => exact absurd rfl (h request)
  | nothing => exact .pure _
  | setPermissions path mode =>
    have look : Avoids (S := G.sig) (fun op => ∃ q, op.Alters G q ∧ ¬ A q) (Fs.metadata path : Act G _) :=
      Avoids.call (S := G.sig) fun ⟨_, hq, _⟩ => hq
    have set : Avoids (S := G.sig) (fun op => ∃ q, op.Alters G q ∧ ¬ A q) (Fs.setPermissions path mode : Act G _) := by
      apply Avoids.call (S := G.sig)
      rintro ⟨q, rfl, hq⟩
      exact hq (hA path mode rfl)
    refine .then look fun r => .then (Avoids.ofExcept r) fun _ => ?_
    exact .then set fun r => .then (Avoids.ofExcept r) fun _ => .pure _

/-- **What a request for a job may have changed**, whatever has become of it. -/
theorem run_footprint {phase : TransferPhase} (hp : phase = .post → job.finishes = true)
    (hr : Pair.Reach (runRequest inner job phase recurse) (handleStream inner') u w x) :
    Kept (fun q => job.AltersHere G u q) u x.1.2.world ∧ Kept (fun q => job.AltersThere H w q) w x.2.2.world := by
  cases phase with
  | pre =>
    obtain ⟨hu, hw⟩ := request_footprint G H inner inner' (.list job recurse) u w x hr
    exact ⟨hu.mono fun _ h => h.elim, hw.mono fun _ h => h.elim⟩
  | transfer =>
    obtain ⟨hu, hw⟩ := request_footprint G H inner inner' (clientSender job .transfer recurse) u w x hr
    exact ⟨hu.mono fun _ h => Or.inl h, hw.mono fun _ h => Or.inl h⟩
  | post =>
    have hf := hp rfl
    cases ha : managePostTransferRequest job recurse with
    | send request =>
      obtain ⟨rfl, hs, -⟩ := (managePostTransferRequest_send_iff job recurse request).1 ha
      rw [runRequest, ha] at hr
      obtain ⟨hu, hw⟩ := request_footprint G H inner inner' (.setMetadata job) u w x hr
      exact ⟨hu.mono fun _ h => h.elim, hw.mono fun _ h => Or.inr ⟨hf, hs, h.1, Or.inr h.2⟩⟩
    | _ =>
      have hsend : ∀ request, managePostTransferRequest job recurse ≠ .send request := fun request h => by
        rw [ha] at h
        cases h
      have hset : ∀ path mode, managePostTransferRequest job recurse = .setPermissions path mode →
          job.AltersHere G u (G.place path) := by
        intro path mode hpm
        unfold managePostTransferRequest at hpm
        simp only at hpm
        split at hpm
        · cases hpm
        · split at hpm
          · cases hpm
          · rename_i hnot
            split at hpm
            · cases hpm
              exact Or.inr ⟨hf, by simpa using hnot, rfl⟩
            · cases hpm
      have hr : Pair.Reach ((managePostTransferRequest job recurse).perform inner) (handleStream inner') u w x := hr
      obtain ⟨hcs, hss, -⟩ := Pair.reach hr
      have hsilent := (Ok.perform_silent (G := G) hsend u).run hcs
      have honly := (Ok.only_of_avoids (Avoids.perform_strays (A := fun q => job.AltersHere G u q) hsend hset)
        (.refl _ u)).run hcs
      refine ⟨⟨honly, kindsKept_of_steps hcs⟩, ⟨fun q _ => by_contra fun hq => ?_, kindsKept_of_steps hss⟩⟩
      obtain ⟨c, cb, hread, hpre, -⟩ := (Ok.handleStream_alters inner' w).run hss q hq
      exact command_of_commanding hr hsilent (fun _ h => h.elim) hread hpre

end Requests

/-! ## Sessions -/

/-- What a client and its server are at: nothing, or a request on a stream. -/
inductive Stage (G H : Host) where
  | idle (u w : World)
  | busy (job : CopyJobSpec) (phase : TransferPhase) (x : Joint G H)

namespace Stage

variable {G H : Host}

/-- The client's world, as it is. -/
def here : Stage G H → World
  | idle u _ => u
  | busy _ _ x => x.1.2.world

/-- The server's. -/
def there : Stage G H → World
  | idle _ w => w
  | busy _ _ x => x.2.2.world

end Stage

structure Session (G H : Host) where
  stage : Stage G H
  steps : List RunStep

/-- What a request came to, as it is told to the list of jobs. -/
def Came : Except Text CommandStats → Except Err RequestResult → Prop
  | .ok stats, .ok a => stats.payloadBytes = a.payloadBytes
  | .error _, .error _ => True
  | _, _ => False

/-- **But at these places** nothing has changed, except that directories were made where there was nothing. -/
def DirsMade (A : Place → Prop) (u u' : World) : Prop := ∀ q, ¬ A q → u' q = u q ∨ (u q = none ∧ u'.isDir q)

/-- **One step of a session** over these jobs.  A stream is opened when the client is done with the last one; the
server's side of that goes no further here (what it may still do is in `Overlap.Step`). -/
inductive Session.Step {G H : Host} (inner inner' : SessionCommandInner) (recurse : Bool) (jobs : List CopyJobSpec) :
    Session G H → Session G H → Prop where
  | begins (job : CopyJobSpec) (phase : TransferPhase) (u w : World) (steps : List RunStep) (hj : job ∈ jobs)
      (hp : phase = .post → job.finishes = true) : Step inner inner' recurse jobs ⟨.idle u w, steps⟩
        ⟨.busy job phase ((runRequest inner job phase recurse, Local.init u),
          (handleStream inner', Local.init w)), steps⟩
  | moves (job : CopyJobSpec) (phase : TransferPhase) (x x' : Joint G H) (steps : List RunStep) (h : Pair.Step x x') :
      Step inner inner' recurse jobs ⟨.busy job phase x, steps⟩ ⟨.busy job phase x', steps⟩
  | ends (job : CopyJobSpec) (phase : TransferPhase) (x : Joint G H) (steps : List RunStep)
      (r : Except Err RequestResult) (outcome : Except Text CommandStats) (h : x.1.1 = .ret r) (ho : Came outcome r) :
      Step inner inner' recurse jobs ⟨.busy job phase x, steps⟩
        ⟨.idle x.1.2.world x.2.2.world, steps ++ [.request job phase outcome]⟩
  | makes (job : CopyJobSpec) (made : Bool) (u u' w : World) (steps : List RunStep) (hj : job ∈ jobs)
      (hm : DirsMade (fun _ => False) u u') :
        Step inner inner' recurse jobs ⟨.idle u w, steps⟩ ⟨.idle u' w, steps ++ [.directory job made]⟩

/-- The sessions there can be, from two worlds. -/
def Session.Reach {G H : Host} (inner inner' : SessionCommandInner) (recurse : Bool) (jobs : List CopyJobSpec)
    (u w : World) :
    Session G H → Prop :=
  Relation.ReflTransGen (Session.Step inner inner' recurse jobs) ⟨.idle u w, []⟩

theorem DirsMade.kindsKept {u u' : World} (h : DirsMade (fun _ => False) u u') : KindsKept u u' := fun q n hn => by
  rcases h q id with hq | ⟨hq, -⟩
  · exact ⟨n, by rw [hq, hn], rfl⟩
  · cases hq.symm.trans hn

section Sessions

variable {G H : Host} {inner inner' : SessionCommandInner} {recurse : Bool} {jobs : List CopyJobSpec} {u w : World}
  {s s' : Session G H}

/-- **What jobs may change of the client's world**, and of the server's. -/
def Here (G : Host) (jobs : List CopyJobSpec) (u : World) (q : Place) : Prop := ∃ job ∈ jobs, job.AltersHere G u q

def There (H : Host) (jobs : List CopyJobSpec) (w : World) (q : Place) : Prop := ∃ job ∈ jobs, job.AltersThere H w q

/-- Both worlds are as they were but there; the client's has directories more. -/
structure Within (G H : Host) (jobs : List CopyJobSpec) (u w u' w' : World) : Prop where
  here : DirsMade (Here G jobs u) u u'
  kinds : KindsKept u u'
  there : Kept (There H jobs w) w w'

/-- One exchange more. -/
theorem Within.run {u₁ w₁ : World} {job : CopyJobSpec} {phase : TransferPhase} {x : Joint G H}
    (h : Within G H jobs u w u₁ w₁) (hj : job ∈ jobs) (hp : phase = .post → job.finishes = true)
    (hr : Pair.Reach (runRequest inner job phase recurse) (handleStream inner') u₁ w₁ x) :
    Within G H jobs u w x.1.2.world x.2.2.world := by
  obtain ⟨hu, hw⟩ := run_footprint hp hr
  refine ⟨fun q hq => ?_, h.kinds.trans hu.kinds,
    h.there.trans (hw.mono fun q hq => ⟨job, hj, hq.of_kept h.there.kinds⟩)⟩
  have hsame : x.1.2.world q = u₁ q := hu.only q fun ha => hq ⟨job, hj, ha.of_kept h.kinds⟩
  rw [hsame]
  refine (h.here q hq).imp id fun hd => ⟨hd.1, ?_⟩
  obtain ⟨n, hn, hdir⟩ := hd.2
  exact ⟨n, hsame.trans hn, hdir⟩

/-- Directories more. -/
theorem Within.makes {u₁ u₂ w₁ : World} (h : Within G H jobs u w u₁ w₁) (hm : DirsMade (fun _ => False) u₁ u₂) :
    Within G H jobs u w u₂ w₁ := by
  refine ⟨fun q hq => ?_, h.kinds.trans hm.kindsKept, h.there⟩
  rcases hm q id with hs | ⟨hn, hd⟩
  · rw [hs]
    exact (h.here q hq).imp id fun hd => ⟨hd.1, hm.kindsKept.isDir hd.2⟩
  · exact Or.inr ⟨h.kinds.of_none hn, hd⟩

/-- **What was done in a step**, from two worlds to two others. -/
def RunStep.Done (G H : Host) (inner inner' : SessionCommandInner) (recurse : Bool) (jobs : List CopyJobSpec) :
    RunStep → World × World → World × World → Prop
  | directory job _, a, b => job ∈ jobs ∧ DirsMade (fun _ => False) a.1 b.1 ∧ b.2 = a.2
  | request job phase outcome, a, b => job ∈ jobs ∧ (phase = .post → job.finishes = true) ∧
      ∃ (x : Joint G H) (r : Except Err RequestResult),
        Pair.Reach (runRequest inner job phase recurse) (handleStream inner') a.1 a.2 x ∧
        x.1.1 = .ret r ∧ Came outcome r ∧ b = (x.1.2.world, x.2.2.world)

/-- **A session told by its steps.** -/
def Carried (G H : Host) (inner inner' : SessionCommandInner) (recurse : Bool) (jobs : List CopyJobSpec) :
    List RunStep → World × World → World × World → Prop
  | [], a, c => c = a
  | e :: steps, a, c => ∃ b, e.Done G H inner inner' recurse jobs a b ∧ Carried G H inner inner' recurse jobs steps b c

theorem carried_append_iff (steps more : List RunStep) (a c : World × World) :
    Carried G H inner inner' recurse jobs (steps ++ more) a c ↔
      ∃ b, Carried G H inner inner' recurse jobs steps a b ∧ Carried G H inner inner' recurse jobs more b c := by
  induction steps generalizing a with
  | nil =>
    constructor
    · exact fun h => ⟨a, rfl, h⟩
    · rintro ⟨b, rfl, h⟩
      exact h
  | cons e steps ih =>
    constructor
    · rintro ⟨b, he, h⟩
      obtain ⟨b', h1, h2⟩ := (ih b).1 h
      exact ⟨b', ⟨b, he, h1⟩, h2⟩
    · rintro ⟨b', ⟨b, he, h1⟩, h2⟩
      exact ⟨b, he, (ih b).2 ⟨b', h1, h2⟩⟩

/-- What was done before an exchange, and what that is at. -/
def Session.Told (inner inner' : SessionCommandInner) (recurse : Bool) (jobs : List CopyJobSpec) (u w : World)
    (s : Session G H) : Prop :=
  match s.stage with
  | .idle u' w' => Carried G H inner inner' recurse jobs s.steps (u, w) (u', w')
  | .busy job phase x => job ∈ jobs ∧ (phase = .post → job.finishes = true) ∧ ∃ u₁ w₁,
      Carried G H inner inner' recurse jobs s.steps (u, w) (u₁, w₁) ∧
      Pair.Reach (runRequest inner job phase recurse) (handleStream inner') u₁ w₁ x

theorem Session.Told.step (h : s.Told inner inner' recurse jobs u w)
    (hs : Session.Step inner inner' recurse jobs s s') :
    s'.Told inner inner' recurse jobs u w := by
  cases hs with
  | begins job phase u₁ w₁ steps hj hp => exact ⟨hj, hp, u₁, w₁, h, .refl⟩
  | moves job phase x x' steps hx =>
    obtain ⟨hj, hp, u₁, w₁, hc, hr⟩ := h
    exact ⟨hj, hp, u₁, w₁, hc, hr.tail hx⟩
  | ends job phase x steps r outcome hx ho =>
    obtain ⟨hj, hp, u₁, w₁, hc, hr⟩ := h
    exact (carried_append_iff _ _ _ _).2 ⟨_, hc, _, ⟨hj, hp, x, r, hr, hx, ho, rfl⟩, rfl⟩
  | makes job made u₁ u₂ w₁ steps hj hm =>
    exact (carried_append_iff _ _ _ _).2 ⟨_, h, (u₂, w₁), ⟨hj, hm, rfl⟩, rfl⟩

/-- **Every session is told so.** -/
theorem Session.Told.of_reach (h : Session.Reach inner inner' recurse jobs u w s) :
    s.Told inner inner' recurse jobs u w := by
  induction h with
  | refl => exact rfl
  | tail _ hs ih => exact ih.step hs

/-- **What was done kept within the bounds.** -/
theorem Within.carried {steps : List RunStep} {a c : World × World} (h : Within G H jobs u w a.1 a.2)
    (hc : Carried G H inner inner' recurse jobs steps a c) : Within G H jobs u w c.1 c.2 := by
  induction steps generalizing a with
  | nil =>
    cases hc
    exact h
  | cons e steps ih =>
    obtain ⟨b, he, hc⟩ := hc
    refine ih ?_ hc
    cases e with
    | directory job made =>
      obtain ⟨-, hm, hb⟩ := he
      rw [hb]
      exact h.makes hm
    | request job phase outcome =>
      obtain ⟨hj, hp, x, r, hr, -, -, rfl⟩ := he
      exact h.run hj hp hr

theorem Within.refl (jobs : List CopyJobSpec) (u w : World) : Within G H jobs u w u w :=
  ⟨fun _ _ => Or.inl rfl, .refl u, .refl _ w⟩

/-- **Whatever happens in a session**, either host is as it was but for what the jobs are to change: at any moment,
whichever requests have failed or been cut off, that is their files, where there was no directory, and their
directories.  The client may have made directories besides; nothing is removed, and nothing changes its kind. -/
theorem session_footprint (h : Session.Reach inner inner' recurse jobs u w s) :
    DirsMade (Here G jobs u) u s.stage.here ∧ KindsKept u s.stage.here ∧ Kept (There H jobs w) w s.stage.there := by
  have ht := Session.Told.of_reach h
  obtain ⟨stage, steps⟩ := s
  cases stage with
  | idle u' w' =>
    have hw := (Within.refl jobs u w).carried ht
    exact ⟨hw.here, hw.kinds, hw.there⟩
  | busy job phase x =>
    obtain ⟨hj, hp, u₁, w₁, hc, hr⟩ := ht
    have hw := ((Within.refl jobs u w).carried hc).run hj hp hr
    exact ⟨hw.here, hw.kinds, hw.there⟩

/-- The steps of an exchange are steps of a session. -/
theorem Session.Reach.busy {u₁ w₁ : World} {steps : List RunStep} {job : CopyJobSpec} {phase : TransferPhase}
    {x : Joint G H}
    (h : Session.Reach (G := G) (H := H) inner inner' recurse jobs u w ⟨.idle u₁ w₁, steps⟩) (hj : job ∈ jobs)
    (hp : phase = .post → job.finishes = true)
    (hr : Pair.Reach (runRequest inner job phase recurse) (handleStream inner') u₁ w₁ x) :
    Session.Reach inner inner' recurse jobs u w ⟨.busy job phase x, steps⟩ := by
  induction hr with
  | refl => exact h.tail (.begins job phase u₁ w₁ steps hj hp)
  | tail _ h ih => exact ih.tail (.moves job phase _ _ steps h)

/-- **An exchange more**, that the client is done with. -/
theorem Session.Reach.exchange {u₁ w₁ : World} {steps : List RunStep} {job : CopyJobSpec} {phase : TransferPhase}
    {x : Joint G H} {a : RequestResult}
    (h : Session.Reach (G := G) (H := H) inner inner' recurse jobs u w ⟨.idle u₁ w₁, steps⟩) (hj : job ∈ jobs)
    (hp : phase = .post → job.finishes = true)
    (hr : Pair.Reach (runRequest inner job phase recurse) (handleStream inner') u₁ w₁ x) (hx : x.1.1 = .ret (.ok a)) :
    Session.Reach (G := G) (H := H) inner inner' recurse jobs u w
      ⟨.idle x.1.2.world x.2.2.world, steps ++ [.request job phase (.ok ⟨a.payloadBytes, 0⟩)]⟩ :=
  (Session.Reach.busy h hj hp hr).tail (.ends job phase x steps (.ok a) _ hx rfl)

/-- An exchange that the client is done with is a session. -/
theorem Session.reach_idle (recurse : Bool) {job : CopyJobSpec} {x : Joint G H} {a : RequestResult} (hj : job ∈ jobs)
    (hr : Pair.Reach (runRequest inner job .transfer recurse) (handleStream inner') u w x) (hx : x.1.1 = .ret (.ok a)) :
    Session.Reach (G := G) (H := H) inner inner' recurse jobs u w
      ⟨.idle x.1.2.world x.2.2.world, [.request job .transfer (.ok ⟨a.payloadBytes, 0⟩)]⟩ :=
  Session.Reach.exchange .refl hj (fun h => by cases h) hr hx

end Sessions

end Qcp
