import Qcp.Crowd
import Qcp.Spends
import Qcp.Statuses
import Qcp.Sessions
/-!
# Overlap — servers that are not done when their clients are

A client goes on to its next stream when it has read what it waited for; the server's side of the last one may have
steps left, among those of the next.  `Overlap.Step` lets it take them at any time.  A server that has begun the
messages its command asks for changes nothing any more (`handleStream_spends`), and a request that succeeds is one it
has begun them all for (`spent_of_success`): so as long as nothing fails, streams that overlap come to what they would
one after another (`overlap_sequential`), and change what those may (`overlap_footprint`).
-/
namespace Qcp

open Bare (Bytes Text)
open Proc (Pair View Local Steps Task Ok Avoids Spends Utters)

/-! ## What a server says and what it does -/

/-- What changes something. -/
def Op.Changes (H : Host) (op : Op) : Prop := ∃ q, op.Alters H q

/-- How many messages a server begins before it changes nothing more. -/
def Command.quota : Command → Nat
  | get _ | get2 _ | list _ => 0
  | createDirectory _ | setMetadata _ => 1
  | put _ | put2 _ => 2

def Msg.quota : Msg → Nat
  | command c => c.quota
  | _ => 0

section Spending

variable {H : Host} {n : Nat}

/-- Nothing is changed by what does not change anything. -/
theorem OnlyLooks.unchanging {α : Type} {p : Act H α} (h : OnlyLooks p) : Avoids (S := H.sig) (Op.Changes H) p :=
  h.mono fun _ hop hl => hop.elim fun q hq => hl.not_alters q hq

theorem OnlyLooks.spends {p : Act H Unit} (h : OnlyLooks p) :
    Spends (S := H.sig) (Op.Changes H) Msg.quota (fun _ _ => True) p (some n) := Spends.of_avoids h.unchanging

/-- Consent is a message. -/
theorem Spends.sendOk {f : Unit → Act H Unit}
    (hf : Spends (S := H.sig) (Op.Changes H) Msg.quota (fun _ _ => True) (f ()) (some n)) :
    Spends (S := H.sig) (Op.Changes H) Msg.quota (fun _ _ => True) (Qcp.sendOk >>= f : Act H Unit) (some (n + 1)) := by
  refine ⟨nofun, fun r => ?_⟩
  cases r with
  | ok u => exact hf
  | error e => exact trivial

/-- **The server of a PUT says twice that all is well**: it writes between the one and the other. -/
theorem Spends.putHandle (inner : SessionCommandInner) (args : Get2Args) :
    Spends (S := H.sig) (Op.Changes H) Msg.quota (fun _ _ => True) (PutHandler.handleImpl inner args : Act H Unit)
      (some 2) := by
  refine Spends.behind (Utters.appendFilename _) fun append => ?_
  cases append with
  | none => exact (OnlyLooks.refused _).spends
  | some append =>
    refine Spends.behind (Utters.reader _) fun header => Spends.behind (Utters.createOrTruncate _ _) fun r => ?_
    cases r with
    | error e => exact (OnlyLooks.refused _).spends
    | ok file =>
      refine Spends.sendOk (Spends.behind Utters.flushed fun _ => Spends.behind (Utters.copyIn _ _ _) fun r => ?_)
      cases r with
      | error e => exact (OnlyLooks.refused _).spends
      | ok m =>
        refine Spends.behind (Utters.reader _) fun trailer => Spends.behind (Utters.asked (.flushFile file)) fun r => ?_
        refine Spends.behind (Utters.ofExcept r) fun _ => Spends.behind (Utters.updateMetadata _ _) fun _ => ?_
        exact Spends.of_avoids (.then OnlyLooks.sendOk.unchanging fun _ => Avoids.flushed)

theorem Spends.createDirectoryHandle (args : CreateDirectoryArgs) :
    Spends (S := H.sig) (Op.Changes H) Msg.quota (fun _ _ => True) (CreateDirectoryHandler.handleImpl args : Act H Unit)
      (some 1) := by
  refine Spends.behind (Utters.asked (.metadata args.dirName)) fun r => ?_
  cases r with
  | ok info =>
    simp only
    split
    · exact (OnlyLooks.refused _).spends
    · split
      · exact OnlyLooks.sendOk.spends
      · exact trivial
  | error e =>
    refine Spends.behind (Utters.asked (.createDir args.dirName)) fun r => ?_
    cases r with
    | error e => exact (OnlyLooks.refused _).spends
    | ok u => exact OnlyLooks.sendOk.spends

theorem Spends.applyAll (path : Posix.Path) : ∀ metadata : List TaggedData,
    Spends (S := H.sig) (Op.Changes H) Msg.quota (fun _ _ => True)
    (SetMetadataHandler.applyAll path metadata : Act H Unit)
      (some 1)
  | [] => OnlyLooks.sendOk.spends
  | md :: mds => by
    rw [SetMetadataHandler.applyAll]
    cases md.metadataAttr with
    | none => exact Spends.applyAll path mds
    | some attr =>
      cases attr with
      | invalid => exact Spends.applyAll path mds
      | accessTime => exact trivial
      | modificationTime => exact trivial
      | modeBits =>
        cases md.data.asUnsigned with
        | none => exact Spends.applyAll path mds
        | some mode =>
          refine Spends.behind (Utters.asked (.setPermissions path (modeOf mode))) fun r => ?_
          cases r with
          | error e => exact (OnlyLooks.refused _).spends
          | ok u => exact Spends.applyAll path mds

theorem Spends.setMetadataHandle (args : SetMetadataArgs) :
    Spends (S := H.sig) (Op.Changes H) Msg.quota (fun _ _ => True) (SetMetadataHandler.handleImpl args : Act H Unit)
      (some 1) := by
  refine Spends.behind (Utters.asked (.metadata args.path)) fun r => ?_
  cases r with
  | error e => exact (OnlyLooks.refused _).spends
  | ok info =>
    simp only
    split
    · exact Spends.applyAll _ _
    · exact (OnlyLooks.refused _).spends

theorem Spends.commandHandler (inner : SessionCommandInner) (c : Command) :
    Spends (S := H.sig) (Op.Changes H) Msg.quota (fun _ _ => True) (Qcp.commandHandler inner c : Act H Unit)
      (some c.quota) := by
  cases c with
  | get args => exact (OnlyLooks.getHandle inner ⟨args.filename, []⟩).spends
  | get2 args => exact (OnlyLooks.getHandle inner args).spends
  | put args => exact Spends.putHandle inner ⟨args.filename, []⟩
  | put2 args => exact Spends.putHandle inner args
  | createDirectory args => exact Spends.createDirectoryHandle args
  | setMetadata args => exact Spends.setMetadataHandle args
  | list args => exact (OnlyLooks.listingHandle args).spends

/-- **A message is read**: it says how many there are to be, if none did before. -/
theorem Spends.reader {α : Type} {F : Form α} {Q : Except Err α → Option Nat → Prop} {bad : Op → Prop}
    {quota : Msg → Nat}
    {o : Option Nat} (h : ∀ a, Q (.ok a) (some (o.getD (quota (F.msg a))))) (herr : ∀ e, Q (.error e) o) :
    Spends (S := H.sig) bad quota Q (fromReaderFramed F : Act H α) o := by
  have read : ∀ (k : Nat), Spends (S := H.sig) bad quota (fun _ o' => o = o') (Task.read k : Act H _) o :=
    fun _ _ => rfl
  refine Spends.then (R := fun _ o' => o = o') (Spends.then (read 4) ?_ fun _ _ h => h) ?_ ?_
  · rintro r _ rfl
    cases r with
    | error f => exact rfl
    | ok hdr =>
      simp only
      split
      · exact Spends.then (R := fun _ o' => o = o') (fun _ => rfl) (fun _ _ h => h) fun _ _ h => h
      · refine Spends.then (read _) ?_ fun _ _ h => h
        rintro r _ rfl
        cases r with
        | error f => exact rfl
        | ok bs =>
          simp only
          cases F.toWire.codec.decode bs <;> exact rfl
  · rintro a _ rfl
    exact h a
  · rintro e _ rfl
    exact herr e

/-- **A server's side of a stream**: what it is to change it has changed when it has begun its last word. -/
theorem handleStream_spends (inner : SessionCommandInner) :
    Spends (S := H.sig) (Op.Changes H) Msg.quota (fun _ _ => True) (handleStream inner : Act H Unit) none := by
  refine Spends.then (R := fun r o => ∀ c, r = .ok (.ok c) → o = some c.quota) (Spends.bind (Spends.reader ?_ ?_)) ?_
    fun _ _ _ => trivial
  · rintro c c' ⟨⟩
    rfl
  · exact fun e c h => by cases h
  · intro r o h
    cases r with
    | ok c =>
      rw [h c rfl]
      exact Spends.commandHandler inner c
    | error e =>
      cases e with
      | recv e =>
        cases e with
        | short e =>
          simp only
          split <;> exact trivial
        | _ => exact trivial
      | _ => exact trivial

end Spending

/-! ## Requests that succeed -/

section Success

variable {G H : Host} {inner inner' : SessionCommandInner} {u w : World} {x : Joint G H}

/-- **A server that has begun all that it is to say** has changed what it is to change. -/
theorem spent_of_begun {p : Act G RequestResult} (hr : Pair.Reach p (handleStream inner') u w x) {c : Command}
    {more : List Msg} (hgot : x.2.2.got = .command c :: more) (hall : c.quota ≤ x.2.2.tried.length) :
    Avoids (S := H.sig) (Op.Changes H) x.2.1 :=
  (handleStream_spends inner').run (m := .command c) (Pair.reach hr).2.1 (by rw [hgot]; rfl) hall

/-- What was read is the command that was sent, when either side has read the messages of the other. -/
theorem Heard.got_of_sent (h : Heard x) {c : Command} (hs : x.1.2.sent = [.command c]) : x.2.2.got = [.command c] := by
  rw [h.server, hs]
  rfl

/-- **When a request has succeeded** its server changes nothing more. -/
theorem spent_of_success (request : Request) (hr : Pair.Reach (request.sendImpl inner) (handleStream inner') u w x)
    {a : RequestResult} (ha : x.1.1 = .ret (.ok a)) : Avoids (S := H.sig) (Op.Changes H) x.2.1 := by
  have hcs : Steps (request.sendImpl inner, Local.init u) (.ret (.ok a), x.1.2) := ha ▸ (Pair.reach hr).1
  have said : x.2.2.sent = [.response okResponse] → 1 ≤ x.2.2.tried.length := fun hs => by
    have hlen := (sent_prefix_tried hr).length_le
    rwa [hs] at hlen
  cases request with
  | get job =>
    obtain ⟨n, name, hdr, t, payload, tb, ms, he⟩ := get_exchange hr ha
    refine spent_of_begun hr he.heard (Nat.le_trans (Nat.le_of_eq ?_) (Nat.zero_le _))
    unfold GetHandler.command
    split <;> rfl
  | put job =>
    obtain ⟨n, name, hdr, t, payload, ms, he⟩ := put_exchange hr ha
    refine spent_of_begun hr he.heard (Nat.le_of_eq ?_)
    rw [he.tried]
    unfold PutHandler.command
    split <;> rfl
  | createDirectory job =>
    obtain ⟨⟨hsent, -⟩, hh⟩ := createDirectory_completes hr ha
    obtain ⟨c, rb, r, rfl, hasked, -⟩ := (Ok.createDirectoryClient inner job u).run_ok hcs
    exact spent_of_begun hr (hh.got_of_sent hasked.sent) (said hsent)
  | setMetadata job =>
    obtain ⟨⟨hsent, -⟩, hh⟩ := setMetadata_completes hr ha
    obtain ⟨c, rb, r, ⟨info, rfl⟩, hasked, -⟩ := (Ok.setMetadataClient inner job u).run_ok hcs
    exact spent_of_begun hr (hh.got_of_sent hasked.sent) (said hsent)
  | list job recurse =>
    obtain ⟨-, hh⟩ := list_completes hr ha
    obtain ⟨rb, r, bss, ps, hasked, -⟩ := (Ok.listClient inner job recurse u).run_ok hcs
    exact spent_of_begun hr (hh.got_of_sent hasked.sent) (Nat.zero_le _)

/-- **A server that changes nothing more**: it has said its last word, or there is nothing for it to read. -/
def Spent (inner' : SessionCommandInner) (out : Bytes) (d : Proc.Config H.sig (Except Err Unit)) : Prop :=
  Avoids (S := H.sig) (Op.Changes H) d.1 ∨ (out = [] ∧ d.1 = handleStream inner')

/-- Who waits for bytes of which there are none is told of a failure. -/
theorem error_of_nothing {α : Type} {n : Nat} {k : Except IoError Bytes → Act H α} {s : Local H.sig}
    {d : Proc.Config H.sig (Except Err α)} (hs : Proc.Step (Proc.Prog.read n k, s) d) (hn : n ≠ 0)
    (ht : d.2.taken = []) :
    ∃ f, d.1 = k (.error f) := by
  cases hs with
  | read n k s bs hr hl =>
    rw [Local.taken_push, List.append_eq_nil_iff] at ht
    rw [show bs = [] from ht.2] at hl
    exact absurd hl.symm hn
  | short n k s f bs hl hs => exact ⟨f, rfl⟩

theorem Spent.step {out : Bytes} {d d' : Proc.Config H.sig (Except Err Unit)} (h : Spent inner' out d)
    (hs : Proc.Step d d') (ht : d'.2.taken <+: out) : Spent inner' out d' := by
  rcases h with h | ⟨rfl, h⟩
  · exact Or.inl (h.step hs)
  · left
    obtain ⟨p, s⟩ := d
    obtain rfl := h
    -- all that it can do is to be told that there is nothing
    obtain ⟨f, hf⟩ := error_of_nothing (n := 4) hs (by decide) (List.prefix_nil.1 ht)
    rw [hf]
    change Avoids (S := H.sig) _
      (if f.kind = .unexpectedEof then pure () else Task.fail (.recv (.short f)) : Act H Unit)
    split <;> exact trivial

/-- Its steps leave the world as it is. -/
theorem Spent.world_eq {out : Bytes} {d d' : Proc.Config H.sig (Except Err Unit)} {v : World} (h : Spent inner' out d)
    (hs : Proc.Step (d.1, d.2.inWorld v) d') : d'.2.world = v := by
  obtain ⟨p, s⟩ := d
  rcases h with h | ⟨-, rfl⟩
  · cases hs with
    | call op k s r v' hw => exact funext fun q => Host.sem_frame hw fun hq => h.1 ⟨q, hq⟩
    | _ => rfl
  · cases hs <;> rfl

/-- Nothing is read of a stream that nothing was written to. -/
theorem spent_of_silent {p : Act G RequestResult} (hr : Pair.Reach p (handleStream inner') u w x)
    (hout : x.1.2.out = []) : Spent inner' x.1.2.out x.2 := by
  rw [hout]
  induction hr with
  | refl => exact Or.inr ⟨rfl, rfl⟩
  | tail _ h ih =>
    cases h with
    | left c c' d h hr => exact ih (List.prefix_nil.1 (hout ▸ Proc.out_prefix_of_step h))
    | right c d d' h hr => exact (ih hout).step h (hout ▸ hr)

/-- **When what was to be done for a job is done**, its server changes nothing more. -/
theorem spent_of_run {job : CopyJobSpec} {phase : TransferPhase} {recurse : Bool}
    (hr : Pair.Reach (runRequest inner job phase recurse) (handleStream inner') u w x) {a : RequestResult}
    (ha : x.1.1 = .ret (.ok a)) : Spent inner' x.1.2.out x.2 := by
  cases phase with
  | pre => exact Or.inl (spent_of_success (clientSender job .pre recurse) hr ha)
  | transfer => exact Or.inl (spent_of_success (clientSender job .transfer recurse) hr ha)
  | post =>
    cases hact : managePostTransferRequest job recurse with
    | send request =>
      rw [runRequest, hact] at hr
      exact Or.inl (spent_of_success request hr ha)
    | _ =>
      have hsteps := (Pair.reach hr).1
      have hsend : ∀ request, managePostTransferRequest job recurse ≠ .send request := fun request h => by
        cases hact.symm.trans h
      have hsilent := (Ok.perform_silent hsend u).run hsteps
      have htried : x.1.2.tried = [] := by
        rcases hsilent with h | ⟨_, hn, _⟩
        · exact h
        · exact hn.elim
      obtain ⟨tail, hw⟩ := Proc.written_of_steps hsteps
      exact spent_of_silent hr (List.prefix_nil.1 (by simpa [htried] using hw.out_prefix))

end Success

/-! ## Streams that overlap -/

/-- A session, and the servers that go on: what each was sent, and where it is. -/
structure Overlap (G H : Host) where
  session : Session G H
  lingering : List (Bytes × Proc.Config H.sig (Except Err Unit))

/-- The same in another world of the server's. -/
def Stage.inWorld {G H : Host} (w : World) : Stage G H → Stage G H
  | idle u _ => idle u w
  | busy job phase x => busy job phase (x.1, (x.2.1, x.2.2.inWorld w))

/-- The server that the client has gone on from. -/
def Stage.left {G H : Host} : Stage G H → Stage G H → List (Bytes × Proc.Config H.sig (Except Err Unit))
  | busy _ _ x, idle _ _ => [(x.1.2.out, x.2)]
  | _, _ => []

/-- **One step of a session, or of a server that goes on**: it may read what it was sent, and change its world. -/
inductive Overlap.Step {G H : Host} (inner inner' : SessionCommandInner) (recurse : Bool) (jobs : List CopyJobSpec) :
    Overlap G H → Overlap G H → Prop where
  | goes (s s' : Session G H) (lingering : List (Bytes × Proc.Config H.sig (Except Err Unit)))
      (h : Session.Step inner inner' recurse jobs s s') :
      Step inner inner' recurse jobs ⟨s, lingering⟩ ⟨s', lingering ++ s.stage.left s'.stage⟩
  | lingers (s : Session G H) (front back : List (Bytes × Proc.Config H.sig (Except Err Unit))) (out : Bytes)
      (d d' : Proc.Config H.sig (Except Err Unit)) (h : Proc.Step (d.1, d.2.inWorld s.stage.there) d')
      (hr : d'.2.taken <+: out) :
      Step inner inner' recurse jobs ⟨s, front ++ (out, d) :: back⟩
        ⟨{ s with stage := s.stage.inWorld d'.2.world }, front ++ (out, d') :: back⟩

def Overlap.Reach {G H : Host} (inner inner' : SessionCommandInner) (recurse : Bool) (jobs : List CopyJobSpec)
    (u w : World) :
    Overlap G H → Prop :=
  Relation.ReflTransGen (Overlap.Step inner inner' recurse jobs) ⟨⟨.idle u w, []⟩, []⟩

section Overlaps

variable {G H : Host} {inner inner' : SessionCommandInner} {recurse : Bool} {jobs : List CopyJobSpec} {u w : World}
  {o o' : Overlap G H}

@[simp] theorem Stage.inWorld_there (s : Stage G H) : s.inWorld s.there = s := by
  cases s <;> rfl

/-- A session that nothing goes on of. -/
theorem Overlap.reach_of_session {s : Session G H} (h : Session.Reach inner inner' recurse jobs u w s) :
    ∃ lingering, Overlap.Reach inner inner' recurse jobs u w ⟨s, lingering⟩ := by
  induction h with
  | refl => exact ⟨[], .refl⟩
  | tail _ hs ih =>
    obtain ⟨lingering, hl⟩ := ih
    exact ⟨_, hl.tail (.goes _ _ lingering hs)⟩

/-- What has been done stays told. -/
theorem Session.Step.steps_prefix {s s' : Session G H} (h : Session.Step inner inner' recurse jobs s s') :
    s.steps <+: s'.steps := by
  cases h with
  | begins => exact List.prefix_refl _
  | moves => exact List.prefix_refl _
  | ends => exact List.prefix_append _ _
  | makes => exact List.prefix_append _ _

/-- **A server that a client has gone on from** changes nothing more, if the request has not failed. -/
theorem Session.Step.left_spent {s s' : Session G H} (hreach : Session.Reach inner inner' recurse jobs u w s)
    (h : Session.Step inner inner' recurse jobs s s') (hok : ∀ e ∈ s'.steps, e.failed = false) :
    ∀ l ∈ s.stage.left s'.stage, Spent inner' l.1 l.2 := by
  have ht := Session.Told.of_reach hreach
  cases h with
  | ends job phase x steps r outcome hx ho =>
    obtain ⟨-, -, u₁, w₁, -, hr⟩ := ht
    have hf := hok (.request job phase outcome) (by simp)
    intro l hl
    rw [List.mem_singleton.1 hl]
    cases outcome with
    | error e => cases hf
    | ok stats =>
      cases r with
      | error e => exact absurd ho id
      | ok a => exact spent_of_run hr hx
  | _ => exact fun l hl => absurd hl List.not_mem_nil

/-- **Streams that overlap come to what they would one after another**, as long as nothing fails: whatever the servers
that the client has gone on from still do, and whenever, they leave no trace. -/
theorem overlap_sequential (h : Overlap.Reach inner inner' recurse jobs u w o)
    (hok : ∀ e ∈ o.session.steps, e.failed = false) : Session.Reach inner inner' recurse jobs u w o.session := by
  have hinv : Session.Reach inner inner' recurse jobs u w o.session ∧ ∀ l ∈ o.lingering, Spent inner' l.1 l.2 := by
    induction h with
    | refl => exact ⟨.refl, fun l hl => absurd hl List.not_mem_nil⟩
    | tail _ hs ih =>
      cases hs with
      | goes s s' lingering hs =>
        obtain ⟨hreach, hall⟩ := ih fun e he => hok e (hs.steps_prefix.subset he)
        refine ⟨hreach.tail hs, fun l hl => ?_⟩
        rcases List.mem_append.1 hl with hl | hl
        · exact hall l hl
        · exact hs.left_spent hreach hok l hl
      | lingers s front back out d d' hs hr =>
        obtain ⟨hreach, hall⟩ := ih hok
        have hspent := hall (out, d) (List.mem_append_right _ List.mem_cons_self)
        refine ⟨?_, fun l hl => ?_⟩
        · simpa only [hspent.world_eq hs, Stage.inWorld_there] using hreach
        · rcases Proc.mem_replaced (c := (out, d)) hl with rfl | hl
          · exact Spent.step (d := (d.1, d.2.inWorld s.stage.there)) hspent hs hr
          · exact hall l hl
  exact hinv.1

/-- **At any moment of a session of which no request has failed so far**, either host is as it was but for what the
jobs are to change: that is their files, where there was no directory, and their directories.  The request at hand may
be at any point of it or have been cut off, and the servers of earlier ones may still be at work.  The client may have
made directories besides; nothing is removed, and nothing changes its kind. -/
theorem overlap_footprint (G H : Host) (inner inner' : SessionCommandInner) (recurse : Bool) (jobs : List CopyJobSpec)
    (u w : World) (o : Overlap G H) (h : Overlap.Reach inner inner' recurse jobs u w o)
    (hok : ∀ e ∈ o.session.steps, e.failed = false) :
    DirsMade (Here G jobs u) u o.session.stage.here ∧ KindsKept u o.session.stage.here ∧
      Kept (There H jobs w) w o.session.stage.there :=
  session_footprint (overlap_sequential h hok)

end Overlaps

/-- A file was fetched, and the client has gone on. -/
theorem overlap_footprint_fetched : ∃ (o : Overlap oneHost oneHost) (a : RequestResult),
    o.session.steps = [.request fetching .transfer (.ok ⟨a.payloadBytes, 0⟩)] ∧
    DirsMade (Here oneHost [fetching] fun _ => none) (fun _ => none) o.session.stage.here ∧
    KindsKept (fun _ => none) o.session.stage.here ∧
    Kept (There oneHost [fetching] (oneFile 1 [7])) (oneFile 1 [7]) o.session.stage.there := by
  obtain ⟨x, hx, a, ha⟩ := mistaken_run 1 1048576 [7] (by decide) (by decide) (Or.inr ⟨by decide, by decide, by decide⟩)
  have hreach : Session.Reach (G := oneHost) (H := oneHost) (withBuffer 1048576) (withBuffer 1048576) false [fetching]
      (fun _ => none) (oneFile 1 [7]) _ := Session.reach_idle false (List.mem_singleton_self fetching) hx ha
  obtain ⟨lingering, hl⟩ := Overlap.reach_of_session hreach
  have hok : ∀ e ∈ [RunStep.request fetching .transfer (.ok ⟨a.payloadBytes, 0⟩)], e.failed = false := by
    rintro e (_ | ⟨_, ⟨⟩⟩)
    rfl
  exact ⟨⟨⟨.idle x.1.2.world x.2.2.world, _⟩, lingering⟩, a, rfl, overlap_footprint oneHost oneHost (withBuffer 1048576)
    (withBuffer 1048576) false [fetching] (fun _ => none) (oneFile 1 [7]) _ hl hok⟩

end Qcp
