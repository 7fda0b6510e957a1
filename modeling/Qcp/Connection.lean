import Qcp.Client
import Qcp.Crowd
/-!
# Connection — a server's side of a connection, with all its streams

A server handles every stream that its client opens, at the same time as the others and in the same world; that a
stream came to nothing is no matter to the rest.  `connection_footprint` says what may have changed on the server's
host after any of this, whatever was sent on the streams: each change is one that some stream's command is for.
`Session.served` says that the sessions there are between a client and its server are connections of that server.
-/
namespace Qcp

open Bare (Bytes Text)
open Proc (Pair Local Avoids Amid Record Crowd)

/-! ## Connections -/

/-- Why no more streams are to be had. -/
inductive ConnectionError where
  | applicationClosed
  | connectionClosed
  | other (text : Text)

/-- How a server takes it. -/
def ConnectionError.outcome : ConnectionError → Except Text Unit
  | applicationClosed | connectionClosed => .ok ()
  | other e => .error e

/-- The streams that were accepted, and the outcome when there are to be no more. -/
structure Connection (H : Host) where
  streams : Crowd H.sig (Except Err Unit)
  ended : Option (Except Text Unit)

/-- **One step of a connection.**  Streams are handled while more are accepted, and after. -/
inductive Connection.Step {H : Host} (inner : SessionCommandInner) : Connection H → Connection H → Prop where
  | accepts (x : Crowd H.sig (Except Err Unit)) : Step inner ⟨x, none⟩ ⟨x.join (handleStream inner), none⟩
  | closes (x : Crowd H.sig (Except Err Unit)) (e : ConnectionError) : Step inner ⟨x, none⟩ ⟨x, some e.outcome⟩
  | handles {x x' : Crowd H.sig (Except Err Unit)} (ended : Option (Except Text Unit)) (h : Crowd.Move x x') :
      Step inner ⟨x, ended⟩ ⟨x', ended⟩

def Connection.Reach {H : Host} (inner : SessionCommandInner) (w : World) : Connection H → Prop :=
  Relation.ReflTransGen (Connection.Step inner) ⟨⟨w, []⟩, none⟩

section Connections

variable {H : Host} {inner inner' : SessionCommandInner} {w : World} {c : Connection H}

/-- Its streams are a crowd. -/
theorem Connection.crowd_of_reach (h : Connection.Reach inner w c) : Crowd.Reach (handleStream inner) w c.streams := by
  induction h with
  | refl => exact .refl
  | tail _ hs ih =>
    cases hs with
    | accepts x => exact ih.tail (.joins x)
    | closes x e => exact ih
    | handles ended h => exact ih.tail (.moves h)

end Connections

/-! ## What an operation may come to, in a world that has changed meanwhile -/

section Possible

variable {H : Host} {w : World}

/-- An outcome that an operation can have in some world that has come of this one. -/
def Op.Can (H : Host) (w : World) (op : Op) (r : op.Ret) : Prop := ∃ v v', KindsKept w v ∧ H.sem v op r v'

/-- **Where an operation has changed something**, if it came off. -/
def Altered (H : Host) (e : Σ op, Op.Ret op) (q : Place) : Prop :=
  match e with
  | ⟨.openWrite p _, .ok _⟩ | ⟨.createDir p, .ok _⟩ | ⟨.setPermissions p _, .ok _⟩ => q = H.place p
  | ⟨.write h _, _⟩ | ⟨.setTimes h _ _, .ok _⟩ | ⟨.setFilePermissions h _, .ok _⟩ => q = h
  | _ => False

theorem Altered.alters {op : Op} {r : op.Ret} {q : Place} (h : Altered H ⟨op, r⟩ q) : op.Alters H q := by
  unfold Altered at h
  split at h <;> first | exact h | exact h.elim | (rename_i heq; cases heq; exact h)

theorem sem_altered {v v' : World} {op : Op} {r : op.Ret} {q : Place} (h : H.sem v op r v')
    (hq : ¬ Altered H ⟨op, r⟩ q) :
    v' q = v q := by
  by_cases ha : op.Alters H q
  · cases op with
    | metadata | openRead | fileMetadata | readAt | flushFile | walkDir => exact ha.elim
    | write p bs => exact absurd ha hq
    | _ =>
      cases r with
      | ok => exact absurd ha hq
      | error e => exact congrFun h q
  · exact Host.sem_frame h ha

theorem not_isDir_of_can {path : Posix.Path} {mode : Option UInt32} {h : Place}
    (hc : Op.Can H w (.openWrite path mode) (.ok h)) : h = H.place path ∧ ¬ w.isDir h := by
  obtain ⟨v, v', hk, rfl, n, ho, -⟩ := hc
  exact ⟨rfl, fun hd => ho.not_isDir (hk.isDir hd)⟩

theorem none_of_can {path : Posix.Path} (hc : Op.Can H w (.createDir path) (.ok ())) : w (H.place path) = none := by
  obtain ⟨v, v', hk, hnone, -⟩ := hc
  exact hk.of_none hnone

/-- What is found to be a directory was one, or was nothing. -/
theorem isDir_of_can {path : Posix.Path} {info : Metadata} (hc : Op.Can H w (.metadata path) (.ok info))
    (hd : info.isDir = true) : w (H.place path) = none ∨ w.isDir (H.place path) := by
  obtain ⟨v, v', hk, -, hm⟩ := hc
  obtain ⟨n, hn, rfl⟩ := hm info rfl
  exact hk.of_isDir ⟨n, hn, hd⟩

end Possible

/-! ## What a stream's command is for -/

/-- **What a command is for**, with what else was read on its stream. -/
def Command.Claims (H : Host) (w : World) (got : List Msg) (q : Place) : Command → Prop
  | put args => ∃ header, Msg.fileHeader header ∈ got ∧ Lands H w (putPaths args.filename header.toV2.filename) q
  | put2 args => ∃ header, Msg.fileHeader header ∈ got ∧ Lands H w (putPaths args.filename header.toV2.filename) q
  | createDirectory args => q = H.place args.dirName ∧ w q = none
  | setMetadata args => q = H.place args.path ∧ (w q = none ∨ w.isDir q)
  | get _ | get2 _ | list _ => False

/-- **A change is one that the command is for** which was read first. -/
def Claimed (H : Host) (w : World) (got : List Msg) (q : Place) : Prop :=
  ∃ c : Command, got.head? = some (.command c) ∧ c.Claims H w got q

theorem Claimed.mono {H : Host} {w : World} {got : List Msg} {q : Place} (m : Msg) (h : Claimed H w got q) :
    Claimed H w (got ++ [m]) q := by
  obtain ⟨c, hc, hq⟩ := h
  refine ⟨c, by rw [List.head?_append, hc]; rfl, ?_⟩
  cases c with
  | put args | put2 args =>
    obtain ⟨header, hm, hl⟩ := hq
    exact ⟨header, List.mem_append_left _ hm, hl⟩
  | _ => exact hq

/-- All that was changed so far. -/
def Obeys (H : Host) (w : World) (k : Record H.sig) : Prop := ∀ e ∈ k.done, ∀ q, Altered H e q → Claimed H w k.got q

section Obeying

variable {H : Host} {w : World} {k : Record H.sig}

theorem Obeys.keep (h : Obeys H w k) (m : Msg) : Obeys H w (k.keep m) := fun e he q hq => (h e he q hq).mono m

theorem Obeys.did (h : Obeys H w k) {e : Σ op, Op.Ret op} (he : ∀ q, Altered H e q → Claimed H w k.got q) :
    Obeys H w (k.did e) := fun e' he' q hq => by
  rcases List.mem_append.1 he' with he' | he'
  · exact h e' he' q hq
  · rw [List.mem_singleton.1 he'] at hq
    exact he q hq

/-- A handler of a command, and what it goes by. -/
structure Handling (H : Host) (w : World) (c : Command) (ms : List Msg) (k : Record H.sig) : Prop where
  obeys : Obeys H w k
  command : k.got.head? = some (.command c)
  kept : ms ⊆ k.got

variable {c : Command} {ms : List Msg}

theorem Handling.keep (h : Handling H w c ms k) (m : Msg) : Handling H w c ms (k.keep m) :=
  ⟨h.obeys.keep m, by rw [Record.keep, List.head?_append, h.command]; rfl, fun _ hm => List.mem_append_left _
    (h.kept hm)⟩

theorem Handling.more (h : Handling H w c ms k) (m : Msg) : Handling H w c [m] (k.keep m) :=
  ⟨(h.keep m).obeys, (h.keep m).command, by simp [Record.keep]⟩

/-- What a command is for may be done. -/
theorem Handling.did (h : Handling H w c ms k) {e : Σ op, Op.Ret op} (he : ∀ q, Altered H e q → c.Claims H w k.got q) :
    Handling H w c ms (k.did e) := ⟨h.obeys.did fun q hq => ⟨c, h.command, he q hq⟩, h.command, h.kept⟩

theorem Amid.ofExcept {ε α : Type} {can : (op : Op) → op.Ret → Prop} {I : Record H.sig → Prop} {wrap : ε → Err}
    {Q : α → Record H.sig → Prop} {r : Except ε α} (hi : I k) (h : ∀ a, r = .ok a → Q a k) :
    Amid (S := H.sig) can I Q (Act.ofExcept wrap r : Act H α) k := by
  cases r with
  | ok a => exact Amid.pure hi (h a rfl)
  | error e => exact Amid.fail hi

/-- **A message is read**, and kept. -/
theorem Amid.reader {α : Type} {can : (op : Op) → op.Ret → Prop} {I : Record H.sig → Prop} {Q : α → Record H.sig → Prop}
    {F : Form α} (hi : I k) (hk : ∀ a, I (k.keep (F.msg a))) (h : ∀ a, Q a (k.keep (F.msg a))) :
    Amid (S := H.sig) can I Q (fromReaderFramed F : Act H α) k := by
  refine Amid.then (Amid.then (Amid.read hi fun r => ?_))
  cases r with
  | error f => exact Amid.fail hi
  | ok hdr =>
    simp only
    split
    · exact Amid.then (Amid.fill hi fun _ => Amid.fail hi)
    · refine Amid.then (Amid.read hi fun r => ?_)
      cases r with
      | error f => exact Amid.fail hi
      | ok bs =>
        simp only
        cases F.toWire.codec.decode bs with
        | none => exact Amid.fail hi
        | some a => exact Amid.pure hi (Amid.then (Amid.note hi (hk a) (Amid.pure (hk a) (h a))))

/-- **What changes nothing but where its command is for it.** -/
theorem Amid.strays {α : Type} {A : Place → Prop} {p : Act H α} {can : (op : Op) → op.Ret → Prop}
    (hp : Avoids (S := H.sig) (fun op => ∃ q, op.Alters H q ∧ ¬ A q) p) (h : Handling H w c ms k)
    (hA : ∀ q got, ms ⊆ got → A q → c.Claims H w got q) :
    Amid (S := H.sig) can (Handling H w c ms) (fun _ _ => True) p k := by
  refine Amid.of_avoids hp (fun k m hk => hk.keep m) (fun k op r hop hk => hk.did fun q hq => ?_) h
  exact hA q k.got hk.kept (by_contra fun hn => hop ⟨q, hq.alters, hn⟩)

theorem Amid.looking {α : Type} {p : Act H α} {can : (op : Op) → op.Ret → Prop} (hp : OnlyLooks p)
    (h : Handling H w c ms k) : Amid (S := H.sig) can (Handling H w c ms) (fun _ _ => True) p k := by
  refine Amid.strays (A := fun _ => False) (hp.mono ?_) h fun _ _ _ hq => hq.elim
  rintro op ⟨q, hq, -⟩ hl
  exact hl.not_alters q hq

end Obeying

/-! ## The handlers -/

theorem getPaths_subset_putPaths (dest : Posix.Path) (name : Text) (append : Bool) :
    getPaths (if append then Posix.push dest name else dest) name ⊆ putPaths dest name := by
  intro p hp
  cases append with
  | true => exact List.mem_cons_of_mem dest hp
  | false => exact List.mem_append_left [Posix.push (Posix.push dest name) name] hp

section Handlers

variable {H : Host} {w : World} {k : Record H.sig} {c : Command} {ms : List Msg}

/-- A file is opened where the command is for it. -/
theorem Amid.createOrTruncate {path : Posix.Path} {header : FileHeaderV2} (h : Handling H w c ms k)
    (hA : ∀ q got, ms ⊆ got → Lands H w (getPaths path header.filename) q → c.Claims H w got q) :
    Amid (S := H.sig) (Op.Can H w) (Handling H w c ms)
      (fun r _ => ∀ f, r = .ok f → Lands H w (getPaths path header.filename) f) (createOrTruncate path header) k := by
  have opened : ∀ (p : Posix.Path) (k : Record H.sig), p ∈ getPaths path header.filename → Handling H w c ms k →
      Amid (S := H.sig) (Op.Can H w) (Handling H w c ms)
      (fun r _ => ∀ f, r = .ok f → Lands H w (getPaths path header.filename) f)
        (TokioFile.openWrite p (appliedMode H header.metadata)) k := by
    intro p k hp hk
    have lands : ∀ f, Op.Can H w (.openWrite p (appliedMode H header.metadata)) (.ok f) →
        Lands H w (getPaths path header.filename) f := fun f hf => by
      obtain ⟨rfl, hd⟩ := not_isDir_of_can hf
      exact ⟨⟨p, hp, rfl⟩, hd⟩
    refine Amid.call (S := H.sig) hk (fun r hr => hk.did fun q hq => ?_) fun r hr f hf => lands f (hf ▸ hr)
    cases r with
    | error e => exact hq.elim
    | ok f =>
      refine hA q k.got hk.kept ?_
      obtain ⟨rfl, -⟩ := not_isDir_of_can hr
      cases hq
      exact lands _ hr
  refine Amid.then (Amid.call (S := H.sig) h (fun r _ => h.did fun q hq => hq.elim) fun r _ => ?_)
  have hk : Handling H w c ms (k.did ⟨.metadata path, r⟩) := h.did fun q hq => hq.elim
  cases r with
  | error e => exact opened path _ (List.mem_cons_self ..) hk
  | ok info =>
    simp only
    split
    · exact opened _ _ (by simp [getPaths]) hk
    · split
      · exact opened path _ (List.mem_cons_self ..) hk
      · exact Amid.pure hk nofun

/-- **The server of a PUT.** -/
theorem Amid.putHandle (inner : SessionCommandInner) (args : Get2Args) (h : Handling H w c [] k)
    (hA : ∀ q got, (∃ header, Msg.fileHeader header ∈ got ∧ Lands H w (putPaths args.filename header.toV2.filename) q) →
      c.Claims H w got q) :
    Amid (S := H.sig) (Op.Can H w) (Handling H w c []) (fun _ _ => True) (PutHandler.handleImpl inner args) k := by
  have looks : OnlyLooks (PutHandler.appendFilename args.filename : Act H _) :=
    Avoids.appendFilename (fun _ hn => hn trivial) _
  refine Amid.then ((Amid.looking looks h).mono (fun _ h => h) fun append k hk _ => ?_)
  cases append with
  | none => exact Amid.looking (OnlyLooks.refused _) hk
  | some append =>
    refine Amid.then (Amid.reader hk (fun a => hk.keep _) fun header => ?_)
    have hk := hk.more (FileHeader.form.msg header)
    -- from here on the header is known
    refine Amid.mono (J := Handling H w c []) (I := Handling H w c [FileHeader.form.msg header])
      (Q := fun _ _ => True) ?_ (fun k hk => ⟨hk.obeys, hk.command, List.nil_subset _⟩) fun _ _ _ h => h
    have hclaims : ∀ q got, [FileHeader.form.msg header] ⊆ got →
        Lands H w (getPaths (if append then Posix.push args.filename header.toV2.filename else args.filename)
          header.toV2.filename) q → c.Claims H w got q := fun q got hm hl =>
      hA q got ⟨header, hm List.mem_cons_self, hl.1.imp fun p hp => ⟨getPaths_subset_putPaths _ _ _ hp.1, hp.2⟩, hl.2⟩
    refine Amid.then ((Amid.createOrTruncate hk hclaims).mono (fun _ h => h) fun r k hk hr => ?_)
    cases r with
    | error e => exact Amid.looking (OnlyLooks.refused _) hk
    | ok file =>
      refine Amid.strays (A := fun q => q = file) ?_ hk fun q got hm hq => hclaims q got hm (hq ▸ hr file rfl)
      have looks : ∀ {p : Act H Unit}, OnlyLooks p →
          Avoids (S := H.sig) (fun op => ∃ q, op.Alters H q ∧ ¬ q = file) p :=
        fun hp => hp.mono fun op hop hl => hop.elim fun q hq => hl.not_alters q hq.1
      have here : ∀ op : Op, (∀ q, op.Alters H q → q = file) → ¬ ∃ q, op.Alters H q ∧ ¬ q = file :=
        fun op hop hn => hn.elim fun q hq => hq.2 (hop q hq.1)
      refine .then (looks OnlyLooks.sendOk) fun _ => .then Avoids.flushed fun _ => ?_
      refine .then (Avoids.copyIn _ _ _ (here _ fun _ hq => hq.elim) fun _ => here _ fun _ hq => hq) fun r => ?_
      cases r with
      | error e => exact looks (OnlyLooks.refused _)
      | ok n =>
        refine .then (Avoids.reader _) fun trailer => ?_
        refine .then (Avoids.call (S := H.sig) (here (.flushFile file) fun _ hq => hq.elim)) fun r => ?_
        refine .then (Avoids.ofExcept r) fun _ => ?_
        refine .then (Avoids.updateMetadata file _ (here _ fun _ hq => hq.elim) (fun _ _ => here _ fun _ hq => hq)
          fun _ _ _ _ => here _ fun _ hq => hq) fun _ => ?_
        exact .then (looks OnlyLooks.sendOk) fun _ => Avoids.flushed

theorem Amid.createDirectoryHandle {args : CreateDirectoryArgs} (h : Handling H w (.createDirectory args) ms k) :
    Amid (S := H.sig) (Op.Can H w) (Handling H w (.createDirectory args) ms) (fun _ _ => True)
      (CreateDirectoryHandler.handleImpl args) k := by
  refine Amid.then (Amid.call (S := H.sig) h (fun r _ => h.did fun q hq => hq.elim) fun r _ => ?_)
  have hk : Handling H w (.createDirectory args) ms (k.did ⟨.metadata args.dirName, r⟩) := h.did fun q hq => hq.elim
  cases r with
  | ok info =>
    simp only
    split
    · exact Amid.looking (OnlyLooks.refused _) hk
    · split
      · exact Amid.looking OnlyLooks.sendOk hk
      · exact Amid.fail hk
  | error e =>
    have made : ∀ r, Op.Can H w (.createDir args.dirName) r →
        Handling H w (.createDirectory args) ms
        ((k.did ⟨.metadata args.dirName, .error e⟩).did ⟨.createDir args.dirName, r⟩) := by
      intro r hr
      refine hk.did fun q hq => ?_
      cases r with
      | error e => exact hq.elim
      | ok u =>
        cases hq
        exact ⟨rfl, none_of_can hr⟩
    refine Amid.then (Amid.call (S := H.sig) hk made fun r hr => ?_)
    cases r with
    | error e => exact Amid.looking (OnlyLooks.refused _) (made _ hr)
    | ok u => exact Amid.looking OnlyLooks.sendOk (made _ hr)

theorem Amid.setMetadataHandle {args : SetMetadataArgs} (h : Handling H w (.setMetadata args) ms k) :
    Amid (S := H.sig) (Op.Can H w) (Handling H w (.setMetadata args) ms) (fun _ _ => True)
      (SetMetadataHandler.handleImpl args) k := by
  refine Amid.then (Amid.call (S := H.sig) h (fun r _ => h.did fun q hq => hq.elim) fun r hr => ?_)
  have hk : Handling H w (.setMetadata args) ms (k.did ⟨.metadata args.path, r⟩) := h.did fun q hq => hq.elim
  cases r with
  | error e => exact Amid.looking (OnlyLooks.refused _) hk
  | ok info =>
    simp only
    split
    · rename_i hd
      have hdir := isDir_of_can hr hd
      refine Amid.strays (A := fun q => q = H.place args.path)
        (Avoids.applyAll_strays (A := fun q => q = H.place args.path) rfl args.metadata) hk ?_
      rintro q got - rfl
      exact ⟨rfl, hdir⟩
    · exact Amid.looking (OnlyLooks.refused _) hk

/-- **The handler of a command.** -/
theorem Amid.commandHandler (inner : SessionCommandInner) (h : Handling H w c [] k) :
    Amid (S := H.sig) (Op.Can H w) (Handling H w c []) (fun _ _ => True) (commandHandler inner c) k := by
  cases c with
  | get args => exact Amid.looking (OnlyLooks.getHandle inner ⟨args.filename, []⟩) h
  | get2 args => exact Amid.looking (OnlyLooks.getHandle inner args) h
  | put args => exact Amid.putHandle inner ⟨args.filename, []⟩ h fun _ _ hc => hc
  | put2 args => exact Amid.putHandle inner args h fun _ _ hc => hc
  | createDirectory args => exact Amid.createDirectoryHandle h
  | setMetadata args => exact Amid.setMetadataHandle h
  | list args => exact Amid.looking (OnlyLooks.listingHandle args) h

/-- **A server's side of a stream**, whatever the others do: it changes what its command is for. -/
theorem Amid.handleStream (inner : SessionCommandInner) :
    Amid (S := H.sig) (Op.Can H w) (Obeys H w) (fun _ _ => True) (handleStream inner : Act H Unit) .empty := by
  have nothing : ∀ got, Obeys H w ⟨got, []⟩ := fun got e he => absurd he List.not_mem_nil
  refine Amid.then (Amid.attempt (Q := fun c k => k = Record.empty.keep (S := H.sig) (Msg.command c))
    (Amid.reader (nothing _) (fun _ => nothing _) fun c => rfl) ?_ fun e k hk => ?_)
  · rintro c k - rfl
    exact (Amid.commandHandler inner ⟨nothing _, rfl, List.nil_subset _⟩).mono (fun _ h => h.obeys) fun _ _ _ h => h
  · cases e with
    | recv e =>
      cases e with
      | short e =>
        simp only
        split
        · exact Amid.pure hk trivial
        · exact Amid.fail hk
      | tooLong n => exact Amid.fail hk
      | malformed => exact Amid.fail hk
    | status s => exact Amid.fail hk
    | io e => exact Amid.fail hk
    | response r => exact Amid.fail hk
    | tooLong n l => exact Amid.fail hk
    | other t => exact Amid.fail hk
    | panicked t => exact Amid.fail hk

end Handlers

/-! ## Connections change what their commands are for -/

/-- **However many streams a server handles at once**, and whatever is sent on them: what is not as it was on its host
is where the command of one of them is for it, and nothing was removed or has changed its kind. -/
theorem connection_footprint (H : Host) (inner : SessionCommandInner) (w : World) (c : Connection H)
    (h : Connection.Reach inner w c) : KindsKept w c.streams.world ∧
      ∀ q, c.streams.world q ≠ w q → ∃ stream ∈ c.streams.members, Claimed H w stream.2.got q := by
  have hcrowd := Connection.crowd_of_reach h
  have hstep : ∀ v op r v', KindsKept w v → H.sig.sem v op r v' → KindsKept w v' := fun v op r v' hv hs =>
    hv.trans (Host.sem_kindsKept hs)
  refine ⟨Crowd.world_of_reach (.refl w) hstep hcrowd, fun q hq => ?_⟩
  obtain ⟨stream, hmem, e, he, ha⟩ := Crowd.changed (S := H.sig) (fun (v : World) q => v q) (Altered H)
    (fun v op r v' q hs hn => sem_altered hs hn) hcrowd hq
  have hobeys := Crowd.each (S := H.sig) (.refl w) hstep (fun v op r v' hv hs => ⟨v, v', hv, hs⟩)
    (Amid.handleStream inner) hcrowd stream hmem
  exact ⟨stream, hmem, hobeys.now e he q ha⟩

/-! ## Sessions are connections -/

/-- The last stream of a connection takes a step of its own. -/
theorem Connection.Reach.last {H : Host} {inner : SessionCommandInner} {w : World}
    {finished : List (Proc.Config H.sig (Except Err Unit))} {d d' : Proc.Config H.sig (Except Err Unit)}
    (h : Connection.Reach inner w ⟨⟨d.2.world, finished ++ [d]⟩, none⟩) (hs : Proc.Step d d') :
    Connection.Reach inner w ⟨⟨d'.2.world, finished ++ [d']⟩, none⟩ :=
  h.tail (.handles none (.turn d.2.world finished d d' [] hs))

section Served

variable {G H : Host} {inner inner' : SessionCommandInner} {recurse : Bool} {jobs : List CopyJobSpec} {u w : World}

/-- The server's side of what a session is at, behind the streams that it is done with. -/
def Stage.served (finished : List (Proc.Config H.sig (Except Err Unit))) : Stage G H → Connection H
  | idle _ w' => ⟨⟨w', finished⟩, none⟩
  | busy _ _ x => ⟨⟨x.2.2.world, finished ++ [x.2]⟩, none⟩

/-- **Every session is a connection of its server**, that has handled one stream after another. -/
theorem Session.served {s : Session G H} (h : Session.Reach inner inner' recurse jobs u w s) :
    ∃ finished, Connection.Reach inner' w (s.stage.served finished) := by
  induction h with
  | refl => exact ⟨[], .refl⟩
  | tail _ hs ih =>
    obtain ⟨finished, hc⟩ := ih
    cases hs with
    | begins job phase u₁ w₁ steps hj hp => exact ⟨finished, hc.tail (.accepts _)⟩
    | moves job phase x x' steps hx =>
      cases hx with
      | left c c' d h hr => exact ⟨finished, hc⟩
      | right c d d' h hr => exact ⟨finished, Connection.Reach.last hc h⟩
    | ends job phase x steps r outcome hx ho => exact ⟨finished ++ [x.2], hc⟩
    | makes job made u₁ u₂ w₁ steps hj hm => exact ⟨finished, hc⟩

end Served

/-- A file was sent on one stream, and there is another. -/
theorem connection_footprint_sent : ∃ (x : Joint oneHost apartHost)
    (finished : List (Proc.Config apartHost.sig (Except Err Unit))) (c : Connection apartHost), x.2.1 = .ret (.ok ()) ∧
    c.streams = Crowd.join (handleStream (withBuffer 1048576)) ⟨x.2.2.world, finished ++ [x.2]⟩ ∧
    KindsKept currentDir c.streams.world ∧
    ∀ q, c.streams.world q ≠ currentDir q → ∃ stream ∈ c.streams.members,
    Claimed apartHost currentDir stream.2.got q := by
  obtain ⟨x, hx, hret, -⟩ := sending_run
  have hreach : Session.Reach (G := oneHost) (H := apartHost) (withBuffer 1048576) (withBuffer 1048576) true [sending]
      shortFile currentDir ⟨.busy sending .transfer x, []⟩ :=
    Session.Reach.busy .refl (List.mem_singleton_self sending) nofun hx
  obtain ⟨finished, hc⟩ := Session.served hreach
  exact ⟨x, finished, _, hret, rfl, connection_footprint apartHost (withBuffer 1048576) currentDir _
    (hc.tail (.accepts _))⟩

end Qcp
