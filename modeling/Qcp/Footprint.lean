import Qcp.Completion
import Qcp.Modes
/-!
# Footprint — what a request may change, on either host

`Op.Alters` says where an operation can change something, `OnlyAt` that two worlds differ only at some places.  A
request has a footprint on either side: a GET the file the client writes, a PUT the one the server writes, a directory
or its mode.  `request_footprint` says that in every state of every exchange, whatever fails or is cut off, nothing
else is changed, nothing is removed and nothing changes its kind.
-/
namespace Qcp

open Bare (Bytes Text)
open Posix (Path push fileName)
open Proc (Pair View Local Steps Task Ok Avoids All)
open Frame (frame)

/-! ## Operations -/

/-- Where an operation can change something. -/
def Op.Alters (H : Host) (q : Place) : Op → Prop
  | openWrite p _ | createDir p | setPermissions p _ => q = H.place p
  | write h _ | setTimes h _ _ | setFilePermissions h _ => q = h
  | _ => False

/-- **Two worlds that differ only at these places.** -/
def OnlyAt (A : Place → Prop) (w w' : World) : Prop := ∀ q, ¬ A q → w' q = w q

/-- **Nothing was removed, or has become something else.** -/
def KindsKept (w w' : World) : Prop := ∀ q n, w q = some n → ∃ n', w' q = some n' ∧ n'.info.kind = n.info.kind

theorem OnlyAt.refl (A : Place → Prop) (w : World) : OnlyAt A w w := fun _ _ => rfl

theorem OnlyAt.trans {A : Place → Prop} {w w' w'' : World} (h : OnlyAt A w w') (h' : OnlyAt A w' w'') :
    OnlyAt A w w'' :=
  fun q hq => (h' q hq).trans (h q hq)

theorem OnlyAt.mono {A B : Place → Prop} {w w' : World} (h : OnlyAt A w w') (hAB : ∀ q, A q → B q) : OnlyAt B w w' :=
  fun q hq => h q fun ha => hq (hAB q ha)

theorem OnlyAt.put {A : Place → Prop} {w w' : World} (h : OnlyAt A w w') {q : Place} (hq : A q) (n : Node) :
    OnlyAt A w (w'.put q n) := fun p hp => by
  have hne : p ≠ q := fun he => hp (by rw [he]; exact hq)
  rw [World.put, Function.update_of_ne hne]
  exact h p hp

theorem KindsKept.refl (w : World) : KindsKept w w := fun _ n hn => ⟨n, hn, rfl⟩

theorem KindsKept.trans {w w' w'' : World} (h : KindsKept w w') (h' : KindsKept w' w'') : KindsKept w w'' :=
  fun q n hn => by
  obtain ⟨n', hn', hk⟩ := h q n hn
  obtain ⟨n'', hn'', hk'⟩ := h' q n' hn'
  exact ⟨n'', hn'', hk'.trans hk⟩

/-- Something is put in the place of what is of its kind, or of nothing. -/
theorem KindsKept.put {w : World} {q : Place} {n : Node} (h : ∀ m, w q = some m → n.info.kind = m.info.kind) :
    KindsKept w (w.put q n) := fun p m hm => by
  by_cases hp : p = q
  · subst hp
    exact ⟨n, World.put_same .., h m hm⟩
  · exact ⟨m, by rw [World.put, Function.update_of_ne hp, hm], rfl⟩

theorem KindsKept.isDir {w w' : World} (h : KindsKept w w') {q : Place} (hd : w.isDir q) : w'.isDir q := by
  obtain ⟨n, hn, hk⟩ := hd
  obtain ⟨n', hn', hk'⟩ := h q n hn
  exact ⟨n', hn', by rw [Metadata.isDir, hk']; exact hk⟩

section Operations

variable {H : Host} {w w' : World} {op : Op} {r : op.Ret}

/-- **An operation changes nothing elsewhere.** -/
theorem Host.sem_frame (h : H.sem w op r w') {q : Place} (hq : ¬ op.Alters H q) : w' q = w q := by
  have other : ∀ {p : Place} {n : Node}, ¬ q = p → w.put p n q = w q := fun hp => Function.update_of_ne hp ..
  cases op with
  | metadata p => rw [h.1]
  | openRead p => rw [h.1]
  | fileMetadata p => rw [h.1]
  | readAt p pos cap => rw [h.1]
  | flushFile p => rw [show w' = w from h]
  | walkDir p recurse => rw [show w' = w from h]
  | write p bs =>
    obtain ⟨n, n', -, rfl, -⟩ := h
    exact other hq
  | openWrite p mode =>
    cases r with
    | error e => rw [show w' = w from h]
    | ok f =>
      obtain ⟨rfl, n, -, rfl⟩ := h
      exact other hq
  | setTimes p accessed modified =>
    cases r with
    | error e => rw [show w' = w from h]
    | ok u =>
      obtain ⟨n, -, rfl⟩ := h
      exact other hq
  | setFilePermissions p mode =>
    cases r with
    | error e => rw [show w' = w from h]
    | ok u =>
      obtain ⟨n, -, rfl⟩ := h
      exact other hq
  | createDir p =>
    cases r with
    | error e => rw [show w' = w from h]
    | ok u =>
      obtain ⟨-, m, -, rfl⟩ := h
      exact other hq
  | setPermissions p mode =>
    cases r with
    | error e => rw [show w' = w from h]
    | ok u =>
      obtain ⟨n, -, rfl⟩ := h
      exact other hq

/-- **No operation removes anything**, or makes a file a directory. -/
theorem Host.sem_kindsKept (h : H.sem w op r w') : KindsKept w w' := by
  have same : ∀ {p : Place} {n n' : Node}, w p = some n → n'.info.kind = n.info.kind → KindsKept w (w.put p n') := by
    intro p n n' hn hk
    refine .put fun m hm => ?_
    cases hn.symm.trans hm
    exact hk
  cases op with
  | metadata p => rw [h.1]; exact .refl w
  | openRead p => rw [h.1]; exact .refl w
  | fileMetadata p => rw [h.1]; exact .refl w
  | readAt p pos cap => rw [h.1]; exact .refl w
  | flushFile p => rw [show w' = w from h]; exact .refl w
  | walkDir p recurse => rw [show w' = w from h]; exact .refl w
  | write p bs =>
    obtain ⟨n, n', hn, rfl, hr⟩ := h
    cases r with
    | ok u => exact same hn hr.2.1
    | error e =>
      obtain ⟨front, -, hw⟩ := hr
      exact same hn hw.2.1
  | openWrite p mode =>
    cases r with
    | error e => rw [show w' = w from h]; exact .refl w
    | ok f =>
      obtain ⟨rfl, n, ho, rfl⟩ := h
      refine .put fun m hm => ?_
      rw [hm] at ho
      cases ho
      rfl
  | setTimes p accessed modified =>
    cases r with
    | error e => rw [show w' = w from h]; exact .refl w
    | ok u =>
      obtain ⟨n, hn, rfl⟩ := h
      exact same hn rfl
  | setFilePermissions p mode =>
    cases r with
    | error e => rw [show w' = w from h]; exact .refl w
    | ok u =>
      obtain ⟨n, hn, rfl⟩ := h
      exact same hn rfl
  | createDir p =>
    cases r with
    | error e => rw [show w' = w from h]; exact .refl w
    | ok u =>
      obtain ⟨hnone, m, -, rfl⟩ := h
      refine .put fun m' hm' => ?_
      rw [hnone] at hm'
      cases hm'
  | setPermissions p mode =>
    cases r with
    | error e => rw [show w' = w from h]; exact .refl w
    | ok u =>
      obtain ⟨n, hn, rfl⟩ := h
      exact same hn rfl

/-- **In every run of every program**, likewise. -/
theorem kindsKept_of_steps {α : Type} {p : Act H α} {c : Proc.Config H.sig (Except Err α)}
    (h : Steps (p, Local.init w) c) : KindsKept w c.2.world := by
  have hall := All.of_preserved (S := H.sig) (I := fun s => KindsKept w s.world) (fun {A c c'} hc hs => ?_) p
    (Local.init w) (.refl w)
  · exact hall.inv h
  · cases hs with
    | call op k s r w' hw => exact hc.trans (Host.sem_kindsKept hw)
    | _ => exact hc

/-- What changes nothing but at these places. -/
theorem Ok.only_of_avoids {α : Type} {A : Place → Prop} {p : Act H α} {v : View H.sig}
    (hp : Avoids (S := H.sig) (fun op => ∃ q, op.Alters H q ∧ ¬ A q) p) (hv : OnlyAt A w v.world) :
    Ok (fun v => OnlyAt A w v.world) (fun _ _ => True) p v := by
  rintro s rfl
  refine (Avoids.allWorld (S := H.sig) (P := OnlyAt A w) (fun w₁ op r w₂ hop hs h q hq => ?_) hp hv).mono
    (fun _ h => h) fun _ _ _ _ _ _ => trivial
  exact (Host.sem_frame hs fun ha => hop ⟨q, ha, hq⟩).trans (h q hq)

end Operations

/-! ## Requests of one message -/

section Commanding

variable {H : Host} {p : Command → Prop}

/-- All along a request that sends no more than its command. -/
def Commanding (p : Command → Prop) (v : View H.sig) : Prop :=
  v.tried = [] ∨ ∃ c, p c ∧ Command.form.Fits c ∧ v.tried = [.command c]

/-- A command is sent, and consent is read. -/
theorem Ok.commanding {α : Type} {c : Command} {k : Response → Act H α} {v : View H.sig} (hc : p c) (ht : v.tried = [])
    (hk : ∀ r v, (∀ bs got l, Commanding p { v with taken := bs, got := got, lost := l }) →
      Ok (Commanding p) (fun _ _ => True) (k r) v) :
    Ok (Commanding p) (fun _ _ => True) (do
      toWriterFramed Command.form c
      Act.flush
      let r ← Qcp.intoResult (← fromReaderFramed Response.form)
      k r) v := by
  have htried : v.tried ++ [.command c] = [.command c] := by rw [ht, List.nil_append]
  apply Ok.then (Ok.writer (Or.inl ht) (fun hf _ => Or.inr ⟨c, hc, hf, htried⟩) fun hf => ?_)
  have later : ∀ v : View H.sig, v.tried = [.command c] → Commanding p v := fun v h => Or.inr ⟨c, hc, hf, h⟩
  apply Ok.then (Ok.flushed (later _ htried) ?_)
  apply Ok.then (Ok.reader (fun _ _ => later _ htried) (fun _ _ _ _ _ => later _ htried) fun bs r _ _ _ => ?_)
  exact Ok.then (Ok.intoResult (later _ htried) fun _ => hk r _ fun _ _ _ => later _ htried)

theorem Ok.createDirectory_commanding (inner : SessionCommandInner) (job : CopyJobSpec) (w : World) :
    Ok (Commanding fun c => c = .createDirectory ⟨job.destination.filename, []⟩) (fun _ _ => True)
      (CreateDirectoryHandler.sendImpl inner job : Act H RequestResult) (View.init w) := by
  apply Ok.then (Ok.ensure (Or.inl rfl) fun _ => ?_)
  apply Ok.then (Ok.ensure (Or.inl rfl) fun _ => ?_)
  exact Ok.commanding rfl rfl fun r v h => Ok.pure (h v.taken v.got v.lost) trivial

theorem Ok.setMetadata_commanding (inner : SessionCommandInner) (job : CopyJobSpec) (w : World) :
    Ok (Commanding (SetsMetadata inner job)) (fun _ _ => True)
      (SetMetadataHandler.sendImpl inner job : Act H RequestResult) (View.init w) := by
  apply Ok.then (Ok.ensure (Or.inl rfl) fun _ => ?_)
  apply Ok.then (Ok.metadata (fun _ _ => Or.inl rfl) fun r d _ _ => ?_)
  apply Ok.then (Ok.ofExcept (Or.inl rfl) fun info _ => ?_)
  apply Ok.then (Ok.ensure (Or.inl rfl) fun _ => ?_)
  exact Ok.commanding ⟨info, rfl⟩ rfl fun r v h => Ok.pure (h v.taken v.got v.lost) trivial

theorem Ok.listing_commanding (inner : SessionCommandInner) (job : CopyJobSpec) (recurse : Bool) (w : World) :
    Ok (Commanding fun c => c = ListingHandler.command job recurse) (fun _ _ => True)
      (ListingHandler.sendImpl inner job recurse : Act H RequestResult) (View.init w) := by
  apply Ok.then (Ok.ensure (Or.inl rfl) fun _ => ?_)
  refine Ok.commanding rfl rfl fun r v h => Ok.then ?_
  -- the packets are read, and nothing is said
  apply Ok.loop (fun _ v' => ∃ bs got l, v' = { v with taken := bs, got := got, lost := l })
  · rintro _ _ ⟨bs, got, l, rfl⟩
    exact h bs got l
  · rintro data _ ⟨bs, got, l, rfl⟩
    refine Ok.then (Ok.reader (fun _ _ => h _ _ _) (fun _ _ _ _ _ => h _ _ _) fun bs' packet _ _ _ => ?_)
    split
    · exact Ok.pure (h _ _ _) ⟨_, _, _, rfl⟩
    · have done : ∀ bs got l, Ok (Commanding fun c => c = ListingHandler.command job recurse) (fun _ _ => True)
          (pure ⟨0, some (ListData.join (data ++ [packet]))⟩ : Act H RequestResult)
          { v with taken := bs, got := got, lost := l } := fun bs got l => Ok.pure (h bs got l) trivial
      exact Ok.pure (h _ _ _) (done _ _ _)
  · exact ⟨v.taken, v.got, v.lost, rfl⟩

end Commanding

/-! ## Where a file goes -/

/-- What a server may open for a file of this name that is put to this path. -/
def putPaths (dest : Path) (name : Text) : List Path := [dest, push dest name, push (push dest name) name]

/-- What a client may open for one that it gets. -/
def getPaths (dest : Path) (name : Text) : List Path := [dest, push dest name]

/-- **Where a file may land**: where one of these paths leads to, unless there is a directory. -/
def Lands (H : Host) (w : World) (paths : List Path) (q : Place) : Prop := (∃ p ∈ paths, q = H.place p) ∧ ¬ w.isDir q

theorem destPath_mem_getPaths (dest : Path) (name : Text) (found : Except IoError Metadata) :
    destPath dest name found ∈ getPaths dest name := by
  unfold destPath getPaths
  split
  · split <;> simp
  · simp

theorem destPath_mem_putPaths (dest : Path) (name : Text) (append : Bool) (found : Except IoError Metadata) :
    destPath (if append then push dest name else dest) name found ∈ putPaths dest name := by
  have h := destPath_mem_getPaths (if append then push dest name else dest) name found
  cases append with
  | true => exact List.mem_cons_of_mem dest h
  | false =>
    rw [if_neg Bool.false_ne_true] at h ⊢
    exact List.mem_append_left [push (push dest name) name] h

/-- Where a file may land whose header was read behind this. -/
def LandsBehind (H : Host) (w : World) (paths : Text → List Path) (before taken : Bytes) (q : Place) : Prop :=
  ∃ hb header, FileHeader.form.Reads hb header ∧ before ++ frame hb <+: taken ∧ Lands H w (paths header.toV2.filename) q

/-- Anything that was changed, or opened to be, is where a file may have landed. -/
structure Landed (H : Host) (w : World) (paths : Text → List Path) (before : Bytes) (v : View H.sig) : Prop where
  changed : ∀ q, v.world q ≠ w q → LandsBehind H w paths before v.taken q
  opened : ∀ path q, (path, q) ∈ opens v.done → LandsBehind H w paths before v.taken q

section Landing

variable {H : Host} {w : World} {paths : Text → List Path} {before : Bytes}

theorem Landed.same {v : View H.sig} (h : v.world = w) (hd : opens v.done = []) : Landed H w paths before v where
  changed q hq := absurd (by rw [h]) hq
  opened path q hm := by
    rw [hd] at hm
    cases hm

/-- Where a file was opened it may land. -/
theorem lands_of_opened {hb : Bytes} {header : FileHeader} {path : Path} {mode : Option UInt32} {n : Node}
    (hr : FileHeader.form.Reads hb header) (hp : path ∈ paths header.toV2.filename)
    (ho : H.Opened mode (w (H.place path)) n) (n' : Node) {w' : World} {taken : Bytes}
    (hw : w' = w.put (H.place path) n')
    (ht : before ++ frame hb <+: taken) (q : Place) (hq : w' q ≠ w q) : LandsBehind H w paths before taken q := by
  have hq : q = H.place path := by
    by_contra hne
    rw [hw, World.put, Function.update_of_ne hne] at hq
    exact hq rfl
  rw [hq]
  exact ⟨hb, header, hr, ht, ⟨path, hp, rfl⟩, ho.not_isDir⟩

theorem Landed.of_opened {hb : Bytes} {header : FileHeader} {path : Path} {mode : Option UInt32} {n : Node}
    (hr : FileHeader.form.Reads hb header) (hp : path ∈ paths header.toV2.filename)
    (ho : H.Opened mode (w (H.place path)) n) (n' : Node) {v : View H.sig} (hw : v.world = w.put (H.place path) n')
    (ht : before ++ frame hb <+: v.taken) (hd : opens v.done = [(path, H.place path)]) : Landed H w paths before v := by
  refine ⟨lands_of_opened hr hp ho n' hw ht, fun path' q hm => ?_⟩
  rw [hd] at hm
  cases List.mem_singleton.1 hm
  exact ⟨hb, header, hr, ht, ⟨path, hp, rfl⟩, ho.not_isDir⟩

end Landing

section Handlers

variable {H : Host}

/-- A refusal changes nothing. -/
theorem Ok.refusal_landed {w : World} {paths : Text → List Path} {before : Bytes} {err : Refusal} {v : View H.sig}
    (h : ∀ tried sent, Landed H w paths before { v with tried := tried, sent := sent }) :
    Ok (Landed H w paths before) (fun _ _ => True) (Qcp.errorAndReturn err : Act H Unit) v :=
  Ok.writer (F := Response.form) (h _ _) (fun _ _ => h _ _) fun _ => trivial

/-- **What the server of a PUT may have changed.** -/
theorem Ok.putServer_landed (inner : SessionCommandInner) (args : Get2Args) (w : World) (c : Command) (cb : Bytes) :
    Ok (Landed H w (putPaths args.filename) (frame cb)) (fun _ _ => True) (PutHandler.handleImpl inner args)
      (heard w c cb) := by
  apply Ok.then
  apply Ok.appendFilename _ (fun d hd => .same rfl hd)
  intro r d hd
  cases r with
  | none => exact Ok.refusal_landed fun _ _ => .same rfl hd
  | some append =>
    apply Ok.then (Ok.reader (fun _ _ => .same rfl hd) (fun _ _ _ _ _ => .same rfl hd) fun hb header _ hhl hhd => ?_)
    apply Ok.then (Ok.createOrTruncate (.same rfl hd) (fun _ => .same rfl ((opens_more rfl).trans hd))
      (fun _ _ => Ok.refusal_landed fun _ _ => .same rfl ((opens_more rfl).trans hd)) fun found o wo _ ho => ?_)
    have hmem := destPath_mem_putPaths args.filename header.toV2.filename append found
    generalize destPath _ header.toV2.filename found = path at ho hmem
    cases o with
    | error e =>
      cases ho
      exact ⟨.same rfl ((opens_more rfl).trans hd), Ok.refusal_landed fun _ _ => .same rfl ((opens_more rfl).trans hd)⟩
    | ok file =>
      obtain ⟨rfl, n, hopen, rfl⟩ := ho
      have hone : ∀ given, opens (d ++ [⟨.metadata given, found⟩,
          ⟨.openWrite path (appliedMode H header.toV2.metadata), .ok (H.place path)⟩]) = [(path, H.place path)] :=
        fun given => by rw [opens_append, hd]; rfl
      -- from here on only that place is changed
      have later : ∀ (n' : Node) (v : View H.sig), v.world = w.put (H.place path) n' →
          frame cb ++ frame hb <+: v.taken →
          opens v.done = [(path, H.place path)] → Landed H w (putPaths args.filename) (frame cb) v :=
        fun n' _ => Landed.of_opened ⟨hhl, hhd⟩ hmem hopen n'
      have now := List.prefix_refl (frame cb ++ frame hb)
      refine ⟨later n _ rfl now (hone _), ?_⟩
      apply Ok.then (Ok.sendOk (later n _ rfl now (hone _)) (fun _ => later n _ rfl now (hone _)) ?_)
      apply Ok.then (Ok.flushed (later n _ rfl now (hone _)) ?_)
      have put : ∀ n', (w.put (H.place path) n).put (H.place path) n' = w.put (H.place path) n' := World.put_put w _ n
      apply Ok.then (Ok.copyIn (World.put_same w _ n)
        (fun bs l n' d' hd' => later n' _ (put n') (List.prefix_append _ _) ((opens_more hd').trans (hone _)))
        (fun bs l n' d' _ _ _ _ hd' => ?_) fun e bs l n' d' hd' => Ok.refusal_landed fun _ _ =>
          later n' _ (put n') (List.prefix_append _ _) ((opens_more hd').trans (hone _)))
      have put' : ∀ n'', ((w.put (H.place path) n).put (H.place path) n').put (H.place path) n'' =
          w.put (H.place path) n'' := fun n'' => by rw [put, World.put_put]
      have hopens : ∀ given d2, opens d2 = [] → opens (d ++ [⟨.metadata given, found⟩,
          ⟨.openWrite path (appliedMode H header.toV2.metadata), .ok (H.place path)⟩] ++ d' ++ d2) =
          [(path, H.place path)] :=
        fun given d2 hd2 => (opens_more hd2).trans ((opens_more hd').trans (hone given))
      apply Ok.finish (World.put_same _ _ n') (fun bs' got info d2 l' hd2 _ => ?_) fun tb t ch d2 _ _ _ hd2 _ => ?_
      · exact later _ _ (put' _) ((List.prefix_append _ _).trans (List.prefix_append _ _)) (hopens _ d2 hd2)
      · have htaken : frame cb ++ frame hb <+: (heard (H := H) w c cb).taken ++ frame hb ++ bs ++ frame tb :=
          (List.prefix_append _ _).trans (List.prefix_append _ _)
        apply Ok.then (Ok.sendOk (later _ _ (put' _) htaken (hopens _ d2 hd2))
          (fun _ => later _ _ (put' _) htaken (hopens _ d2 hd2)) ?_)
        exact Ok.flushed (later _ _ (put' _) htaken (hopens _ d2 hd2)) trivial

/-- Once it has read consent, in these bytes, the client of a GET keeps to what `Landed` says. -/
def LandedAfter (H : Host) (w : World) (dest : Path) (rb : Bytes) (v : View H.sig) : Prop :=
  (∃ r, Response.form.Reads rb r ∧ r.status = Status.ok.toRepr) ∧ Landed H w (getPaths dest) (frame rb) v

/-- The client of a GET has sent no more than its command, and before there is consent it has changed nothing. -/
structure Fetching (H : Host) (w : World) (cmd : Command) (dest : Path) (v : View H.sig) : Prop where
  asks : Commanding (· = cmd) v
  landed : (v.world = w ∧ opens v.done = []) ∨ ∃ rb, LandedAfter H w dest rb v

theorem Fetching.same {w : World} {cmd : Command} {dest : Path} {v : View H.sig} (ha : Commanding (· = cmd) v)
    (h : v.world = w) (hd : opens v.done = []) : Fetching H w cmd dest v := ⟨ha, Or.inl ⟨h, hd⟩⟩

theorem Ok.getClient_fetching (inner : SessionCommandInner) (job : CopyJobSpec) (w : World) :
    Ok (Fetching H w (GetHandler.command inner job) job.destination.filename) (fun _ _ => True)
      (GetHandler.sendImpl inner job) (View.init w) := by
  apply Ok.then (Ok.writer (.same (Or.inl rfl) rfl rfl) (fun hfit _ => .same (Or.inr ⟨_, rfl, hfit, rfl⟩) rfl rfl)
    fun hfit => ?_)
  have asks : ∀ v : View H.sig, v.tried = [.command (GetHandler.command inner job)] →
      Commanding (· = GetHandler.command inner job) v := fun v ht => Or.inr ⟨_, rfl, hfit, ht⟩
  apply Ok.then (Ok.flushed (.same (asks _ rfl) rfl rfl) ?_)
  apply Ok.then (Ok.reader (fun _ _ => .same (asks _ rfl) rfl rfl) (fun _ _ _ _ _ => .same (asks _ rfl) rfl rfl)
    fun rb r _ hrl hrd => ?_)
  apply Ok.then (Ok.intoResult (.same (asks _ rfl) rfl rfl) fun hok => ?_)
  apply Ok.then (Ok.reader (fun _ _ => .same (asks _ rfl) rfl rfl) (fun _ _ _ _ _ => .same (asks _ rfl) rfl rfl)
    fun hb header _ hhl hhd => ?_)
  apply Ok.then (Ok.createOrTruncate (.same (asks _ rfl) rfl rfl) (fun _ => .same (asks _ rfl) rfl rfl)
    (fun _ _ => Ok.fail (.same (asks _ rfl) rfl rfl)) fun found o wo _ ho => ?_)
  have hmem := destPath_mem_getPaths job.destination.filename header.toV2.filename found
  generalize destPath job.destination.filename header.toV2.filename found = path at ho hmem
  cases o with
  | error e =>
    cases ho
    exact ⟨.same (asks _ rfl) rfl rfl, Ok.fail (.same (asks _ rfl) rfl rfl)⟩
  | ok file =>
    obtain ⟨rfl, n, hopen, rfl⟩ := ho
    have later : ∀ (n' : Node) (v : View H.sig), v.tried = [.command (GetHandler.command inner job)] →
        v.world = w.put (H.place path) n' → frame rb ++ frame hb <+: v.taken → opens v.done = [(path, H.place path)] →
        Fetching H w (GetHandler.command inner job) job.destination.filename v := fun n' v hv hw ht hd =>
      ⟨asks v hv, Or.inr ⟨rb, ⟨r, ⟨hrl, hrd⟩, hok⟩, .of_opened ⟨hhl, hhd⟩ hmem hopen n' hw ht hd⟩⟩
    have now := List.prefix_refl (frame rb ++ frame hb)
    refine ⟨later n _ rfl rfl now rfl, Ok.then (Ok.pure (later n _ rfl rfl now rfl) ?_)⟩
    apply Ok.then (Ok.progressBarFor (later n _ rfl rfl now rfl) ?_)
    have put : ∀ n', (w.put (H.place path) n).put (H.place path) n' = w.put (H.place path) n' := World.put_put w _ n
    apply Ok.then (Ok.copyIn (World.put_same w _ n)
      (fun bs l n' d' hd' => later n' _ rfl (put n') (List.prefix_append _ _) (opens_more hd'))
      (fun bs l n' d' _ _ _ _ hd' => ?_) fun e bs l n' d' hd' =>
        Ok.fail (later n' _ rfl (put n') (List.prefix_append _ _) (opens_more hd')))
    apply Ok.then (Ok.pure (later n' _ rfl (put n') (List.prefix_append _ _) (opens_more hd')) ?_)
    have put' : ∀ n'', ((w.put (H.place path) n).put (H.place path) n').put (H.place path) n'' =
        w.put (H.place path) n'' := fun n'' => by rw [put, World.put_put]
    apply Ok.finish (World.put_same _ _ n') (fun bs' got info d2 l' hd2 _ => ?_) fun tb t ch d2 _ _ _ hd2 _ => ?_
    · exact later _ _ rfl (put' _) ((List.prefix_append _ _).trans (List.prefix_append _ _))
        ((opens_more hd2).trans (opens_more hd'))
    · exact Ok.pure (later _ _ rfl (put' _) ((List.prefix_append _ _).trans (List.prefix_append _ _))
        ((opens_more hd2).trans (opens_more hd'))) trivial

end Handlers

/-! ## Programs that only look -/

/-- It changes nothing. -/
def Op.Looks : Op → Prop
  | metadata _ | openRead _ | fileMetadata _ | readAt _ _ _ | flushFile _ | walkDir _ _ => True
  | _ => False

theorem Op.Looks.not_alters {H : Host} {op : Op} (h : op.Looks) (q : Place) : ¬ op.Alters H q := by
  cases op <;> first | exact id | exact absurd h id

section Looking

variable {H : Host} {α : Type}

/-- A program that only looks. -/
abbrev OnlyLooks (p : Act H α) : Prop := Avoids (S := H.sig) (fun op => ¬ op.Looks) p

theorem OnlyLooks.asked (op : Op) (h : op.Looks) : OnlyLooks (Act.call op : Act H _) :=
  Avoids.call (S := H.sig) fun hn => hn h

theorem OnlyLooks.refused (err : Refusal) : OnlyLooks (errorAndReturn err : Act H Unit) :=
  Avoids.writer (F := Response.form) _

theorem OnlyLooks.sendOk : OnlyLooks (sendOk : Act H Unit) :=
  Avoids.writer (F := Response.form) ⟨Status.ok.toRepr, none⟩

theorem OnlyLooks.intoResult (r : Response) : OnlyLooks (intoResult r : Act H Response) := by
  unfold Qcp.intoResult
  split <;> exact trivial

theorem OnlyLooks.ensure (c : Bool) (text : Text) : OnlyLooks (ensure c text : Act H Unit) := by
  unfold Qcp.ensure
  split <;> exact trivial

theorem OnlyLooks.progressBarFor (inner : SessionCommandInner) (steps : Nat) :
    OnlyLooks (progressBarFor inner steps : Act H Unit) := by
  unfold Qcp.progressBarFor
  split <;> exact trivial

theorem OnlyLooks.protocolFilename (path : Path) : OnlyLooks (protocolFilename path : Act H Text) := by
  unfold Qcp.protocolFilename
  split <;> exact trivial

theorem OnlyLooks.openWithMeta (path : Path) : OnlyLooks (openWithMeta path : Act H _) := by
  refine .then (OnlyLooks.asked (.openRead path) trivial) fun r => ?_
  cases r with
  | error e => exact .pure _
  | ok h =>
    refine .then (OnlyLooks.asked (.fileMetadata h) trivial) fun r => ?_
    cases r with
    | error e => exact .pure _
    | ok info =>
      simp only
      split <;> exact .pure _

theorem OnlyLooks.copyOut (h : Place) (bufferSize : Nat) : OnlyLooks (copyOut h bufferSize : Act H _) := by
  have finish : ∀ amt, OnlyLooks (copyEnd Task.flush amt : Act H _) := by
    refine fun amt => .then .flush fun r => ?_
    cases r <;> exact .pure _
  refine .loop (fun amt => .then (OnlyLooks.asked (.readAt h amt bufferSize) trivial) fun r => ?_) 0
  cases r with
  | error e => exact .pure _
  | ok bs =>
    simp only
    split
    · exact finish amt
    · refine .then (.send _) fun r => ?_
      cases r <;> exact .pure _

/-- **The server of a GET.** -/
theorem OnlyLooks.getHandle (inner : SessionCommandInner) (args : Get2Args) :
    OnlyLooks (GetHandler.handleImpl inner args : Act H Unit) := by
  refine .then (OnlyLooks.openWithMeta _) fun r => ?_
  cases r with
  | error e => exact OnlyLooks.refused _
  | ok found =>
    obtain ⟨file, originalMeta⟩ := found
    simp only
    split
    · exact OnlyLooks.refused _
    · refine .then OnlyLooks.sendOk fun _ => .then (OnlyLooks.protocolFilename _) fun _ => .then
        (Avoids.writer _) fun _ => ?_
      refine .then (OnlyLooks.copyOut _ _) fun r => ?_
      cases r with
      | error e => exact .fail _
      | ok sent => exact .then (OnlyLooks.ensure _ _) fun _ => .then (Avoids.writer _) fun _ => Avoids.flushed

/-- **The client of a PUT.** -/
theorem OnlyLooks.putSend (inner : SessionCommandInner) (job : CopyJobSpec) :
    OnlyLooks (PutHandler.sendImpl inner job : Act H RequestResult) := by
  refine .then (OnlyLooks.openWithMeta _) fun r => .then (Avoids.ofExcept r) fun found => ?_
  obtain ⟨file, srcMeta⟩ := found
  simp only
  split
  · exact .fail _
  · refine .then (OnlyLooks.progressBarFor _ _) fun _ => .then (Avoids.writer _) fun _ => .then
      Avoids.flushed fun _ => ?_
    refine .then (OnlyLooks.protocolFilename _) fun _ => .then (Avoids.writer _) fun _ => .then
      (Avoids.reader _) fun r => ?_
    refine .then (OnlyLooks.intoResult r) fun _ => .then (OnlyLooks.copyOut _ _) fun r => ?_
    cases r with
    | error e =>
      simp only
      unfold PutHandler.explainFailure
      split
      · refine .then (Avoids.reader _).attempt fun r => ?_
        cases r <;> exact .fail _
      · exact .fail _
    | ok sent =>
      refine .then (OnlyLooks.ensure _ _) fun _ => .then (Avoids.writer _) fun _ => .then Avoids.flushed fun _ => ?_
      exact .then (Avoids.reader _) fun _ => .then (OnlyLooks.ensure _ _) fun _ => .pure _

theorem OnlyLooks.createDirectorySend (inner : SessionCommandInner) (job : CopyJobSpec) :
    OnlyLooks (CreateDirectoryHandler.sendImpl inner job : Act H RequestResult) := by
  refine .then (OnlyLooks.ensure _ _) fun _ => .then (OnlyLooks.ensure _ _) fun _ => .then (Avoids.writer _) fun _ => ?_
  refine .then Avoids.flushed fun _ => .then (Avoids.reader _) fun r => ?_
  exact .then (OnlyLooks.intoResult r) fun _ => .pure _

theorem OnlyLooks.setMetadataSend (inner : SessionCommandInner) (job : CopyJobSpec) :
    OnlyLooks (SetMetadataHandler.sendImpl inner job : Act H RequestResult) := by
  refine .then (OnlyLooks.ensure _ _) fun _ => ?_
  refine .then (OnlyLooks.asked (.metadata job.source.filename) trivial) fun r => ?_
  refine .then (Avoids.ofExcept r) fun localmeta => .then (OnlyLooks.ensure _ _) fun _ => .then
    (Avoids.writer _) fun _ => ?_
  refine .then Avoids.flushed fun _ => .then (Avoids.reader _) fun r => ?_
  exact .then (OnlyLooks.intoResult r) fun _ => .pure _

theorem OnlyLooks.listingSend (inner : SessionCommandInner) (job : CopyJobSpec) (recurse : Bool) :
    OnlyLooks (ListingHandler.sendImpl inner job recurse : Act H RequestResult) := by
  refine .then (OnlyLooks.ensure _ _) fun _ => .then (Avoids.writer _) fun _ => .then Avoids.flushed fun _ => ?_
  refine .then (Avoids.reader _) fun r => .then (OnlyLooks.intoResult r) fun _ => ?_
  refine .then (.loop (fun data => .then (Avoids.reader _) fun packet => ?_) _) fun _ => .pure _
  split <;> exact .pure _

theorem OnlyLooks.sendAll : ∀ packets : List ListData, OnlyLooks (ListingHandler.sendAll packets : Act H Unit)
  | [] => Avoids.flushed
  | p :: ps => .then (Avoids.writer p) fun _ => OnlyLooks.sendAll ps

theorem OnlyLooks.listingHandle (args : ListArgs) : OnlyLooks (ListingHandler.handleImpl args : Act H Unit) := by
  refine .then (OnlyLooks.asked (.metadata args.path) trivial) fun r => ?_
  cases r with
  | error e => exact OnlyLooks.refused _
  | ok info =>
    simp only
    split
    · exact .then OnlyLooks.sendOk fun _ => Avoids.writer _
    · refine .then (OnlyLooks.asked (.walkDir args.path _) trivial) fun r => ?_
      cases r with
      | error e => exact OnlyLooks.refused _
      | ok entries =>
        simp only
        split
        · exact trivial
        · exact .then OnlyLooks.sendOk fun _ => OnlyLooks.sendAll _

/-- **It leaves the world as it is.** -/
theorem OnlyLooks.only {p : Act H α} (hp : OnlyLooks p) (A : Place → Prop) {w : World} {v : View H.sig}
    (hv : OnlyAt A w v.world) : Ok (fun v => OnlyAt A w v.world) (fun _ _ => True) p v := by
  apply Ok.only_of_avoids _ hv
  refine hp.mono fun op hop => ?_
  rintro hl
  obtain ⟨q, hq, -⟩ := hop
  exact hl.not_alters q hq

end Looking

/-! ## Either side of a stream -/

/-- **Where a command may have changed something**, once so much was read. -/
def Command.Alters (H : Host) (w : World) (cb taken : Bytes) (q : Place) : Command → Prop
  | put args => LandsBehind H w (putPaths args.filename) (frame cb) taken q
  | put2 args => LandsBehind H w (putPaths args.filename) (frame cb) taken q
  | createDirectory args => q = H.place args.dirName ∧ w q = none
  | setMetadata args => q = H.place args.path ∧ w.isDir q
  | get _ | get2 _ | list _ => False

section Streams

variable {H : Host}

theorem Ok.createDirectoryServer_only (args : CreateDirectoryArgs) (w : World) (c : Command) (cb : Bytes) :
    Ok (fun v => OnlyAt (fun q => q = H.place args.dirName ∧ w q = none) w v.world) (fun _ _ => True)
      (CreateDirectoryHandler.handleImpl args) (heard (H := H) w c cb) := by
  apply Ok.then (Ok.metadata (fun d _ => .refl _ w) fun r d _ _ => ?_)
  cases r with
  | ok info =>
    simp only
    split
    · exact (OnlyLooks.refused _).only _ (.refl _ w)
    · split
      · exact OnlyLooks.sendOk.only _ (.refl _ w)
      · exact Ok.fail (.refl _ w)
  | error e =>
    apply Ok.then (Ok.asked (.refl _ w) fun r w' hw => ?_)
    cases r with
    | error e =>
      cases hw
      exact ⟨.refl _ w, (OnlyLooks.refused _).only _ (.refl _ w)⟩
    | ok u =>
      obtain ⟨hnone, m, -, rfl⟩ := hw
      have honly := (OnlyAt.refl (fun q => q = H.place args.dirName ∧ w q = none) w).put ⟨rfl, hnone⟩ ⟨m, []⟩
      exact ⟨honly, OnlyLooks.sendOk.only _ honly⟩

/-- The items of metadata change what the path leads to. -/
theorem Avoids.applyAll_strays {A : Place → Prop} {path : Path} (hA : A (H.place path)) : ∀ metadata : List TaggedData,
    Avoids (S := H.sig) (fun op => ∃ q, op.Alters H q ∧ ¬ A q) (SetMetadataHandler.applyAll path metadata : Act H Unit)
  | [] => Avoids.writer (F := Response.form) ⟨Status.ok.toRepr, none⟩
  | md :: mds => by
    rw [SetMetadataHandler.applyAll]
    cases md.metadataAttr with
    | none => exact Avoids.applyAll_strays hA mds
    | some attr =>
      cases attr with
      | invalid => exact Avoids.applyAll_strays hA mds
      | accessTime => exact .fail _
      | modificationTime => exact .fail _
      | modeBits =>
        cases md.data.asUnsigned with
        | none => exact Avoids.applyAll_strays hA mds
        | some mode =>
          have set : Avoids (S := H.sig) (fun op => ∃ q, op.Alters H q ∧ ¬ A q)
              (Fs.setPermissions path (modeOf mode) : Act H _) := by
            apply Avoids.call (S := H.sig)
            rintro ⟨q, rfl, hq⟩
            exact hq hA
          refine .then set fun r => ?_
          cases r with
          | error e => exact Avoids.writer (F := Response.form) _
          | ok u => exact Avoids.applyAll_strays hA mds

theorem Ok.setMetadataServer_only (args : SetMetadataArgs) (w : World) (c : Command) (cb : Bytes) :
    Ok (fun v => OnlyAt (fun q => q = H.place args.path ∧ w.isDir q) w v.world) (fun _ _ => True)
      (SetMetadataHandler.handleImpl args) (heard (H := H) w c cb) := by
  apply Ok.then (Ok.metadata (fun d _ => .refl _ w) fun r d hr _ => ?_)
  cases r with
  | error e => exact (OnlyLooks.refused _).only _ (.refl _ w)
  | ok info =>
    obtain ⟨n, hn, rfl⟩ := hr info rfl
    simp only
    split
    · rename_i hdir
      exact Ok.only_of_avoids (Avoids.applyAll_strays ⟨rfl, n, hn, hdir⟩ args.metadata) (.refl _ w)
    · exact (OnlyLooks.refused _).only _ (.refl _ w)

/-- **What a handler may have changed.** -/
theorem Ok.commandHandler_alters (inner : SessionCommandInner) (w : World) (c : Command) (cb : Bytes) :
    Ok (fun v : View H.sig => ∀ q, v.world q ≠ w q → c.Alters H w cb v.taken q) (fun _ _ => True)
    (Qcp.commandHandler inner c)
      (heard w c cb) := by
  have of_only : ∀ (A : Place → Prop) {p : Act H Unit}, (∀ q taken, A q → c.Alters H w cb taken q) →
      Ok (fun v => OnlyAt A w v.world) (fun _ _ => True) p (heard w c cb) →
      Ok (fun v : View H.sig => ∀ q, v.world q ≠ w q → c.Alters H w cb v.taken q) (fun _ _ => True) p (heard w c cb) :=
    fun A p hA h => h.mono (fun v hv q hq => hA q v.taken (by_contra fun hn => hq (hv q hn))) fun _ _ _ h => h
  have of_looks : ∀ {p : Act H Unit}, OnlyLooks p →
      Ok (fun v : View H.sig => ∀ q, v.world q ≠ w q → c.Alters H w cb v.taken q) (fun _ _ => True) p (heard w c cb) :=
    fun hp => of_only (fun _ => False) (fun _ _ => False.elim) (hp.only _ (.refl _ w))
  cases c with
  | get args => exact of_looks (OnlyLooks.getHandle inner ⟨args.filename, []⟩)
  | get2 args => exact of_looks (OnlyLooks.getHandle inner args)
  | put args =>
    exact (Ok.putServer_landed inner ⟨args.filename, []⟩ w _ cb).mono (fun _ h => h.changed) fun _ _ _ h => h
  | put2 args => exact (Ok.putServer_landed inner args w _ cb).mono (fun _ h => h.changed) fun _ _ _ h => h
  | createDirectory args => exact of_only _ (fun _ _ h => h) (Ok.createDirectoryServer_only args w _ cb)
  | setMetadata args => exact of_only _ (fun _ _ h => h) (Ok.setMetadataServer_only args w _ cb)
  | list args => exact of_looks (OnlyLooks.listingHandle args)

/-- **A server's side of a stream**: what holds until a command was read, and for its handler, holds all along. -/
theorem Ok.handleStream_from {I : View H.sig → Prop} (inner : SessionCommandInner) (w : World)
    (h0 : ∀ bs got l, I { View.init w with taken := bs, got := got, lost := l })
    (h : ∀ c cb, Command.form.Reads cb c → Ok I (fun _ _ => True) (Qcp.commandHandler inner c) (heard w c cb)) :
    Ok I (fun _ _ => True) (Qcp.handleStream inner) (View.init w) := by
  refine Ok.then (Ok.attempt (J := I) (Q := fun c v => ∃ cb, Command.form.Reads cb c ∧ v = heard w c cb) ?_
    (fun _ h => h) ?_ ?_)
  · exact Ok.reader (fun _ _ => h0 _ _ _) (fun _ _ _ _ _ => h0 _ _ _) fun cb c _ hl hd => ⟨cb, ⟨hl, hd⟩, rfl⟩
  · rintro c _ - ⟨cb, hr, rfl⟩
    exact h c cb hr
  · intro e v hv
    cases e with
    | recv e =>
      cases e with
      | short e =>
        simp only
        split
        · exact Ok.pure hv trivial
        · exact Ok.fail hv
      | tooLong n => exact Ok.fail hv
      | malformed => exact Ok.fail hv
    | status s => exact Ok.fail hv
    | io e => exact Ok.fail hv
    | response r => exact Ok.fail hv
    | tooLong n l => exact Ok.fail hv
    | other t => exact Ok.fail hv
    | panicked t => exact Ok.fail hv

theorem Ok.handleStream_alters (inner : SessionCommandInner) (w : World) :
    Ok (fun v : View H.sig => ∀ q, v.world q ≠ w q → ∃ c cb, Command.form.Reads cb c ∧ frame cb <+: v.taken ∧
    c.Alters H w cb v.taken q)
      (fun _ _ => True) (Qcp.handleStream inner) (View.init w) := by
  apply Ok.handleStream_from inner w (fun _ _ _ q hq => absurd rfl hq)
  intro c cb hr
  exact (Ok.commandHandler_alters inner w c cb).grows.mono
    (fun v h q hq => ⟨c, cb, hr, h.2, h.1 q hq⟩) fun _ _ _ h => h

end Streams

/-! ## The name a file is sent with -/

theorem FileHeader.forFile_filename (compat : Compatibility) (info : Metadata) (name : Text) :
    (forFile compat info name).toV2.filename = name := by
  unfold forFile
  split <;> rfl

/-- **Every file that is sent has the last name of this path.** -/
def NamedAfter (path : Path) (ms : List Msg) : Prop :=
  ∀ header, .fileHeader header ∈ ms → fileName path = some header.toV2.filename

theorem NamedAfter.nil (path : Path) : NamedAfter path [] := fun _ h => absurd h List.not_mem_nil

theorem NamedAfter.append {path : Path} {ms ns : List Msg} (h : NamedAfter path ms) (h' : NamedAfter path ns) :
    NamedAfter path (ms ++ ns) := fun header hm => (List.mem_append.1 hm).elim (h header) (h' header)

theorem NamedAfter.of_forall {path : Path} {ms : List Msg} (h : ∀ header, Msg.fileHeader header ∉ ms) :
    NamedAfter path ms :=
  fun header hm => absurd hm (h header)

theorem NamedAfter.payloads (path : Path) (cs : List Bytes) : NamedAfter path (cs.map .payload) :=
  .of_forall fun header hm => by
    obtain ⟨c, -, hc⟩ := List.mem_map.1 hm
    cases hc

theorem NamedAfter.header {path : Path} {name : Text} (h : fileName path = some name) (compat : Compatibility)
    (info : Metadata) : NamedAfter path [.fileHeader (.forFile compat info name)] := fun header hm => by
  cases List.mem_singleton.1 hm
  rw [h, FileHeader.forFile_filename]

theorem NamedAfter.other {path : Path} {m : Msg} (h : ∀ header, m ≠ .fileHeader header) : NamedAfter path [m] :=
  .of_forall fun header hm => h header (List.mem_singleton.1 hm).symm

section Names

variable {H : Host}

/-- A refusal has no name. -/
theorem Ok.refusal_named {path : Path} {err : Refusal} {v : View H.sig} (h : NamedAfter path v.tried) :
    Ok (fun v => NamedAfter path v.tried) (fun _ _ => True) (Qcp.errorAndReturn err : Act H Unit) v :=
  Ok.writer (F := Response.form) h (fun _ _ => h.append (.other fun _ => nofun)) fun _ => trivial

/-- **The client of a PUT names the file it sends after its source.** -/
theorem Ok.putClient_named (inner : SessionCommandInner) (job : CopyJobSpec) (w : World) :
    Ok (fun v : View H.sig => NamedAfter job.source.filename v.tried) (fun _ _ => True) (PutHandler.sendImpl inner job)
      (View.init w) := by
  have h0 : NamedAfter job.source.filename [] := .nil _
  apply Ok.then (Ok.openWithMeta (fun _ _ => h0) fun r d _ _ => ?_)
  apply Ok.then (Ok.ofExcept h0 fun p _ => ?_)
  obtain ⟨file, info⟩ := p
  simp only
  split
  · exact Ok.fail h0
  have h1 : NamedAfter job.source.filename ([] ++ [.command (PutHandler.command inner job)]) :=
    h0.append (.other fun _ => nofun)
  apply Ok.then (Ok.progressBarFor h0 ?_)
  apply Ok.then (Ok.writer h0 (fun _ _ => h1) fun _ => ?_)
  apply Ok.then (Ok.flushed h1 ?_)
  apply Ok.then (Ok.protocolFilename h1 fun name hname => ?_)
  have h2 := h1.append (.header hname inner.compat info)
  apply Ok.then (Ok.writer h1 (fun _ _ => h2) fun _ => ?_)
  apply Ok.then (Ok.reader (fun _ _ => h2) (fun _ _ _ _ _ => h2) fun _ r _ _ _ => ?_)
  apply Ok.then (Ok.intoResult h2 fun _ => ?_)
  have h3 := fun cs => h2.append (.payloads _ cs)
  apply Ok.then (Ok.copyOut (fun cs _ _ _ _ => h3 cs) (fun cs d _ _ _ _ => ?_) fun e cs _ _ _ _ =>
    Ok.explainFailure e fun _ _ _ => h3 cs)
  have h4 := (h3 cs).append (.other (m := .fileTrailer (.forFile inner.compat info job.preserve)) fun _ => nofun)
  apply Ok.then (Ok.ensure (h3 cs) fun _ => ?_)
  apply Ok.then (Ok.writer (h3 cs) (fun _ _ => h4) fun _ => ?_)
  apply Ok.then (Ok.flushed h4 ?_)
  apply Ok.then (Ok.reader (fun _ _ => h4) (fun _ _ _ _ _ => h4) fun _ r _ _ _ => ?_)
  exact Ok.then (Ok.ensure h4 fun _ => Ok.pure h4 trivial)

/-- **And so does the server of a GET.** -/
theorem Ok.getServer_named (inner : SessionCommandInner) (args : Get2Args) (w : World) (c : Command) (cb : Bytes) :
    Ok (fun v : View H.sig => NamedAfter args.filename v.tried) (fun _ _ => True) (GetHandler.handleImpl inner args)
      (heard w c cb) := by
  have h0 : NamedAfter args.filename [] := .nil _
  apply Ok.then (Ok.openWithMeta (fun _ _ => h0) fun r d _ _ => ?_)
  cases r with
  | error e => exact Ok.refusal_named h0
  | ok p =>
    obtain ⟨file, info⟩ := p
    simp only
    split
    · exact Ok.refusal_named h0
    · have h1 : NamedAfter args.filename ([] ++ [.response okResponse]) := h0.append (.other fun _ => nofun)
      apply Ok.then (Ok.sendOk h0 (fun _ => h1) ?_)
      apply Ok.then (Ok.protocolFilename h1 fun name hname => ?_)
      have h2 := h1.append (.header hname inner.compat info)
      apply Ok.then (Ok.writer h1 (fun _ _ => h2) fun _ => ?_)
      have h3 := fun cs => h2.append (.payloads _ cs)
      apply Ok.then (Ok.copyOut (fun cs _ _ _ _ => h3 cs) (fun cs d _ _ _ _ => ?_) fun e cs _ _ _ _ => Ok.fail (h3 cs))
      have h4 := (h3 cs).append (.other (m := .fileTrailer (.forFile inner.compat info
        (findOption args.options .preserveMetadata).isSome)) fun _ => nofun)
      apply Ok.then (Ok.ensure (h3 cs) fun _ => ?_)
      apply Ok.then (Ok.writer (h3 cs) (fun _ _ => h4) fun _ => ?_)
      exact Ok.flushed h4 trivial

/-- What a command asks to be sent. -/
def Command.source? : Command → Option Path
  | get args => some args.filename
  | get2 args => some args.filename
  | _ => none

/-- **A server that answers a GET names the file after what it was asked for.** -/
theorem Ok.handleStream_named (inner : SessionCommandInner) (w : World) :
    Ok (fun v : View H.sig => v.tried = [] ∨ ∃ c cb, Command.form.Reads cb c ∧ frame cb <+: v.taken ∧
      ∀ path, c.source? = some path → NamedAfter path v.tried) (fun _ _ => True) (Qcp.handleStream inner)
      (View.init w) := by
  apply Ok.handleStream_of inner w
  intro c cb
  have vacuous : c.source? = none → Ok (fun v : View H.sig => ∀ path, c.source? = some path → NamedAfter path v.tried)
      (fun _ _ => True) (Qcp.commandHandler inner c) (heard w c cb) := fun hc =>
    (Ok.commandHandler_alters inner w c cb).mono (fun _ _ path hp => by rw [hc] at hp; cases hp) fun _ _ _ h => h
  have named : ∀ {path : Path}, c.source? = some path →
      Ok (fun v : View H.sig => NamedAfter path v.tried) (fun _ _ => True) (Qcp.commandHandler inner c) (heard w c cb) →
      Ok (fun v : View H.sig => ∀ path, c.source? = some path → NamedAfter path v.tried) (fun _ _ => True)
        (Qcp.commandHandler inner c) (heard w c cb) := fun hc h =>
    h.mono (fun _ hv path hp => by cases hc.symm.trans hp; exact hv) fun _ _ _ h => h
  cases c with
  | get args => exact named rfl (Ok.getServer_named inner ⟨args.filename, []⟩ w _ cb)
  | get2 args => exact named rfl (Ok.getServer_named inner args w _ cb)
  | _ => exact vacuous rfl

/-- Where a command asks a file to be put. -/
def Command.put? : Command → Option Path
  | put args => some args.filename
  | put2 args => some args.filename
  | _ => none

/-- What a server that answers a PUT has changed or opened. -/
theorem Ok.handleStream_landed (inner : SessionCommandInner) (w : World) :
    Ok (fun v : View H.sig => v.tried = [] ∨ ∃ c cb, Command.form.Reads cb c ∧ frame cb <+: v.taken ∧
      ∀ dest, c.put? = some dest → Landed H w (putPaths dest) (frame cb) v) (fun _ _ => True) (Qcp.handleStream inner)
      (View.init w) := by
  apply Ok.handleStream_of inner w
  intro c cb
  have vacuous : c.put? = none →
    Ok (fun v : View H.sig => ∀ dest, c.put? = some dest → Landed H w (putPaths dest) (frame cb) v)
      (fun _ _ => True) (Qcp.commandHandler inner c) (heard w c cb) := fun hc =>
    (Ok.commandHandler_alters inner w c cb).mono (fun _ _ dest hd => by rw [hc] at hd; cases hd) fun _ _ _ h => h
  cases c with
  | put args =>
    exact (Ok.putServer_landed inner ⟨args.filename, []⟩ w _ cb).mono (fun _ h dest hd => by cases hd; exact h)
      fun _ _ _ h => h
  | put2 args =>
    exact (Ok.putServer_landed inner args w _ cb).mono (fun _ h dest hd => by cases hd; exact h) fun _ _ _ h => h
  | _ => exact vacuous rfl

end Names

/-! ## A client and a server -/

/-- **Where a request may change something on the client's side.** -/
def Request.AltersHere (G : Host) (u : World) (q : Place) : Request → Prop
  | get job => ∃ name, fileName job.source.filename = some name ∧ Lands G u (getPaths job.destination.filename name) q
  | _ => False

/-- **And on the server's.** -/
def Request.AltersThere (H : Host) (w : World) (q : Place) : Request → Prop
  | put job => ∃ name, fileName job.source.filename = some name ∧ Lands H w (putPaths job.destination.filename name) q
  | createDirectory job => q = H.place job.destination.filename ∧ w q = none
  | setMetadata job => q = H.place job.destination.filename ∧ w.isDir q
  | _ => False

section Joint

variable {G H : Host} {inner inner' : SessionCommandInner} {job : CopyJobSpec} {u w : World} {x : Joint G H}

/-- What was read of a command is what was sent, if no more than a command was. -/
theorem command_of_commanding {p : Act G RequestResult} {pred : Command → Prop}
    (hr : Pair.Reach p (handleStream inner') u w x) (hc : Commanding pred x.1.2.view)
    (hplain : ∀ c, pred c → ∀ t ∈ c.tagged, t.Plain) {c : Command} {cb : Bytes} (hread : Command.form.Reads cb c)
    (hpre : frame cb <+: x.2.2.taken) : pred c := by
  have htaken := hpre.trans (Pair.taken_right hr)
  rcases hc with hc | ⟨c', hc', hfit, hc⟩
  · rw [show x.1.2.tried = [] from hc] at htaken
    exact absurd (by rwa [List.append_nil]) (Frame.not_frame_prefix_nil cb [])
  · rw [show x.1.2.tried = [.command c'] from hc] at htaken
    obtain ⟨rfl, -⟩ := hread.of_sent (x := []) (y := []) hfit (Command.readsBack_of_fits c' (hplain c' hc') hfit)
      (by rw [List.append_nil]; exact htaken)
    exact hc'

/-- Where a file of the command that was read may land, the file of the job may. -/
theorem put_lands (hr : Pair.Reach (PutHandler.sendImpl inner job) (handleStream inner') u w x) {c : Command}
    {cb : Bytes} {q : Place} (hread : Command.form.Reads cb c) (hpre : frame cb <+: x.2.2.taken)
    (hlands : ∀ dest, c.put? = some dest → LandsBehind H w (putPaths dest) (frame cb) x.2.2.taken q) :
    Request.AltersThere H w q (.put job) := by
  obtain ⟨hcs, -⟩ := Pair.reach hr
  have hnamed := (Ok.putClient_named inner job u).run hcs
  have htaken := Pair.taken_right hr
  rcases ((Ok.putClient inner job u).run hcs).tried with h | ⟨hfit, ms, htried, n, name, -, hsends⟩
  · rw [show x.1.2.tried = [] from h] at htaken
    exact absurd (by rw [List.append_nil]; exact hpre.trans htaken) (Frame.not_frame_prefix_nil cb [])
  have htried : x.1.2.tried = .command (PutHandler.command inner job) :: ms := htried
  rw [htried] at htaken
  have hplain := PutHandler.plain_command inner job
  have hback := Command.readsBack_of_fits _ hplain hfit
  obtain ⟨rfl, -⟩ := hread.of_sent (x := []) (y := ms.flatMap Msg.enc) hfit hback
    (by rw [List.append_nil]; exact hpre.trans htaken)
  have hdest : (PutHandler.command inner job).put? = some job.destination.filename := by
    unfold PutHandler.command
    split <;> rfl
  obtain ⟨hb, header, hhr, hbytes, hl⟩ := hlands _ hdest
  -- the header that was read is the one that was sent
  obtain ⟨-, -, hrest⟩ := hread.of_sent (x := frame hb) (y := ms.flatMap Msg.enc) hfit hback (hbytes.trans htaken)
  obtain ⟨rfl, -, cs, -, hcase⟩ :=
    hsends.received (x := []) (FileHeader.readsBack_of_fits _ (FileHeader.forFile_plain _ _ _))
    hhr (by rw [List.append_nil]; exact hrest)
  refine ⟨_, hnamed _ ?_, hl⟩
  rw [show x.1.2.view.tried = _ from htried]
  rcases hcase with ⟨rfl, -⟩ | ⟨rfl, -⟩ <;> simp

theorem put_footprint (hr : Pair.Reach (PutHandler.sendImpl inner job) (handleStream inner') u w x) {q : Place}
    (hq : x.2.2.world q ≠ w q) : Request.AltersThere H w q (.put job) := by
  obtain ⟨c, cb, hread, hpre, halters⟩ := (Ok.handleStream_alters inner' w).run (Pair.reach hr).2.1 q hq
  apply put_lands hr hread hpre
  intro dest hd
  cases c with
  | put args => cases hd; exact halters
  | put2 args => cases hd; exact halters
  | _ => cases hd

/-- What the server of a PUT opens, it opens where the file may land. -/
theorem put_opened (hr : Pair.Reach (PutHandler.sendImpl inner job) (handleStream inner') u w x)
    (hne : x.2.2.tried ≠ [])
    {path : Path} {q : Place} (hm : (path, q) ∈ opens x.2.2.done) : Request.AltersThere H w q (.put job) := by
  rcases (Ok.handleStream_landed inner' w).run (Pair.reach hr).2.1 with h | ⟨c, cb, hread, hpre, hlanded⟩
  · exact absurd h hne
  · exact put_lands hr hread hpre fun dest hd => (hlanded dest hd).opened path q hm

/-- Where a file may land whose header was read, the file of the job may. -/
theorem get_lands (hr : Pair.Reach (GetHandler.sendImpl inner job) (handleStream inner') u w x) {rb : Bytes}
    (hl : LandedAfter G u job.destination.filename rb x.1.2.view) {q : Place}
    (hq : LandsBehind G u (getPaths job.destination.filename) (frame rb) x.1.2.taken q) :
    Request.AltersHere G u q (.get job) := by
  obtain ⟨hcs, hss, -⟩ := Pair.reach hr
  obtain ⟨⟨r, hrr, hok⟩, -⟩ := hl
  obtain ⟨hb, header, hhr, hbytes, hl⟩ := hq
  have hread := hbytes.trans (Pair.taken_left hr)
  have hne : x.2.2.tried ≠ [] := ne_nil_of_frame hread
  rcases ((Ok.getClient_fetching inner job u).run hcs).asks with h | ⟨_, rfl, hfit, htried⟩
  · exact absurd h (tried_of_served hr hne)
  have htried : x.1.2.tried = [.command (GetHandler.command inner job)] := htried
  have hplain := GetHandler.plain_command inner job
  -- the server names the file after what it was asked for
  rcases (Ok.handleStream_named inner' w).run hss with h | ⟨c, cb, hcr, hpre, hnamed⟩
  · exact absurd h hne
  have htaken := hpre.trans (Pair.taken_right hr)
  rw [htried] at htaken
  obtain ⟨rfl, -⟩ := hcr.of_sent (x := []) (y := []) hfit (Command.readsBack_of_fits _ hplain hfit)
    (by rw [List.append_nil]; exact htaken)
  have hsource : (GetHandler.command inner job).source? = some job.source.filename := by
    unfold GetHandler.command
    split <;> rfl
  obtain ⟨cb', -, -, hserved⟩ := served hr htried hfit hplain hne
  obtain ⟨ms, hms, ⟨n, name, -, hsends⟩, rfl, rfl, hrest⟩ := (offers_of_served hserved).2.consented hrr hok hread
  obtain ⟨rfl, -, cs, -, hcase⟩ :=
    hsends.received (x := []) (FileHeader.readsBack_of_fits _ (FileHeader.forFile_plain _ _ _))
    hhr (by rw [List.append_nil]; exact hrest)
  refine ⟨_, hnamed _ hsource _ ?_, hl⟩
  rw [hms]
  rcases hcase with ⟨rfl, -⟩ | ⟨rfl, -⟩ <;> simp

theorem get_footprint (hr : Pair.Reach (GetHandler.sendImpl inner job) (handleStream inner') u w x) {q : Place}
    (hq : x.1.2.world q ≠ u q) : Request.AltersHere G u q (.get job) := by
  rcases ((Ok.getClient_fetching inner job u).run (Pair.reach hr).1).landed with ⟨h, -⟩ | ⟨rb, hl⟩
  · exact absurd (congrFun h q) hq
  · exact get_lands hr hl (hl.2.changed q hq)

/-- What the client of a GET opens, it opens where the file may land. -/
theorem get_opened (hr : Pair.Reach (GetHandler.sendImpl inner job) (handleStream inner') u w x) {path : Path}
    {q : Place} (hm : (path, q) ∈ opens x.1.2.done) : Request.AltersHere G u q (.get job) := by
  rcases ((Ok.getClient_fetching inner job u).run (Pair.reach hr).1).landed with ⟨-, h⟩ | ⟨rb, hl⟩
  · rw [show opens x.1.2.done = [] from h] at hm
    cases hm
  · exact get_lands hr hl (hl.2.opened path q hm)

theorem createDirectory_footprint
    (hr : Pair.Reach (CreateDirectoryHandler.sendImpl inner job) (handleStream inner') u w x) {q : Place}
    (hq : x.2.2.world q ≠ w q) : Request.AltersThere H w q (.createDirectory job) := by
  obtain ⟨hcs, hss, -⟩ := Pair.reach hr
  obtain ⟨c, cb, hread, hpre, halters⟩ := (Ok.handleStream_alters inner' w).run hss q hq
  cases command_of_commanding hr ((Ok.createDirectory_commanding inner job u).run hcs)
    (fun c hc t ht => by rw [hc] at ht; cases ht) hread hpre
  exact halters

theorem setMetadata_footprint (hr : Pair.Reach (SetMetadataHandler.sendImpl inner job) (handleStream inner') u w x)
    {q : Place} (hq : x.2.2.world q ≠ w q) : Request.AltersThere H w q (.setMetadata job) := by
  obtain ⟨hcs, hss, -⟩ := Pair.reach hr
  obtain ⟨c, cb, hread, hpre, halters⟩ := (Ok.handleStream_alters inner' w).run hss q hq
  obtain ⟨info, rfl⟩ := command_of_commanding hr ((Ok.setMetadata_commanding inner job u).run hcs)
    (by
      rintro _ ⟨info, rfl⟩ t ht
      rw [Command.tagged, List.append_nil] at ht
      exact info.plain_toTaggedData false t ht)
    hread hpre
  exact halters

theorem list_footprint {recurse : Bool}
    (hr : Pair.Reach (ListingHandler.sendImpl inner job recurse) (handleStream inner') u w x) (q : Place) :
    x.2.2.world q = w q := by
  by_contra hq
  obtain ⟨hcs, hss, -⟩ := Pair.reach hr
  obtain ⟨c, cb, hread, hpre, halters⟩ := (Ok.handleStream_alters inner' w).run hss q hq
  cases command_of_commanding hr ((Ok.listing_commanding inner job recurse u).run hcs)
    (fun c hc => hc ▸ ListingHandler.plain_command job recurse) hread hpre
  exact halters

/-- The server of a GET changes nothing. -/
theorem get_footprint_server (hr : Pair.Reach (GetHandler.sendImpl inner job) (handleStream inner') u w x) (q : Place) :
    x.2.2.world q = w q := by
  by_contra hq
  obtain ⟨hcs, hss, -⟩ := Pair.reach hr
  obtain ⟨c, cb, hread, hpre, halters⟩ := (Ok.handleStream_alters inner' w).run hss q hq
  cases command_of_commanding hr ((Ok.getClient_fetching inner job u).run hcs).asks
    (fun c hc => hc ▸ GetHandler.plain_command inner job) hread hpre
  unfold GetHandler.command at halters
  split at halters <;> exact halters

end Joint

/-- **Nothing has changed but at these places**, and nothing is gone or has become something else. -/
structure Kept (A : Place → Prop) (w w' : World) : Prop where
  only : OnlyAt A w w'
  kinds : KindsKept w w'

theorem Kept.refl (A : Place → Prop) (w : World) : Kept A w w := ⟨.refl A w, .refl w⟩

theorem Kept.trans {A : Place → Prop} {w w' w'' : World} (h : Kept A w w') (h' : Kept A w' w'') : Kept A w w'' :=
  ⟨h.only.trans h'.only, h.kinds.trans h'.kinds⟩

theorem Kept.mono {A B : Place → Prop} {w w' : World} (h : Kept A w w') (hAB : ∀ q, A q → B q) : Kept B w w' :=
  ⟨h.only.mono hAB, h.kinds⟩

/-- A client that only looks leaves its world as it is. -/
theorem OnlyLooks.world_eq {G : Host} {p : Act G RequestResult} (hp : OnlyLooks p) {u : World}
    {c : Proc.Config G.sig (Except Err RequestResult)} (hs : Steps (p, Local.init u) c) (q : Place) :
    c.2.world q = u q :=
  (hp.only (fun _ => False) (.refl _ u)).run hs q id

/-- **Whatever happens to a request**, only its destination is changed: at any moment of the exchange, whichever side
has failed or been cut off, both hosts are as they were but for that. -/
theorem request_footprint (G H : Host) (inner inner' : SessionCommandInner) (request : Request) (u w : World)
    (x : Joint G H) (hr : Pair.Reach (request.sendImpl inner) (handleStream inner') u w x) :
    Kept (fun q => request.AltersHere G u q) u x.1.2.world ∧
      Kept (fun q => request.AltersThere H w q) w x.2.2.world := by
  obtain ⟨hcs, hss, -⟩ := Pair.reach hr
  have hu := kindsKept_of_steps hcs
  have hw := kindsKept_of_steps hss
  have here : ∀ {A : Place → Prop}, (∀ q, x.1.2.world q ≠ u q → A q) → Kept A u x.1.2.world := fun h =>
    ⟨fun q hq => by_contra fun hn => hq (h q hn), hu⟩
  have there : ∀ {A : Place → Prop}, (∀ q, x.2.2.world q ≠ w q → A q) → Kept A w x.2.2.world := fun h =>
    ⟨fun q hq => by_contra fun hn => hq (h q hn), hw⟩
  cases request with
  | get job =>
    exact ⟨here fun q hq => get_footprint hr hq, there fun q hq => absurd (get_footprint_server hr q) hq⟩
  | put job =>
    exact ⟨here fun q hq => absurd ((OnlyLooks.putSend inner job).world_eq hcs q) hq, there fun q hq =>
      put_footprint hr hq⟩
  | createDirectory job =>
    exact ⟨here fun q hq => absurd ((OnlyLooks.createDirectorySend inner job).world_eq hcs q) hq,
      there fun q hq => createDirectory_footprint hr hq⟩
  | setMetadata job =>
    exact ⟨here fun q hq => absurd ((OnlyLooks.setMetadataSend inner job).world_eq hcs q) hq,
      there fun q hq => setMetadata_footprint hr hq⟩
  | list job recurse =>
    exact ⟨here fun q hq => absurd ((OnlyLooks.listingSend inner job recurse).world_eq hcs q) hq,
      there fun q hq => absurd (list_footprint hr q) hq⟩

end Qcp
