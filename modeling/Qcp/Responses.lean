import Qcp.Opening
/-!
# Responses — that every command gets one

`Responds` says of a command and a file system that whatever happens, as long as the stream can be written and the
client keeps to the protocol, the handler has responded when it is done.  `responds_iff` says of which commands this
is so.
-/
namespace Qcp

open Bare (Bytes Text Codec)
open Posix (Path)
open Proc (Task View Local Ends Comes)
open Frame (frame)

/-! ## What is asked of the surroundings -/

/-- What a handler makes of an error the system gives. -/
def Op.refusal : (op : Op) → op.Ret → Option Refusal
  | .metadata _, .error e => some (.io e)
  | .openRead _, .error e => some (.io e)
  | .fileMetadata _, .error e => some (.io e)
  | .readAt _ _ _, .error e => some (.io e)
  | .openWrite _ _, .error e => some (.io e)
  | .write _ _, .error e => some (.io e)
  | .flushFile _, .error e => some (.io e)
  | .setTimes _ _ _, .error e => some (.io e)
  | .setFilePermissions _ _, .error e => some (.io e)
  | .createDir _, .error e => some (.io e)
  | .setPermissions _ _, .error e => some (.io e)
  | .walkDir _ _, .error t => some (.other t)
  | _, _ => none

def Refusal.response (err : Refusal) : Response := ⟨(errorToStatus err).1.toRepr, (errorToStatus err).2⟩

/-- The errors the system gives have texts that fit a response. -/
def Terse (done : List (Σ op, Op.Ret op)) : Prop :=
  ∀ op r, (⟨op, r⟩ : Σ op, Op.Ret op) ∈ done → ∀ err, op.refusal r = some err → Response.form.Fits err.response

/-- What the handler has read of the stream begins with a header, and there was more to be had. -/
def WellFormed {H : Host} (v : View H.sig) : Prop :=
  v.lost = false ∧ ∃ hb hdr rest, FileHeader.form.Reads hb hdr ∧ v.taken <+: frame hb ++ rest

/-- **Whatever happens, the handler responds.** -/
def Responds (H : Host) (inner : SessionCommandInner) (command : Command) (w : World) : Prop :=
  ∀ r s, Proc.Runs True ((commandHandler inner command : Act H Unit), Local.init w) (.ret r, s) →
    Terse s.done → WellFormed s.view → ∃ m ∈ s.sent, ∃ r, m = Msg.response r

section Rules

variable {H : Host} {v : View H.sig}

/-- It was responded, if what was asked of the surroundings held. -/
def Responding {α : Type} (_ : Except Err α) (v : View H.sig) : Prop :=
  Terse v.done → WellFormed v → ∃ m ∈ v.sent, ∃ r, m = Msg.response r

theorem Ends.responded {α : Type} {p : Act H α} (h : ∃ m ∈ v.sent, ∃ r, m = Msg.response r) :
    Ends True Responding p v := (Ends.said h).mono fun _ _ h _ _ => h

theorem Ends.refused {err : Refusal} (h : Terse v.done → Response.form.Fits err.response) :
    Ends True Responding (Qcp.errorAndReturn err : Act H Unit) v :=
  Ends.writer (fun _ _ _ => ⟨_, List.mem_append_right _ (List.mem_singleton_self _), _, rfl⟩)
    (fun hf ht => absurd (h ht) hf) fun w => absurd trivial w

theorem okResponse_fits : Response.form.Fits okResponse := by decide

/-- Once consent was sent it is sent. -/
theorem Ends.consented {α : Type} {k : Act H α} : Ends True Responding (do sendOk; k) v := by
  refine Ends.then (Ends.writer (fun _ => ?_) (fun hf => absurd okResponse_fits hf) fun w => absurd trivial w)
  exact Ends.responded ⟨_, List.mem_append_right _ (List.mem_singleton_self _), _, rfl⟩

theorem Ends.accepted : Ends True Responding (sendOk : Act H Unit) v :=
  Ends.writer (fun _ _ _ => ⟨_, List.mem_append_right _ (List.mem_singleton_self _), _, rfl⟩)
    (fun hf => absurd okResponse_fits hf) fun w => absurd trivial w

/-- An error of the system can be told. -/
theorem Terse.last {done : List (Σ op, Op.Ret op)} {op : Op} {r : op.Ret} {err : Refusal}
    (h : Terse (done ++ [⟨op, r⟩])) (hr : op.refusal r = some err) : Response.form.Fits err.response :=
  h op r (List.mem_append_right _ (List.mem_singleton_self _)) err hr

/-! ## Opening -/

section Opening

variable {W : Prop}

theorem Ends.openWithMeta {Q : Except Err (Except IoError (Place × Metadata)) → View H.sig → Prop} {path : Path}
    (h : ∀ r w d, (∀ e, r = .error e → Terse d → Response.form.Fits (Refusal.io e).response) →
      Q (.ok r) { v with world := w, done := d }) : Ends W Q (Qcp.openWithMeta path : Act H _) v := by
  refine Ends.then (Ends.call fun r w _ => ?_)
  cases r with
  | error e => exact Ends.pure (h _ _ _ fun e he ht => by cases he; exact ht.last rfl)
  | ok fh =>
    refine Ends.then (Ends.call fun r w _ => ?_)
    cases r with
    | error e => exact Ends.pure (h _ _ _ fun e he ht => by cases he; exact ht.last rfl)
    | ok info =>
      rw [Proc.Onwards]
      simp only
      split
      · exact Ends.pure (h _ _ _ fun e he _ => by cases he; decide)
      · exact Ends.pure (h _ _ _ nofun)

theorem Ends.createOrTruncate {Q : Except Err (Except IoError Place) → View H.sig → Prop} {path : Path}
    {header : FileHeaderV2} (h : ∀ r w d, (∀ e, r = .error e → Terse d → Response.form.Fits (Refusal.io e).response) →
      Q (.ok r) { v with world := w, done := d }) : Ends W Q (Qcp.createOrTruncate path header : Act H _) v := by
  have opened : ∀ (p : Path) (v' : View H.sig), (∃ w d, v' = { v with world := w, done := d }) →
      Ends W Q (TokioFile.openWrite p (appliedMode H header.metadata) : Act H _) v' := by
    rintro p v' ⟨w, d, rfl⟩
    exact Ends.call fun r w _ => h r w _ fun e he ht => by cases he; exact ht.last rfl
  refine Ends.then (Ends.call fun r w _ => ?_)
  rw [Proc.Onwards]
  cases r with
  | error e => exact opened _ _ ⟨_, _, rfl⟩
  | ok info =>
    simp only
    split
    · exact opened _ _ ⟨_, _, rfl⟩
    · split
      · exact opened _ _ ⟨_, _, rfl⟩
      · exact Ends.pure (h _ _ _ fun e he _ => by cases he; decide)

theorem Ends.isDir {Q : Except Err Bool → View H.sig → Prop} {path : Path}
    (h : ∀ b w d, Q (.ok b) { v with world := w, done := d }) : Ends W Q (Qcp.Fs.isDir path : Act H _) v := by
  refine Ends.then (Ends.call fun r w _ => ?_)
  cases r <;> exact Ends.pure (h _ _ _)

theorem Ends.isFile {Q : Except Err Bool → View H.sig → Prop} {path : Path}
    (h : ∀ b w d, Q (.ok b) { v with world := w, done := d }) : Ends W Q (Qcp.Fs.isFile path : Act H _) v := by
  refine Ends.then (Ends.call fun r w _ => ?_)
  cases r <;> exact Ends.pure (h _ _ _)

theorem Ends.appendFilename {Q : Except Err (Option Bool) → View H.sig → Prop} {destination : Path}
    (h : ∀ a w d, Q (.ok a) { v with world := w, done := d }) :
    Ends W Q (PutHandler.appendFilename destination : Act H _) v := by
  have last : ∀ (extant : Bool) w d, Ends W Q (do
      if extant then return some (← Fs.isDir destination)
      else if Posix.endsWithSep destination then return none
      else
        let parentDir := Posix.pop destination
        let parentDir := if parentDir = [] then Posix.dot else parentDir
        if ← Fs.isDir parentDir then return some false else return none : Act H _)
          { v with world := w, done := d } := by
    intro extant w d
    cases extant with
    | true => exact Ends.then (Ends.isDir fun b w d => Ends.pure (h _ w d))
    | false =>
      simp only [Bool.false_eq_true, if_false]
      split
      · exact Ends.pure (h _ w d)
      · refine Ends.then (Ends.isDir fun b w d => ?_)
        cases b <;> exact Ends.pure (h _ w d)
  unfold PutHandler.appendFilename
  split
  · exact Ends.pure (h _ _ _)
  · refine Ends.then (Ends.isDir fun b w d => ?_)
    cases b with
    | true => exact Ends.then (Ends.pure (last true w d))
    | false => exact Ends.then (Ends.isFile fun b w d => last b w d)

end Opening

/-! ## The handlers -/

theorem Ends.getServer (inner : SessionCommandInner) (args : Get2Args) :
    Ends True Responding (GetHandler.handleImpl inner args : Act H Unit) v := by
  refine Ends.then (Ends.openWithMeta fun r w d hr => ?_)
  cases r with
  | error e => exact Ends.refused (hr e rfl)
  | ok p =>
    rw [Proc.Onwards]
    simp only
    split
    · exact Ends.refused fun _ => by decide
    · exact Ends.consented

/-- What the stream has for the handler is a header. -/
theorem WellFormed.header {v' : View H.sig} (h : WellFormed v') (ht : v.taken = []) :
    (∀ bs, v' = { v with taken := v.taken ++ frame bs } → bs.length ≤ FileHeader.form.limit →
      FileHeader.form.codec.decode bs ≠ none) ∧
    ∀ hdr bs l, v' = { v with taken := v.taken ++ (hdr ++ bs), lost := l } → hdr.length = 4 →
      ¬ FileHeader.form.limit < Frame.frameSize hdr := by
  obtain ⟨-, hb, header, rest, hr, hp⟩ := h
  constructor
  · rintro bs rfl hl hd
    rw [ht, List.nil_append] at hp
    have hlim := FileHeader.form.limit_lt
    obtain ⟨rfl, -⟩ := Frame.frame_cancel bs hb [] rest (by omega) hr.lt (by rw [List.append_nil]; exact hp)
    rw [hr.decode] at hd
    cases hd
  · rintro hdr bs l rfl hh hlong
    rw [ht, List.nil_append] at hp
    obtain ⟨t, ht⟩ := hp
    unfold frame at ht
    rw [List.append_assoc, List.append_assoc] at ht
    obtain ⟨rfl, -⟩ := List.append_inj ht (by rw [hh, Codec.encLe_length])
    rw [Proc.frameSize_encLe FileHeader.form.toWire hr.short] at hlong
    exact absurd hr.short (by omega)

theorem Ends.putServer (inner : SessionCommandInner) (args : Get2Args) (ht : v.taken = []) :
    Ends True Responding (PutHandler.handleImpl inner args : Act H Unit) v := by
  refine Ends.then (Ends.appendFilename fun append w d => ?_)
  cases append with
  | none => exact Ends.refused fun _ => by decide
  | some append =>
    refine Ends.then (Ends.reader (fun hb header _ _ _ => ?_) (fun e bs _ hw => ?_) (fun hdr bs l hh hl _ hw => ?_)
      fun bs hl hd _ hw => ?_)
    · refine Ends.then (Ends.createOrTruncate fun r w d hr => ?_)
      cases r with
      | error e => exact Ends.refused (hr e rfl)
      | ok file => exact Ends.consented
    · exact absurd hw.1 Bool.noConfusion
    · exact absurd hl ((hw.header (v := { v with world := w, done := d }) ht).2 hdr bs l rfl hh)
    · exact absurd hd ((hw.header (v := { v with world := w, done := d }) ht).1 bs rfl hl)

theorem Ends.createDirectoryServer (args : CreateDirectoryArgs)
    (h : ∀ n, v.world (H.place args.dirName) = some n → n.info.kind ≠ .other) :
    Ends True Responding (CreateDirectoryHandler.handleImpl args : Act H Unit) v := by
  refine Ends.then (Ends.call fun r w hsem => ?_)
  cases r with
  | ok info =>
    obtain ⟨n, hn, hinfo⟩ := hsem.2 info rfl
    have hk := h n hn
    rw [← hinfo] at hk
    rw [Proc.Onwards]
    simp only
    split
    · exact Ends.refused fun _ => by decide
    · split
      · exact Ends.accepted
      · rename_i hf hd
        unfold Metadata.isFile at hf
        unfold Metadata.isDir at hd
        cases hkind : info.kind with
        | file => rw [hkind] at hf; exact absurd rfl hf
        | directory => rw [hkind] at hd; exact absurd rfl hd
        | other => exact absurd hkind hk
  | error e =>
    refine Ends.then (Ends.call fun r w _ => ?_)
    cases r with
    | error e => exact Ends.refused fun ht => ht.last rfl
    | ok u => exact Ends.accepted

/-- An item of metadata that can be set on a directory, or is passed over. -/
def Settable (md : TaggedData) : Prop :=
  md.metadataAttr ≠ some .accessTime ∧ md.metadataAttr ≠ some .modificationTime

theorem Ends.applyAll (path : Path) : ∀ (mds : List TaggedData) (v : View H.sig), (∀ md ∈ mds, Settable md) →
    Ends True Responding (SetMetadataHandler.applyAll path mds : Act H Unit) v
  | [], v, _ => Ends.accepted
  | md :: mds, v, h => by
    have ih := fun v => Ends.applyAll path mds v fun md hmd => h md (List.mem_cons_of_mem _ hmd)
    obtain ⟨ha, hm⟩ := h md List.mem_cons_self
    unfold SetMetadataHandler.applyAll
    cases hattr : md.metadataAttr with
    | none => exact ih v
    | some a =>
      cases a with
      | invalid => exact ih v
      | accessTime => exact absurd hattr ha
      | modificationTime => exact absurd hattr hm
      | modeBits =>
        simp only
        split
        · exact ih v
        · refine Ends.then (Ends.call fun r w _ => ?_)
          cases r with
          | error e => exact Ends.refused fun ht => ht.last rfl
          | ok u => exact ih _

theorem Ends.setMetadataServer (args : SetMetadataArgs)
    (h : v.world.isDir (H.place args.path) → ∀ md ∈ args.metadata, Settable md) :
    Ends True Responding (SetMetadataHandler.handleImpl args : Act H Unit) v := by
  refine Ends.then (Ends.call fun r w hsem => ?_)
  cases r with
  | error e => exact Ends.refused fun ht => ht.last rfl
  | ok info =>
    obtain ⟨n, hn, hinfo⟩ := hsem.2 info rfl
    rw [Proc.Onwards]
    simp only
    split
    · rename_i hd
      exact Ends.applyAll _ _ _ (h ⟨n, hn, by rw [← hinfo]; exact hd⟩)
    · exact Ends.refused fun _ => by decide

theorem Ends.listServer (args : ListArgs) :
    Ends True Responding (ListingHandler.handleImpl args : Act H Unit) v := by
  refine Ends.then (Ends.call fun r w _ => ?_)
  cases r with
  | error e => exact Ends.refused fun ht => ht.last rfl
  | ok info =>
    rw [Proc.Onwards]
    simp only
    split
    · exact Ends.consented
    · refine Ends.then (Ends.call fun r w _ => ?_)
      cases r with
      | error e => exact Ends.refused fun ht => ht.last rfl
      | ok entries =>
        rw [Proc.Onwards]
        simp only
        split
        · exact Ends.hang
        · exact Ends.consented

/-! ## All of them -/

/-- The commands that are sure to get a response: all but a directory that is to be made where something is that is
neither a file nor a directory, and times that are to be set on a directory. -/
def Respondable (H : Host) (w : World) : Command → Prop
  | .createDirectory args => ∀ n, w (H.place args.dirName) = some n → n.info.kind ≠ .other
  | .setMetadata args => w.isDir (H.place args.path) → ∀ md ∈ args.metadata, Settable md
  | .get _ | .get2 _ | .put _ | .put2 _ | .list _ => True

theorem Ends.commandHandler (inner : SessionCommandInner) (command : Command) (w : World)
    (h : Respondable H w command) :
    Ends True Responding (Qcp.commandHandler inner command : Act H Unit) (View.init w) := by
  cases command with
  | get args => exact Ends.getServer inner _
  | get2 args => exact Ends.getServer inner args
  | put args => exact Ends.putServer inner _ rfl
  | put2 args => exact Ends.putServer inner args rfl
  | createDirectory args => exact Ends.createDirectoryServer args h
  | setMetadata args => exact Ends.setMetadataServer args h
  | list args => exact Ends.listServer args

end Rules

/-! ## The others -/

section Silent

variable {H : Host} {s : Local H.sig}

/-- Nothing was sent or read, and whatever was asked of the system was granted. -/
structure Silent (s : Local H.sig) : Prop where
  sent : s.sent = []
  taken : s.taken = []
  kept : s.sendLost = false
  more : s.recvLost = false
  granted : ∀ op r, (⟨op, r⟩ : Σ op, Op.Ret op) ∈ s.done → op.refusal r = none

theorem Silent.init (w : World) : Silent (Local.init w : Local H.sig) := ⟨rfl, rfl, rfl, rfl, nofun⟩

theorem Silent.ask (h : Silent s) (op : Op) (r : op.Ret) (w : World) (hr : op.refusal r = none) :
    Silent (Qcp.ask op r w s) := by
  refine ⟨by rw [sent_ask]; exact h.sent, by rw [taken_ask]; exact h.taken, h.kept, h.more, fun op' r' hm => ?_⟩
  rw [done_ask] at hm
  rcases List.mem_append.1 hm with hm | hm
  · exact h.granted op' r' hm
  · cases List.mem_singleton.1 hm
    exact hr

theorem Silent.not_responded (h : Silent s) : ¬ ∃ m ∈ s.sent, ∃ r, m = Msg.response r := by
  rintro ⟨m, hm, -⟩
  rw [h.sent] at hm
  cases hm

theorem Silent.terse (h : Silent s) : Terse s.done := fun op r hm err he => by
  rw [h.granted op r hm] at he
  cases he

theorem Silent.wellFormed (h : Silent s) : WellFormed s.view := by
  refine ⟨h.more, FileHeader.codec.enc (.v1 ⟨0, []⟩), .v1 ⟨0, []⟩, [], ⟨by decide, by rfl⟩, ?_⟩
  show s.taken <+: _
  rw [h.taken]
  exact List.nil_prefix

/-- A run that ends in silence is one too many. -/
theorem not_responds (inner : SessionCommandInner) (command : Command) {w : World} {e : Err} (h : Silent s)
    (hc : Comes True (commandHandler inner command : Act H Unit) (Local.init w) (.error e) s) :
    ¬ Responds H inner command w := fun hr => h.not_responded (hr _ _ hc h.terse h.wellFormed)

theorem createDirectory_silent (args : CreateDirectoryArgs) {w : World} {n : Node}
    (hn : w (H.place args.dirName) = some n) (hk : n.info.kind = .other) : ∃ e, ∃ s : Local H.sig, Silent s ∧
      Comes True (CreateDirectoryHandler.handleImpl args : Act H Unit) (Local.init w) (.error e) s := by
  have hsem : H.sem w (.metadata args.dirName) (.ok n.info) w := ⟨rfl, fun m hm => by cases hm; exact ⟨n, hn, rfl⟩⟩
  have hf : n.info.isFile = false := by unfold Metadata.isFile; rw [hk]; rfl
  have hd : n.info.isDir = false := by unfold Metadata.isDir; rw [hk]; rfl
  refine ⟨.other ("mkdir: existing entity \"".toList ++ args.dirName ++ "\" is neither file nor directory".toList), _,
    (Silent.init w).ask (.metadata args.dirName) (.ok n.info) w rfl, Comes.then (Comes.asked hsem rfl) ?_⟩
  simp only [hf, hd]
  exact Comes.fail _ _

/-- Modes can be set until a time is come to. -/
theorem applyAll_silent (path : Path) : ∀ (mds : List TaggedData) (s : Local H.sig), Silent s →
    (∃ n, s.world (H.place path) = some n) → (∃ md ∈ mds, ¬ Settable md) → ∃ e s', Silent s' ∧
      Comes True (SetMetadataHandler.applyAll path mds : Act H Unit) s (.error e) s'
  | [], _, _, _, ⟨_, hmd, _⟩ => absurd hmd List.not_mem_nil
  | md :: mds, s, hs, ⟨n, hn⟩, ⟨bad, hbad, hset⟩ => by
    have ih := fun s hs hn hin => applyAll_silent path mds s hs hn ⟨bad, hin, hset⟩
    have later : Settable md → bad ∈ mds := fun h => by
      rcases List.mem_cons.1 hbad with rfl | hin
      · exact absurd h hset
      · exact hin
    unfold SetMetadataHandler.applyAll
    cases hattr : md.metadataAttr with
    | none => exact ih s hs ⟨n, hn⟩ (later (by unfold Settable; rw [hattr]; exact ⟨nofun, nofun⟩))
    | some a =>
      cases a with
      | invalid => exact ih s hs ⟨n, hn⟩ (later (by unfold Settable; rw [hattr]; exact ⟨nofun, nofun⟩))
      | accessTime => exact ⟨_, s, hs, Comes.fail _ _⟩
      | modificationTime => exact ⟨_, s, hs, Comes.fail _ _⟩
      | modeBits =>
        have hin := later (by unfold Settable; rw [hattr]; exact ⟨nofun, nofun⟩)
        simp only
        cases md.data.asUnsigned with
        | none => exact ih s hs ⟨n, hn⟩ hin
        | some mode =>
          let n' : Node := { n with info := { n.info with permissions := modeOf mode } }
          have hsem : H.sem s.world (.setPermissions path (modeOf mode)) (.ok ()) (s.world.put (H.place path) n') :=
            ⟨n, hn, rfl⟩
          obtain ⟨e, s', hs', hc⟩ := ih _
            (hs.ask (.setPermissions path (modeOf mode)) (.ok ()) (s.world.put (H.place path) n') rfl)
            ⟨n', World.put_same s.world (H.place path) n'⟩ hin
          exact ⟨e, s', hs', Comes.then (Comes.asked hsem hs.kept) hc⟩

theorem setMetadata_silent (args : SetMetadataArgs) {w : World} (hd : w.isDir (H.place args.path))
    (h : ∃ md ∈ args.metadata, ¬ Settable md) : ∃ e, ∃ s : Local H.sig, Silent s ∧
      Comes True (SetMetadataHandler.handleImpl args : Act H Unit) (Local.init w) (.error e) s := by
  obtain ⟨n, hn, hdir⟩ := hd
  have hsem : H.sem w (.metadata args.path) (.ok n.info) w := ⟨rfl, fun m hm => by cases hm; exact ⟨n, hn, rfl⟩⟩
  obtain ⟨e, s, hs, hc⟩ := applyAll_silent args.path args.metadata _
    ((Silent.init (H := H) w).ask (.metadata args.path) (.ok n.info) w rfl) ⟨n, hn⟩ h
  refine ⟨e, s, hs, Comes.then (Comes.asked hsem rfl) ?_⟩
  simp only [hdir, if_true]
  exact hc

/-- **Which commands are sure to get a response.** -/
theorem responds_iff (H : Host) (inner : SessionCommandInner) (command : Command) (w : World) :
    Responds H inner command w ↔ Respondable H w command := by
  constructor
  · intro h
    cases command with
    | get args | get2 args | put args | put2 args | list args => exact trivial
    | createDirectory args =>
      intro n hn hk
      obtain ⟨e, s, hs, hc⟩ := createDirectory_silent args hn hk
      exact not_responds inner (.createDirectory args) hs hc h
    | setMetadata args =>
      intro hd md hmd
      by_contra hset
      obtain ⟨e, s, hs, hc⟩ := setMetadata_silent args hd ⟨md, hmd, hset⟩
      exact not_responds inner (.setMetadata args) hs hc h
  · intro h r s hs ht hw
    exact (Ends.commandHandler inner command w h).run hs ht hw

end Silent

/-- A world in which everything is of one kind. -/
def allOf (kind : FileKind) : World := fun _ => some ⟨⟨kind, 0, 0o755, none, none⟩, []⟩

/-- A directory that is asked for where there is a pipe, and a time that is to be set on a directory, get no
response. -/
theorem not_all_respond :
    ¬ Responds anyHost ⟨.level 4, .systemDefault, false⟩ (.createDirectory ⟨"p".toList, []⟩) (allOf .other) ∧
      ¬ Responds anyHost ⟨.level 4, .systemDefault, false⟩
        (.setMetadata ⟨"d".toList, [MetadataAttr.newAtime 0], []⟩) (allOf .directory) := by
  constructor
  · obtain ⟨e, s, hs, hc⟩ := createDirectory_silent (H := anyHost) ⟨"p".toList, []⟩ (w := allOf .other) rfl rfl
    exact not_responds _ _ hs hc
  · obtain ⟨e, s, hs, hc⟩ := setMetadata_silent (H := anyHost) ⟨"d".toList, [MetadataAttr.newAtime 0], []⟩
      (w := allOf .directory) ⟨_, rfl, rfl⟩ ⟨_, List.mem_singleton_self _, fun h => h.1 rfl⟩
    exact not_responds _ _ hs hc

end Qcp
