import Qcp.Wire
/-!
# FileExt — files opened, filled and finished

What the two sides do with files: `openWithMeta` and `createOrTruncate`, the two ways a file is copied (`copyOut` to a
stream, `copyIn` from one), and `updateMetadata`.  `Ok.copyOut` and `Ok.copyIn` say what a copy leaves behind, by the
loop invariant that what was copied so far is the front of what there is to copy; `Ok.updateMetadata` says what
becomes of a file's metadata.
-/
namespace Qcp

open Bare (Bytes Text)
open Posix (Path)
open Proc (Task View Local Ok Gives Comes)

/-! ## What is asked for -/

section Asked

variable {H : Host}

def Fs.metadata (path : Path) : Act H (Except IoError Metadata) := Act.call (.metadata path)

/-- Whether a path leads to a directory; not if this cannot be found out. -/
def Fs.isDir (path : Path) : Act H Bool := do
  match ← Fs.metadata path with
  | .ok m => return m.isDir
  | .error _ => return false

def Fs.isFile (path : Path) : Act H Bool := do
  match ← Fs.metadata path with
  | .ok m => return m.isFile
  | .error _ => return false

def Fs.createDir (path : Path) : Act H (Except IoError Unit) := Act.call (.createDir path)

def Fs.setPermissions (path : Path) (mode : UInt32) : Act H (Except IoError Unit) :=
  Act.call (.setPermissions path mode)

def Fs.walkDir (path : Path) (recurse : Bool) : Act H (Except Text (List DirEntry)) := Act.call (.walkDir path recurse)

namespace TokioFile

def openRead (path : Path) : Act H (Except IoError Place) := Act.call (.openRead path)

def metadata (h : Place) : Act H (Except IoError Metadata) := Act.call (.fileMetadata h)

def readAt (h : Place) (pos cap : Nat) : Act H (Except IoError Bytes) := Act.call (.readAt h pos cap)

def openWrite (path : Path) (mode : Option UInt32) : Act H (Except IoError Place) := Act.call (.openWrite path mode)

def write (h : Place) (bs : Bytes) : Act H (Except IoError Unit) := Act.call (.write h bs)

def flush (h : Place) : Act H (Except IoError Unit) := Act.call (.flushFile h)

def setTimes (h : Place) (accessed modified : Option SystemTime) : Act H (Except IoError Unit) :=
  Act.call (.setTimes h accessed modified)

def setPermissions (h : Place) (mode : UInt32) : Act H (Except IoError Unit) := Act.call (.setFilePermissions h mode)

end TokioFile

end Asked

/-! ## Metadata on the wire -/

namespace SystemTime

/-- A time that is too late to be one is refused. -/
def fromUnix (t : UInt64) : Option SystemTime := if t.toNat < 2 ^ 63 then some ⟨t.toInt64, 0⟩ else none

/-- A time before the epoch counts as the epoch. -/
def toUnix (t : SystemTime) : UInt64 := if t.seconds < 0 then 0 else t.seconds.toUInt64

end SystemTime

namespace MetadataAttr

def newMode (m : UInt32) : TaggedData := modeBits.withUnsigned m.toUInt64

def newAtime (t : SystemTime) : TaggedData := accessTime.withUnsigned (SystemTime.toUnix t)

def newMtime (t : SystemTime) : TaggedData := modificationTime.withUnsigned (SystemTime.toUnix t)

end MetadataAttr

/-- The attribute an item of metadata is, if it is a known one. -/
def TaggedData.metadataAttr (md : TaggedData) : Option MetadataAttr := MetadataAttr.fromRepr md.tag

/-- The permission bits of a mode on the wire. -/
def modeOf (m : UInt64) : UInt32 := (m &&& 0o777).toUInt32

namespace Metadata

def mode (m : Metadata) : UInt32 := m.permissions &&& 0o777

def toTaggedData (m : Metadata) (preserve : Bool) : List TaggedData :=
  MetadataAttr.newMode m.mode ::
    if preserve then (m.accessed.map MetadataAttr.newAtime).toList ++
    (m.modified.map MetadataAttr.newMtime).toList else []

def taggedDataForDir (m : Metadata) (_compat : Compatibility) : List TaggedData := m.toTaggedData false

theorem plain_toTaggedData (m : Metadata) (preserve : Bool) : ∀ t ∈ m.toTaggedData preserve, t.Plain := by
  intro t ht
  unfold toTaggedData at ht
  rcases List.mem_cons.1 ht with rfl | ht
  · exact Or.inr ⟨_, rfl⟩
  · split at ht
    · rcases List.mem_append.1 ht with ht | ht
      · obtain ⟨a, -, rfl⟩ := Option.map_eq_some_iff.1 (Option.mem_toList.1 ht)
        exact Or.inr ⟨_, rfl⟩
      · obtain ⟨a, -, rfl⟩ := Option.map_eq_some_iff.1 (Option.mem_toList.1 ht)
        exact Or.inr ⟨_, rfl⟩
    · exact absurd ht List.not_mem_nil

end Metadata

/-- The header for a file. -/
def FileHeader.forFile (compat : Compatibility) (info : Metadata) (protocolFilename : Text) : FileHeader :=
  if compat.supports .get2Put2 then .v2 ⟨info.len, protocolFilename, info.toTaggedData false⟩
  else .v1 ⟨info.len, protocolFilename⟩

/-- The trailer for a file. -/
def FileTrailer.forFile (compat : Compatibility) (info : Metadata) (preserve : Bool) : FileTrailer :=
  if compat.supports .get2Put2 then .v2 ⟨if preserve then info.toTaggedData true else []⟩ else .v1

theorem FileHeader.forFile_size (compat : Compatibility) (info : Metadata) (name : Text) :
    (forFile compat info name).toV2.size = info.len := by
  unfold forFile
  split <;> rfl

theorem FileHeader.forFile_plain (compat : Compatibility) (info : Metadata) (name : Text) :
    ∀ t ∈ (forFile compat info name).toV2.metadata, t.Plain := by
  unfold forFile
  split
  · exact info.plain_toTaggedData false
  · exact fun t ht => absurd ht List.not_mem_nil

theorem FileTrailer.forFile_plain (compat : Compatibility) (info : Metadata) (preserve : Bool) :
    ∀ t ∈ (forFile compat info preserve).toV2.metadata, t.Plain := by
  unfold forFile
  split
  · show ∀ t ∈ (if preserve then info.toTaggedData true else []), t.Plain
    split
    · exact info.plain_toTaggedData true
    · exact fun t ht => absurd ht List.not_mem_nil
  · exact fun t ht => absurd ht List.not_mem_nil

/-! ## Opening -/

section Opening

variable {H : Host}

/-- Opens a file for reading; only files and directories are let through. -/
def openWithMeta (path : Path) : Act H (Except IoError (Place × Metadata)) := do
  match ← TokioFile.openRead path with
  | .error e => return .error e
  | .ok fh =>
    match ← TokioFile.metadata fh with
    | .error e => return .error e
    | .ok info =>
      if !info.isFile && !info.isDir then return .error ⟨.unsupported, "Source is not a regular file".toList⟩
      else return .ok (fh, info)

/-- The mode a header asks for, with the user's mask applied: the last one counts. -/
def appliedMode (H : Host) (metadata : List TaggedData) : Option UInt32 :=
  metadata.foldl (fun mode md =>
    if md.metadataAttr.getD .invalid = .modeBits then
      match md.data.asUnsigned with
      | some m => some (modeOf m &&& ~~~H.umask)
      | none => mode
    else mode) none

/-- Opens a file for writing: the path that is opened is the one given, or one in it if that is a directory. -/
def createOrTruncate (path : Path) (header : FileHeaderV2) : Act H (Except IoError Place) := do
  match ← Fs.metadata path with
  | .ok info =>
    if info.isDir then TokioFile.openWrite (Posix.push path header.filename) (appliedMode H header.metadata)
    else if info.isFile then TokioFile.openWrite path (appliedMode H header.metadata)
    else return .error ⟨.other, "Destination path exists but is not a regular file".toList⟩
  -- an error is ignored: the file may well not exist
  | .error _ => TokioFile.openWrite path (appliedMode H header.metadata)

/-- The path that is opened, after what was found at the one given. -/
def destPath (path : Path) (filename : Text) : Except IoError Metadata → Path
  | .ok info => if info.isDir then Posix.push path filename else path
  | .error _ => path

end Opening

/-! ## Copying -/

section Copying

variable {H : Host}

/-- The end of a copy. -/
def copyEnd (flush : Act H (Except IoError Unit)) (amt : Nat) : Act H (Nat ⊕ Except IoError Nat) := do
  match ← flush with
  | .error e => return .inr (.error e)
  | .ok _ => return .inr (.ok amt)

/-- Copies until there is nothing to be had; the outcome is how much was copied. -/
def copyBuf (fillBuf : Nat → Act H (Except IoError Bytes)) (write : Bytes → Act H (Except IoError Unit))
    (flush : Act H (Except IoError Unit)) : Act H (Except IoError Nat) :=
  Task.loop (fun amt => do
    match ← fillBuf amt with
    | .error e => return .inr (.error e)
    | .ok bs =>
      if bs = [] then copyEnd flush amt
      else
        match ← write bs with
        | .error e => return .inr (.error e)
        | .ok _ => return .inl (amt + bs.length)) 0

/-- Copies a file to the stream, through a buffer. -/
def copyOut (h : Place) (bufferSize : Nat) : Act H (Except IoError Nat) :=
  copyBuf (fun amt => TokioFile.readAt h amt bufferSize) (fun bs => Task.send (.payload bs)) Task.flush

/-- Copies at most so much of the stream to a file, through a buffer. -/
def copyIn (limit : Nat) (h : Place) (bufferSize : Nat) : Act H (Except IoError Nat) :=
  copyBuf (fun amt => if limit ≤ amt then pure (.ok []) else Task.fill (min bufferSize (limit - amt)))
    (TokioFile.write h) (TokioFile.flush h)

end Copying

/-! ## Finishing -/

/-- The changes that metadata asks for. -/
structure Changes where
  accessed : Option SystemTime
  modified : Option SystemTime
  permissions : Option UInt32
  changed : Bool
deriving DecidableEq

namespace Changes

def empty : Changes := ⟨none, none, none, false⟩

/-- One item more; a time that is none stops the program. -/
def add (c : Changes) (md : TaggedData) : Option Changes :=
  match md.metadataAttr, md.data.asUnsigned with
  | some .modeBits, some m => some { c with permissions := some (modeOf m), changed := true }
  | some .accessTime, some t => (SystemTime.fromUnix t).map fun t => { c with accessed := some t, changed := true }
  | some .modificationTime, some t => (SystemTime.fromUnix t).map fun t =>
    { c with modified := some t, changed := true }
  | _, _ => some c

/-- All of them; of two for one attribute the later counts. -/
def collect (metadata : List TaggedData) : Option Changes := metadata.foldlM add empty

/-- What they make of a file's metadata. -/
def apply (c : Changes) (info : Metadata) : Metadata :=
  { info with
    accessed := c.accessed.or info.accessed, modified := c.modified.or info.modified,
    permissions := c.permissions.getD info.permissions }

end Changes

def overflowText : Text := "overflow when adding duration to instant".toList

/-- Gives a file the metadata that was sent for it. -/
def updateMetadata {H : Host} (h : Place) (metadata : List TaggedData) : Act H Unit := do
  let _ ← Act.ofExcept .io (← TokioFile.metadata h)
  match Changes.collect metadata with
  | none => Task.fail (.panicked overflowText)
  | some c =>
    if c.changed then
      Act.ofExcept .io (← TokioFile.setTimes h c.accessed c.modified)
      match c.permissions with
      | none => return ()
      | some mode => Act.ofExcept .io (← TokioFile.setPermissions h mode)
    else return ()

/-! ## Rules -/

/-- The paths that were opened for writing, and where they led. -/
def opens (done : List (Σ op, Op.Ret op)) : List (Path × Place) :=
  done.filterMap fun
    | ⟨.openWrite p _, .ok h⟩ => some (p, h)
    | _ => none

@[simp] theorem opens_append (d e : List (Σ op, Op.Ret op)) : opens (d ++ e) = opens d ++ opens e :=
    List.filterMap_append

theorem opens_more {d e : List (Σ op, Op.Ret op)} (h : opens e = []) : opens (d ++ e) = opens d := by
  rw [opens_append, h, List.append_nil]

/-- Where file times were set. -/
def timesSet (done : List (Σ op, Op.Ret op)) : List Place :=
  done.filterMap fun
    | ⟨.setTimes h _ _, _⟩ => some h
    | _ => none

@[simp] theorem timesSet_append (d e : List (Σ op, Op.Ret op)) : timesSet (d ++ e) = timesSet d ++ timesSet e :=
  List.filterMap_append

@[simp] theorem World.put_put (w : World) (h : Place) (m n : Node) : (w.put h m).put h n = w.put h n :=
  Function.update_idem ..

theorem World.put_self (w : World) (h : Place) (n : Node) (hn : w h = some n) : w.put h n = w := by
  rw [World.put, ← hn, Function.update_eq_self]

@[simp] theorem World.content_put (w : World) (h : Place) (n : Node) : (w.put h n).content h = n.content := by
  simp [World.content]

theorem World.content_of {w : World} {h : Place} {n : Node} (hn : w h = some n) : w.content h = n.content := by
  simp [World.content, hn]

section Rules

variable {H : Host} {I : View H.sig → Prop} {v : View H.sig}

/-- Something is asked for. -/
theorem Ok.asked {op : Op} {Q : op.Ret → View H.sig → Prop} (hi : I v)
    (h : ∀ r w, H.sem v.world op r w → I { v with world := w, done := v.done ++ [⟨op, r⟩] } ∧
      Q r { v with world := w, done := v.done ++ [⟨op, r⟩] }) : Ok I Q (Act.call op) v :=
  Ok.call hi (fun r w hw => (h r w hw).1) fun r w hw => (h r w hw).2

/-- Something is looked at: nothing changes. -/
theorem Ok.looked {op : Op} {Q : op.Ret → View H.sig → Prop} (hop : ∀ w r w', H.sem w op r w' → w' = w)
    (hno : ∀ r, opens [⟨op, r⟩] = []) (hi : ∀ d, opens d = [] → I { v with done := v.done ++ d })
    (h : ∀ r d, H.sem v.world op r v.world → opens d = [] → Q r { v with done := v.done ++ d }) :
    Ok I Q (Act.call op) v := by
  refine Ok.asked (by simpa using hi [] rfl) fun r w hw => ?_
  cases hop _ _ _ hw
  exact ⟨hi _ (hno r), h r _ hw (hno r)⟩

theorem Ok.metadata {Q : Except IoError Metadata → View H.sig → Prop} {path : Path}
    (hi : ∀ d, opens d = [] → I { v with done := v.done ++ d })
    (h : ∀ r d, (∀ m, r = .ok m → ∃ n, v.world (H.place path) = some n ∧ m = n.info) → opens d = [] →
      Q r { v with done := v.done ++ d }) : Ok I Q (Fs.metadata path) v :=
  Ok.looked (fun _ _ _ h => h.1) (fun _ => rfl) hi fun r d hw hd => h r d hw.2 hd

theorem Ok.isDir {Q : Bool → View H.sig → Prop} {path : Path}
    (hi : ∀ d, opens d = [] → I { v with done := v.done ++ d })
    (h : ∀ b d, (b = true → v.world.isDir (H.place path)) → opens d = [] → Q b { v with done := v.done ++ d }) :
    Ok I Q (Fs.isDir path) v := by
  refine Ok.then (Ok.metadata hi fun r d hr hd => ?_)
  cases r with
  | error e => exact Ok.pure (hi d hd) (h _ d nofun hd)
  | ok m =>
    obtain ⟨n, hn, rfl⟩ := hr m rfl
    exact Ok.pure (hi d hd) (h _ d (fun hm => ⟨n, hn, hm⟩) hd)

theorem Ok.isFile {Q : Bool → View H.sig → Prop} {path : Path}
    (hi : ∀ d, opens d = [] → I { v with done := v.done ++ d })
    (h : ∀ b d, opens d = [] → Q b { v with done := v.done ++ d }) : Ok I Q (Fs.isFile path) v := by
  refine Ok.then (Ok.metadata hi fun r d hr hd => ?_)
  cases r with
  | error e => exact Ok.pure (hi d hd) (h _ d hd)
  | ok m => exact Ok.pure (hi d hd) (h _ d hd)

/-- What is opened for reading is what the path leads to, and its metadata is its own. -/
theorem Ok.openWithMeta {Q : Except IoError (Place × Metadata) → View H.sig → Prop} {path : Path}
    (hi : ∀ d, opens d = [] → I { v with done := v.done ++ d })
    (h : ∀ r d, (∀ p, r = .ok p → p.1 = H.place path ∧ ∃ n, v.world (H.place path) = some n ∧ p.2 = n.info) →
      opens d = [] → Q r { v with done := v.done ++ d }) : Ok I Q (Qcp.openWithMeta path) v := by
  have hi2 : ∀ d, opens d = [] → ∀ d', opens d' = [] → I { v with done := v.done ++ d ++ d' } := fun d hd d' hd' => by
    rw [List.append_assoc]
    exact hi _ (by rw [opens_append, hd, hd']; rfl)
  refine Ok.then (Ok.looked (fun _ _ _ h => h.1) (fun _ => rfl) hi fun r d hr hd => ?_)
  cases r with
  | error e => exact Ok.pure (hi d hd) (h _ d nofun hd)
  | ok fh =>
    obtain ⟨hfh, -⟩ := hr.2 fh rfl
    refine Ok.then (Ok.looked (fun _ _ _ h => h.1) (fun _ => rfl) (hi2 d hd) fun r d' hr' hd' => ?_)
    have hdd : opens (d ++ d') = [] := by rw [opens_append, hd, hd']; rfl
    have hq : ∀ r, (∀ p, r = .ok p → p.1 = H.place path ∧ ∃ n, v.world (H.place path) = some n ∧ p.2 = n.info) →
        Q r { v with done := v.done ++ d ++ d' } := fun r hr => by
      rw [List.append_assoc]
      exact h r _ hr hdd
    cases r with
    | error e => exact Ok.pure (hi2 d hd d' hd') (hq _ nofun)
    | ok info =>
      obtain ⟨n, hn, rfl⟩ := hr'.2 info rfl
      simp only
      split
      · exact Ok.pure (hi2 d hd d' hd') (hq _ nofun)
      · refine Ok.pure (hi2 d hd d' hd') (hq _ ?_)
        rintro p hp
        cases hp
        exact ⟨hfh, n, hfh ▸ hn, rfl⟩

/-- **What opening a destination does**: it looks at the path given, and may then open one. -/
theorem Ok.createOrTruncate {Q : Except IoError Place → View H.sig → Prop} {path : Path} {header : FileHeaderV2}
    (hi : I v) (hfound : ∀ r, I { v with done := v.done ++ [⟨.metadata path, r⟩] })
    (hrefused : ∀ r e, Q (.error e) { v with done := v.done ++ [⟨.metadata path, r⟩] })
    (hopen : ∀ found r w, (∀ m, found = .ok m → ∃ n, v.world (H.place path) = some n ∧ m = n.info) →
      H.sem v.world (.openWrite (destPath path header.filename found) (appliedMode H header.metadata)) r w →
      I { v with world := w, done := v.done ++ [⟨.metadata path, found⟩,
        ⟨.openWrite (destPath path header.filename found) (appliedMode H header.metadata), r⟩] } ∧
      Q r { v with world := w, done := v.done ++ [⟨.metadata path, found⟩,
        ⟨.openWrite (destPath path header.filename found) (appliedMode H header.metadata), r⟩] }) :
    Ok I Q (Qcp.createOrTruncate path header) v := by
  have hstep : ∀ found, (∀ m, found = .ok m → ∃ n, v.world (H.place path) = some n ∧ m = n.info) →
      Ok I Q (TokioFile.openWrite (destPath path header.filename found) (appliedMode H header.metadata))
        { v with done := v.done ++ [⟨.metadata path, found⟩] } := by
    intro found hf
    refine Ok.asked (hfound found) fun r w hw => ?_
    rw [List.append_assoc]
    exact hopen found r w hf hw
  refine Ok.then (Ok.asked hi fun r w hw => ?_)
  obtain ⟨rfl, hf⟩ := hw
  refine ⟨hfound r, ?_⟩
  cases r with
  | error e => exact hstep (.error e) hf
  | ok info =>
    have hs := hstep (.ok info) hf
    unfold destPath at hs
    simp only at hs ⊢
    by_cases hd : info.isDir = true
    · rw [if_pos hd] at hs ⊢
      exact hs
    · rw [if_neg hd] at hs ⊢
      split
      · exact hs
      · exact Ok.pure (hfound _) (hrefused _ _)

/-- **A file is copied to the stream in pieces**, from its front, and to its end if there is a buffer. -/
theorem Ok.copyOut {Q : Except IoError Nat → View H.sig → Prop} {h : Place} {cap : Nat}
    (hi : ∀ cs sent d, List.flatten cs <+: v.world.content h → opens d = [] →
      I { v with tried := v.tried ++ cs.map Msg.payload, sent := sent, done := v.done ++ d })
    (hok : ∀ cs d, List.flatten cs <+: v.world.content h → (cap = 0 → cs.flatten = []) →
      (cap = 0 ∨ cs.flatten = v.world.content h) → opens d = [] → Q (.ok cs.flatten.length) { v with
        tried := v.tried ++ cs.map Msg.payload, sent := v.sent ++ cs.map Msg.payload, done := v.done ++ d })
    (herr : ∀ e cs sent d, List.flatten cs <+: v.world.content h → opens d = [] →
      Q (.error e) { v with tried := v.tried ++ cs.map Msg.payload, sent := sent, done := v.done ++ d }) :
    Ok I Q (Qcp.copyOut h cap) v := by
  refine Ok.loop (fun amt v' => ∃ cs d, List.flatten cs <+: v.world.content h ∧ (cap = 0 → cs.flatten = []) ∧
    amt = cs.flatten.length ∧ opens d = [] ∧ v' = { v with
      tried := v.tried ++ cs.map Msg.payload, sent := v.sent ++ cs.map Msg.payload, done := v.done ++ d }) ?_ ?_ 0 ?_
  · rintro amt v' ⟨cs, d, hcs, -, -, hd, rfl⟩
    exact hi cs _ d hcs hd
  · rintro amt v' ⟨cs, d, hcs, hzero, rfl, hd, rfl⟩
    refine Ok.then (Ok.looked (fun _ _ _ h => h.1) (fun _ => rfl) (fun d' hd' => ?_) fun r d' hr hd' => ?_)
    · rw [List.append_assoc]
      exact hi cs _ _ hcs (by rw [opens_append, hd, hd']; rfl)
    have hdd : opens (d ++ d') = [] := by rw [opens_append, hd, hd']; rfl
    simp only [List.append_assoc]
    cases r with
    | error e => exact Ok.pure (hi cs _ _ hcs hdd) (herr e cs _ _ hcs hdd)
    | ok bs =>
      obtain ⟨hbs, hcap, hempty⟩ := hr.2 bs rfl
      simp only
      split
      · rename_i hb
        refine Ok.then (Ok.flush (hi cs _ _ hcs hdd) fun r => ?_)
        cases r with
        | error e => exact Ok.pure (hi cs _ _ hcs hdd) (herr e cs _ _ hcs hdd)
        | ok _ =>
          refine Ok.pure (hi cs _ _ hcs hdd) (hok cs _ hcs hzero ((hempty hb).imp id fun hl => ?_) hdd)
          exact hcs.eq_of_length_le hl
      · rename_i hb
        have hcs' : (cs ++ [bs]).flatten <+: v.world.content h := by
          obtain ⟨t, ht⟩ := hcs
          have h1 : List.drop cs.flatten.length (v.world.content h) = t := by rw [← ht, List.drop_left]
          obtain ⟨u, hu⟩ := hbs
          refine ⟨u, ?_⟩
          rw [List.flatten_append, List.flatten_singleton, List.append_assoc, hu]
          show cs.flatten ++ List.drop cs.flatten.length (v.world.content h) = _
          rw [h1, ht]
        have hi' := fun sent => hi (cs ++ [bs]) sent _ hcs' hdd
        rw [List.map_append, List.map_singleton] at hi'
        refine Ok.then (Ok.send (hi cs _ _ hcs hdd) (by simpa using hi' _) ?_ (by simpa using hi' _) fun f => ?_)
        · refine Ok.pure (by simpa using hi' _) ⟨cs ++ [bs], d ++ d', hcs', fun hc => absurd ?_ hb, ?_, hdd, ?_⟩
          · exact List.length_eq_zero_iff.1 (Nat.le_zero.1 (hc ▸ hcap))
          · rw [List.flatten_append, List.flatten_singleton, List.length_append]
          · simp
        · apply Ok.pure (by simpa using hi' _)
          have := herr f (cs ++ [bs]) (v.sent ++ cs.map Msg.payload) (d ++ d') hcs' hdd
          show Q (.error f) _
          simpa using this
  · exact ⟨[], [], List.nil_prefix, fun _ => rfl, rfl, rfl, by simp⟩

theorem Host.Opened.content {mode : Option UInt32} {o : Option Node} {n : Node} (h : H.Opened mode o n) :
    n.content = [] := by
  cases h <;> rfl

theorem Host.Wrote.refl (n : Node) : Host.Wrote n [] n := ⟨(List.append_nil _).symm, rfl, .refl _⟩

theorem Host.Wrote.trans {n n' n'' : Node} {bs cs : Bytes} (h : Host.Wrote n bs n') (g : Host.Wrote n' cs n'') :
    Host.Wrote n (bs ++ cs) n'' :=
  ⟨by rw [g.1, h.1, List.append_assoc], g.2.1.trans h.2.1, h.2.2.trans g.2.2⟩

/-- **A part of the stream is copied to a file**: all of the limit, unless the stream ends or there is no buffer. -/
theorem Ok.copyIn {Q : Except IoError Nat → View H.sig → Prop} {limit : Nat} {h : Place} {cap : Nat} {n : Node}
    (hn : v.world h = some n)
    (hi : ∀ bs l n' d, opens d = [] →
      I { v with world := v.world.put h n', taken := v.taken ++ bs, done := v.done ++ d, lost := l })
    (hok : ∀ bs l n' d, Host.Wrote n bs n' → bs.length ≤ limit → (cap = 0 → bs = []) →
      (bs.length = limit ∨ l = true ∨ cap = 0) → opens d = [] → Q (.ok bs.length)
        { v with world := v.world.put h n', taken := v.taken ++ bs, done := v.done ++ d, lost := l })
    (herr : ∀ e bs l n' d, opens d = [] →
      Q (.error e) { v with world := v.world.put h n', taken := v.taken ++ bs, done := v.done ++ d, lost := l }) :
    Ok I Q (Qcp.copyIn limit h cap) v := by
  refine Ok.loop (fun amt v' => ∃ bs l n' d, Host.Wrote n bs n' ∧ amt = bs.length ∧ bs.length ≤ limit ∧
    (cap = 0 → bs = []) ∧ opens d = [] ∧
    v' = { v with world := v.world.put h n', taken := v.taken ++ bs, done := v.done ++ d, lost := l }) ?_ ?_ 0 ?_
  · rintro amt v' ⟨bs, l, n', d, -, -, -, -, hd, rfl⟩
    exact hi bs l n' d hd
  · rintro amt v' ⟨bs, l, n', d, hw, rfl, hle, hzero, hd, rfl⟩
    have hv := hi bs l n' d hd
    -- the end of the stream, of the limit or of the buffer
    have finish : ∀ l, (bs.length = limit ∨ l = true ∨ cap = 0) →
        Ok I (Proc.Round (fun amt v' => ∃ bs l n' d, Host.Wrote n bs n' ∧ amt = bs.length ∧ bs.length ≤ limit ∧
            (cap = 0 → bs = []) ∧ opens d = [] ∧ v' =
              { v with world := v.world.put h n', taken := v.taken ++ bs, done := v.done ++ d, lost := l }) Q)
          (copyEnd (TokioFile.flush h) bs.length)
          { v with world := v.world.put h n', taken := v.taken ++ bs, done := v.done ++ d, lost := l } := by
      intro l hend
      refine Ok.then (Ok.looked (fun _ _ _ h => h) (fun _ => rfl) (fun d' hd' => ?_) fun r d' _ hd' => ?_)
      · rw [List.append_assoc]
        exact hi bs l n' _ (by rw [opens_append, hd, hd']; rfl)
      · have hdd : opens (d ++ d') = [] := by rw [opens_append, hd, hd']; rfl
        simp only [List.append_assoc]
        cases r with
        | error e => exact Ok.pure (hi bs l n' _ hdd) (herr e bs l n' _ hdd)
        | ok _ => exact Ok.pure (hi bs l n' _ hdd) (hok bs l n' _ hw hle hzero hend hdd)
    by_cases hlim : limit ≤ bs.length
    · simp only [if_pos hlim]
      exact Ok.then (Ok.pure hv (finish l (Or.inl (by omega))))
    · simp only [if_neg hlim]
      refine Ok.then (Ok.fill (fun cs l' => by simpa [List.append_assoc] using hi (bs ++ cs) l' n' d hd)
        (fun cs hl hne hlen => ?_) ?_ (fun hc => ?_) fun f => ?_)
      · simp only [if_neg hne, List.append_assoc]
        refine Ok.then (Ok.asked (hi (bs ++ cs) l n' d hd) fun r w hw' => ?_)
        obtain ⟨m, m', hm, hw', hr⟩ := hw'
        dsimp only at hm hw'
        rw [World.put_same] at hm
        rw [World.put_put] at hw'
        cases hm
        subst hw'
        rw [List.append_assoc]
        have hdd : opens (d ++ [⟨Op.write h cs, r⟩]) = [] := by rw [opens_append, hd]; rfl
        refine ⟨hi (bs ++ cs) l m' _ hdd, ?_⟩
        cases r with
        | error e => exact Ok.pure (hi (bs ++ cs) l m' _ hdd) (herr e (bs ++ cs) l m' _ hdd)
        | ok _ =>
          refine Ok.pure (hi (bs ++ cs) l m' _ hdd)
            ⟨bs ++ cs, l, m', _, hw.trans hr, ?_, ?_, fun hc => absurd ?_ hne, hdd, rfl⟩
          · rw [List.length_append]
          · rw [List.length_append]; omega
          · exact List.length_eq_zero_iff.1 (by omega)
      · simp only [if_true]
        exact finish true (Or.inr (Or.inl rfl))
      · simp only [if_true]
        exact finish l (Or.inr (Or.inr (by omega)))
      · exact Ok.pure (hi bs true n' d hd) (herr f bs true n' d hd)
  · exact ⟨[], v.lost, n, [], .refl n, rfl, Nat.zero_le _, fun _ => rfl, rfl, by simp [World.put_self _ _ _ hn]⟩

/-- Where nothing is changed there is nothing to change. -/
theorem Changes.unchanged (metadata : List TaggedData) (c c' : Changes) (h : metadata.foldlM add c = some c')
    (hc : c.changed = false → c = empty) : c'.changed = false → c' = empty := by
  induction metadata generalizing c with
  | nil => cases h; exact hc
  | cons md metadata ih =>
    rw [List.foldlM_cons] at h
    obtain ⟨d, hd, hrest⟩ := Option.bind_eq_some_iff.1 h
    apply ih d hrest
    unfold add at hd
    split at hd
    · cases hd; exact nofun
    · obtain ⟨t, -, rfl⟩ := Option.map_eq_some_iff.1 hd; exact nofun
    · obtain ⟨t, -, rfl⟩ := Option.map_eq_some_iff.1 hd; exact nofun
    · cases hd; exact hc

theorem Changes.apply_empty (info : Metadata) : Changes.apply empty info = info := rfl

/-- **A file's metadata becomes what was sent for it**; what it holds stays, and times are set only if something
changes. -/
theorem Ok.updateMetadata {Q : Unit → View H.sig → Prop} {h : Place} {metadata : List TaggedData} {n : Node}
    (hn : v.world h = some n)
    (hi : ∀ info d, opens d = [] → I { v with world := v.world.put h ⟨info, n.content⟩, done := v.done ++ d })
    (hok : ∀ c d, Changes.collect metadata = some c → opens d = [] → (c.changed = false → timesSet d = []) →
      Q () { v with world := v.world.put h ⟨c.apply n.info, n.content⟩, done := v.done ++ d }) :
    Ok I Q (Qcp.updateMetadata h metadata) v := by
  have hself : v.world.put h ⟨n.info, n.content⟩ = v.world := v.world.put_self h n hn
  have hi0 : ∀ d, opens d = [] → I { v with done := v.done ++ d } := fun d hd => by
    have := hi n.info d hd
    rwa [hself] at this
  refine Ok.then (Ok.asked (by simpa using hi0 [] rfl) fun r w hw => ?_)
  obtain ⟨rfl, -⟩ := hw
  refine ⟨hi0 _ rfl, Ok.then (Ok.ofExcept (hi0 _ rfl) fun info hr => ?_)⟩
  cases hc : Changes.collect metadata with
  | none => exact Ok.fail (hi0 _ rfl)
  | some c =>
    simp only
    split
    · rename_i hch
      have hset : ∀ d, c.changed = false → timesSet d = [] := fun d hf => by rw [hch] at hf; cases hf
      refine Ok.then (Ok.asked (hi0 _ rfl) fun r' w hw => ?_)
      rw [List.append_assoc]
      cases r' with
      | error e =>
        cases hw
        exact ⟨hi0 _ rfl, Ok.then (Ok.fail (hi0 _ rfl))⟩
      | ok u =>
        obtain ⟨m, hm, rfl⟩ := hw
        cases hn.symm.trans hm
        refine ⟨hi _ _ rfl, Ok.then (Ok.pure (hi _ _ rfl) ?_)⟩
        cases hp : c.permissions with
        | none =>
          apply Ok.pure (hi _ _ rfl)
          have := hok c ([⟨Op.fileMetadata h, r⟩] ++ [⟨Op.setTimes h c.accessed c.modified, .ok u⟩]) hc rfl (hset _)
          unfold Changes.apply at this
          rwa [hp] at this
        | some mode =>
          refine Ok.then (Ok.asked (hi _ _ rfl) fun r'' w hw => ?_)
          rw [List.append_assoc]
          cases r'' with
          | error e =>
            cases hw
            exact ⟨hi _ _ rfl, Ok.fail (hi _ _ rfl)⟩
          | ok u' =>
            obtain ⟨m', hm', hw⟩ := hw
            dsimp only at hm' hw
            rw [World.put_same] at hm'
            cases hm'
            rw [World.put_put] at hw
            subst hw
            refine ⟨hi _ _ rfl, Ok.pure (hi _ _ rfl) ?_⟩
            have := hok c ([⟨Op.fileMetadata h, r⟩] ++ [⟨Op.setTimes h c.accessed c.modified, .ok u⟩] ++
              [⟨Op.setFilePermissions h mode, .ok u'⟩]) hc rfl (hset _)
            unfold Changes.apply at this
            rwa [hp] at this
    · rename_i hch
      have hce := Changes.unchanged metadata .empty c hc (fun _ => rfl) (Bool.eq_false_iff.2 hch)
      apply Ok.pure (hi0 _ rfl)
      have := hok c [⟨Op.fileMetadata h, r⟩] hc rfl fun _ => rfl
      rwa [hce, Changes.apply_empty, hself] at this

end Rules

/-! ## Possible runs -/

section Possible

variable {H : Host} {s : Local H.sig}

/-- A state in which something more was asked for. -/
def ask (op : Op) (r : op.Ret) (w : World) (s : Local H.sig) : Local H.sig := (s.inWorld w).push (.did op r)

@[simp] theorem ask_world (op : Op) (r : op.Ret) (w : World) (s : Local H.sig) : (ask op r w s).world = w := rfl
@[simp] theorem ask_sendLost (op : Op) (r : op.Ret) (w : World) (s : Local H.sig) :
    (ask op r w s).sendLost = s.sendLost := rfl
@[simp] theorem ask_recvLost (op : Op) (r : op.Ret) (w : World) (s : Local H.sig) :
    (ask op r w s).recvLost = s.recvLost := rfl
@[simp] theorem done_ask (op : Op) (r : op.Ret) (w : World) (s : Local H.sig) :
    (ask op r w s).done = s.done ++ [⟨op, r⟩] := by
  simp [ask, Proc.Event.done?]
@[simp] theorem got_ask (op : Op) (r : op.Ret) (w : World) (s : Local H.sig) : (ask op r w s).got = s.got := by
  simp [ask, Proc.Event.got?]
@[simp] theorem sent_ask (op : Op) (r : op.Ret) (w : World) (s : Local H.sig) : (ask op r w s).sent = s.sent := by
  simp [ask, Proc.Event.sent?]
@[simp] theorem out_ask (op : Op) (r : op.Ret) (w : World) (s : Local H.sig) : (ask op r w s).out = s.out := by
  simp [ask, Proc.Event.wrote]
@[simp] theorem taken_ask (op : Op) (r : op.Ret) (w : World) (s : Local H.sig) : (ask op r w s).taken = s.taken := by
  simp [ask, Proc.Event.read]

theorem mem_opens_ask (p : Path) (mode : Option UInt32) (h : Place) (w : World) (s : Local H.sig) :
    (p, h) ∈ opens (ask (.openWrite p mode) (.ok h) w s).done := by
  rw [done_ask (.openWrite p mode) (.ok h) w s, opens_append]
  exact List.mem_append_right _ (List.mem_singleton_self _)

theorem Gives.asked {op : Op} {r : op.Ret} {w : World} (h : H.sem s.world op r w) :
    Gives (Act.call op : Act H _) s r (ask op r w s) := Gives.call (S := H.sig) h

theorem Comes.asked {W : Prop} {op : Op} {r : op.Ret} {w : World} (h : H.sem s.world op r w) (hs : s.sendLost = false) :
    Comes W (Act.call op : Act H _) s (.ok r) (ask op r w s) := Comes.call (S := H.sig) h hs

/-- A destination can be opened where it leads. -/
theorem Gives.createOrTruncate {path : Path} {header : FileHeaderV2} (found : Except IoError Metadata)
    {r : Except IoError Place} {w : World} (hf : H.sem s.world (.metadata path) found s.world)
    (hk : ∀ info, found = .ok info → info.isDir = true ∨ info.isFile = true)
    (ho : H.sem s.world (.openWrite (destPath path header.filename found) (appliedMode H header.metadata)) r w) :
    Gives (Qcp.createOrTruncate path header) s r (ask (.openWrite (destPath path header.filename found)
      (appliedMode H header.metadata)) r w (ask (.metadata path) found s.world s)) := by
  apply Gives.then (Gives.asked hf)
  generalize hp : destPath path header.filename found = p at ho ⊢
  cases found with
  | error e =>
    cases hp
    exact Gives.asked ho
  | ok info =>
    unfold destPath at hp
    by_cases hd : info.isDir = true
    · simp only [if_pos hd] at hp ⊢
      cases hp
      exact Gives.asked ho
    · simp only [if_neg hd, if_pos ((hk info rfl).resolve_left hd)] at hp ⊢
      cases hp
      exact Gives.asked ho

theorem Gives.openWithMeta {path : Path} {n : Node} (hn : s.world (H.place path) = some n) (hk : n.info.isFile = true) :
    Gives (Qcp.openWithMeta path : Act H _) s (.ok (H.place path, n.info))
    (ask (.fileMetadata (H.place path)) (.ok n.info)
      s.world (ask (.openRead path) (.ok (H.place path)) s.world s)) := by
  have hopen : H.sem s.world (.openRead path) (.ok (H.place path)) s.world :=
    ⟨rfl, fun h hh => by cases hh; exact ⟨rfl, n, hn⟩⟩
  have hmeta : H.sem s.world (.fileMetadata (H.place path)) (.ok n.info) s.world :=
    ⟨rfl, fun m hm => by cases hm; exact ⟨n, hn, rfl⟩⟩
  refine Gives.then (Gives.asked hopen) (Gives.then (Gives.asked hmeta) ?_)
  simp only [hk]
  exact Gives.pure _ _

section CopyBuf

variable {fillBuf : Nat → Act H (Except IoError Bytes)} {write : Bytes → Act H (Except IoError Unit)}
  {flush : Act H (Except IoError Unit)} {bs : Bytes} {s₁ s₂ s₃ s₄ : Local H.sig}

theorem Gives.copyBuf_none (h₁ : Gives (fillBuf 0) s (.ok []) s₁) (h₂ : Gives flush s₁ (.ok ()) s₂) :
    Gives (copyBuf fillBuf write flush) s (.ok 0) s₂ := by
  refine Gives.last (Gives.then h₁ ?_)
  simp only [if_true]
  exact Gives.then h₂ (Gives.pure _ _)

theorem Gives.copyBuf_once (hne : bs ≠ []) (h₁ : Gives (fillBuf 0) s (.ok bs) s₁) (h₂ : Gives (write bs) s₁ (.ok ()) s₂)
    (h₃ : Gives (fillBuf bs.length) s₂ (.ok []) s₃) (h₄ : Gives flush s₃ (.ok ()) s₄) :
    Gives (copyBuf fillBuf write flush) s (.ok bs.length) s₄ := by
  apply Gives.again (y := 0 + bs.length)
  · apply Gives.then h₁
    simp only [if_neg hne]
    exact Gives.then h₂ (Gives.pure _ _)
  · rw [Nat.zero_add]
    refine Gives.last (Gives.then h₃ ?_)
    simp only [if_true]
    exact Gives.then h₄ (Gives.pure _ _)

end CopyBuf

/-- All of a file can be sent at once, if the buffer is large enough. -/
theorem Gives.copyOut {h : Place} (cap : Nat) (hne : s.world.content h ≠ []) (hcap : (s.world.content h).length ≤ cap)
    (hs : s.sendLost = false) : Gives (Qcp.copyOut h cap) s (.ok (s.world.content h).length)
      (ask (.readAt h (s.world.content h).length cap) (.ok []) s.world
        ((ask (.readAt h 0 cap) (.ok (s.world.content h)) s.world s).push (.sent (.payload (s.world.content h))))) := by
  have hfirst : H.sem s.world (.readAt h 0 cap) (.ok (s.world.content h)) s.world :=
    ⟨rfl, fun bs hb => by cases hb; exact ⟨List.prefix_refl _, hcap, fun hn => absurd hn hne⟩⟩
  have hlast : H.sem s.world (.readAt h (s.world.content h).length cap) (.ok []) s.world :=
    ⟨rfl, fun bs hb => by cases hb; exact ⟨List.nil_prefix, Nat.zero_le _, fun _ => Or.inr (Nat.le_refl _)⟩⟩
  exact Gives.copyBuf_once hne (Gives.asked hfirst) (Gives.send (S := H.sig) hs) (Gives.asked hlast)
    (Gives.flush (.ok ()) _)

theorem Gives.flushFile {h : Place} :
    Gives (TokioFile.flush h : Act H _) s (.ok ()) (ask (.flushFile h) (.ok ()) s.world s) := by
  have hflush : H.sem s.world (.flushFile h) (.ok ()) s.world := rfl
  exact Gives.asked hflush

/-- Without a buffer nothing is received. -/
theorem Gives.copyIn_noRoom {h : Place} {limit : Nat} (hl : 0 < limit) :
    Gives (Qcp.copyIn limit h 0 : Act H _) s (.ok 0) (ask (.flushFile h) (.ok ()) s.world s) := by
  refine Gives.copyBuf_none ?_ Gives.flushFile
  simp only [if_neg (Nat.not_le.2 hl), Nat.zero_min]
  exact Gives.noRoom (S := H.sig) s

/-- All of a file can be received at once, if the buffer is large enough. -/
theorem Gives.copyIn {h : Place} {cap : Nat} {bs : Bytes} {n : Node} (hne : bs ≠ []) (hcap : bs.length ≤ cap)
    (hs : s.recvLost = false) (hn : s.world h = some n) : ∃ w, w h = some ⟨n.info, n.content ++ bs⟩ ∧
      Gives (Qcp.copyIn bs.length h cap) s (.ok bs.length) (ask (.flushFile h) (.ok ()) w
        (ask (.write h bs) (.ok ()) w (s.push (.took bs)))) := by
  have hlen : 0 < bs.length := List.length_pos_iff.2 hne
  have hwrite : H.sem s.world (.write h bs) (.ok ()) (s.world.put h ⟨n.info, n.content ++ bs⟩) :=
    ⟨n, _, hn, rfl, rfl, rfl, .refl _⟩
  refine ⟨s.world.put h ⟨n.info, n.content ++ bs⟩, World.put_same .., ?_⟩
  refine Gives.copyBuf_once hne ?_ (Gives.asked (s := s.push (.took bs)) hwrite) ?_ Gives.flushFile
  · simp only [if_neg (Nat.not_le.2 hlen), Nat.sub_zero, Nat.min_eq_right hcap]
    exact Gives.fill (S := H.sig) hs hne (Nat.le_refl _)
  · simp only [Nat.le_refl, if_true]
    exact Gives.pure _ _

/-- Where there is nothing to change, nothing is. -/
theorem Gives.updateMetadata {h : Place} {n : Node} (hn : s.world h = some n) :
    Gives (Qcp.updateMetadata h [] : Act H _) s () (ask (.fileMetadata h) (.ok n.info) s.world s) := by
  have hmeta : H.sem s.world (.fileMetadata h) (.ok n.info) s.world :=
    ⟨rfl, fun m hm => by cases hm; exact ⟨n, hn, rfl⟩⟩
  exact Gives.then (Gives.asked hmeta) (Gives.then (Gives.pure _ _) (Gives.pure _ _))

end Possible

end Qcp
