import Qcp.Avoids
import Qcp.Containment
import Qcp.Responses
/-!
# Destination — which file is written

A PUT names a destination, and its header a file: the file that is written is to be the destination, or the one of
that name in it (`Sight.target`).  Whether it is in it is decided twice, by the handler and when the file is opened
(`appendFilename`, `createOrTruncate`).  `destination_iff` says when the two make one decision.
-/
namespace Qcp

open Bare (Bytes Text Codec)
open Posix (Path push)
open Proc (Task View Local Ends Comes Avoids)

/-! ## What a side sees of its file system -/

/-- **A file system, and what can be found out of it**: what is found is there, and the only path always known is
`.`. -/
structure Sight (H : Host) where
  world : World
  stat : Path → Except IoError Metadata
  sees : ∀ p m, stat p = .ok m → ∃ n, world (H.place p) = some n ∧ m = n.info
  empty : ∀ m, stat [] ≠ .ok m
  here : ∃ m, stat Posix.dot = .ok m ∧ m.isDir = true

/-- Where a path's last name stands. -/
def parentDir (p : Path) : Path := if Posix.pop p = [] then Posix.dot else Posix.pop p

namespace Sight

variable {H : Host} (fs : Sight H)

def isDir (p : Path) : Bool :=
  match fs.stat p with
  | .ok m => m.isDir
  | .error _ => false

def isFile (p : Path) : Bool :=
  match fs.stat p with
  | .ok m => m.isFile
  | .error _ => false

/-- Neither a file nor a directory, but something. -/
def isOther (p : Path) : Bool :=
  match fs.stat p with
  | .ok m => !m.isDir && !m.isFile
  | .error _ => false

/-- Destinations that stand for a file in them. -/
def Holds (dest : Path) : Prop := dest = [] ∨ dest = Posix.dot ∨ fs.isDir dest = true

instance (dest : Path) : Decidable (fs.Holds dest) := inferInstanceAs (Decidable (_ ∨ _ ∨ _))

/-- **The file that is meant by a destination and a name**, if there is one. -/
def target (dest : Path) (filename : Text) : Option Path :=
  if fs.Holds dest then if fs.isDir (push dest filename) then none else some (push dest filename)
  else if fs.isFile dest then some dest
  else if fs.isOther dest then none
  else if Posix.endsWithSep dest = false ∧ fs.isDir (parentDir dest) = true then some dest
  else none

/-- All that was found out is as it is seen. -/
def Answers (done : List (Σ op, Op.Ret op)) : Prop :=
  ∀ p r, (⟨.metadata p, r⟩ : Σ op, Op.Ret op) ∈ done → r = fs.stat p

theorem isDir_sees {p : Path} (h : fs.isDir p = true) : fs.world.isDir (H.place p) := by
  unfold isDir at h
  cases hs : fs.stat p with
  | error e => rw [hs] at h; cases h
  | ok m =>
    rw [hs] at h
    obtain ⟨n, hn, rfl⟩ := fs.sees p m hs
    exact ⟨n, hn, h⟩

/-- Whether the handler adds the name in the header to the destination; nothing if it refuses it. -/
def appends (dest : Path) : Option Bool :=
  if dest = [] ∨ dest = Posix.dot then some true
  else if fs.isDir dest || fs.isFile dest then some (fs.isDir dest)
  else if Posix.endsWithSep dest then none
  else if fs.isDir (parentDir dest) then some false else none

/-- The path that is opened for one that is given, if it is not refused. -/
def opening (path : Path) (filename : Text) : Option Path :=
  if fs.isOther path then none else some (if fs.isDir path then push path filename else path)

theorem opening_eq (path : Path) (filename : Text) : fs.opening path filename = match fs.stat path with
    | .ok m => if m.isDir then some (push path filename) else if m.isFile then some path else none
    | .error _ => some path := by
  unfold opening isOther isDir
  cases fs.stat path with
  | error e => rfl
  | ok m => cases hd : m.isDir <;> cases hf : m.isFile <;> simp [hd, hf]

/-- **The path a PUT opens.** -/
def written (dest : Path) (filename : Text) : Option Path :=
  (fs.appends dest).bind fun append => fs.opening (if append then push dest filename else dest) filename

/-- A destination that holds a directory of the name in the header. -/
def Nested (dest : Path) (filename : Text) : Prop := fs.Holds dest ∧ fs.isDir (push dest filename) = true

theorem isOther_of_isDir {p : Path} (h : fs.isDir p = true) : fs.isOther p = false := by
  unfold isDir at h
  unfold isOther
  cases hs : fs.stat p with
  | error e => rfl
  | ok m =>
    rw [hs] at h
    simp only at h
    simp [h]

theorem isOther_of_isFile {p : Path} (h : fs.isFile p = true) : fs.isOther p = false := by
  unfold isFile at h
  unfold isOther
  cases hs : fs.stat p with
  | error e => rfl
  | ok m =>
    rw [hs] at h
    simp only at h
    simp [h]

theorem appends_of_holds {dest : Path} (h : fs.Holds dest) : fs.appends dest = some true := by
  unfold appends
  by_cases hd : dest = [] ∨ dest = Posix.dot
  · rw [if_pos hd]
  · have hdir : fs.isDir dest = true := by
      rcases h with h | h | h
      · exact absurd (Or.inl h) hd
      · exact absurd (Or.inr h) hd
      · exact h
    rw [if_neg hd, hdir]
    rfl

/-- What is opened for a destination that stands for itself. -/
theorem written_of_not_holds {dest : Path} (h : ¬ fs.Holds dest) (filename : Text) :
    fs.written dest filename = if fs.isOther dest then none else fs.target dest filename := by
  have hd : ¬ (dest = [] ∨ dest = Posix.dot) := fun hd => h (hd.imp id Or.inl)
  have hdir : fs.isDir dest = false := Bool.eq_false_iff.2 fun hd => h (Or.inr (Or.inr hd))
  unfold written target appends opening
  rw [if_neg hd, if_neg h, hdir]
  by_cases hf : fs.isFile dest = true
  · simp [hf, fs.isOther_of_isFile hf, hdir]
  · by_cases ho : fs.isOther dest = true
    · cases Posix.endsWithSep dest <;> cases fs.isDir (parentDir dest) <;> simp [hf, ho]
    · cases Posix.endsWithSep dest <;> cases fs.isDir (parentDir dest) <;> simp [hf, ho, hdir]

theorem target_of_isOther {dest : Path} (h : ¬ fs.Holds dest) (ho : fs.isOther dest = true) (filename : Text) :
    fs.target dest filename = none := by
  have hf : fs.isFile dest = false := by
    by_contra hf
    rw [Bool.not_eq_false] at hf
    rw [fs.isOther_of_isFile hf] at ho
    cases ho
  unfold target
  simp [h, hf, ho]

/-- **The path that is opened is the one that is meant**, but for a name that is a directory. -/
theorem written_eq {dest : Path} {filename : Text} (h : ¬ fs.Nested dest filename) :
    fs.written dest filename = (fs.target dest filename).filter fun p => !fs.isOther p := by
  by_cases hh : fs.Holds dest
  · have hdir : fs.isDir (push dest filename) = false := Bool.eq_false_iff.2 fun hd => h ⟨hh, hd⟩
    unfold written target opening
    rw [fs.appends_of_holds hh, if_pos hh, hdir]
    cases ho : fs.isOther (push dest filename) <;> simp [ho, hdir, Option.filter]
  · rw [fs.written_of_not_holds hh]
    by_cases ho : fs.isOther dest = true
    · rw [if_pos ho, fs.target_of_isOther hh ho]
      rfl
    · rw [if_neg ho]
      unfold target
      rw [if_neg hh]
      rw [Bool.not_eq_true] at ho
      repeat' split
      all_goals simp [Option.filter, ho]

/-- A name that is a directory is added twice. -/
theorem written_of_nested {dest : Path} {filename : Text} (h : fs.Nested dest filename) :
    fs.written dest filename = some (push (push dest filename) filename) := by
  unfold written opening
  rw [fs.appends_of_holds h.1]
  simp [fs.isOther_of_isDir h.2, h.2]

theorem target_of_nested {dest : Path} {filename : Text} (h : fs.Nested dest filename) :
    fs.target dest filename = none := by
  unfold target
  rw [if_pos h.1, if_pos h.2]

end Sight

/-! ## What is opened -/

/-- The paths that were to be opened for writing. -/
def attempts (done : List (Σ op, Op.Ret op)) : List Path :=
  done.filterMap fun
    | ⟨.openWrite p _, _⟩ => some p
    | _ => none

@[simp] theorem attempts_append (d e : List (Σ op, Op.Ret op)) : attempts (d ++ e) = attempts d ++ attempts e :=
  List.filterMap_append

/-- What was opened was to be. -/
theorem mem_attempts_of_opens {done : List (Σ op, Op.Ret op)} {o : Path × Place} (h : o ∈ opens done) :
    o.1 ∈ attempts done := by
  obtain ⟨⟨op, r⟩, hx, ho⟩ := List.mem_filterMap.1 h
  refine List.mem_filterMap.2 ⟨⟨op, r⟩, hx, ?_⟩
  split at ho
  · rename_i heq
    cases heq
    cases ho
    rfl
  · cases ho

theorem opens_of_attempts {done : List (Σ op, Op.Ret op)} (h : attempts done = []) : opens done = [] := by
  refine List.eq_nil_iff_forall_not_mem.2 fun o ho => ?_
  have := mem_attempts_of_opens ho
  rw [h] at this
  cases this

def Op.opensForWriting : Op → Prop
  | .openWrite _ _ => True
  | _ => False

/-- Nothing else adds to what was opened. -/
theorem unopened_of_not_opensForWriting {d : List (Σ op, Op.Ret op)} {op : Op} {r : op.Ret} (h : ¬ op.opensForWriting) :
    opens (d ++ [⟨op, r⟩]) = opens d ∧ attempts (d ++ [⟨op, r⟩]) = attempts d := by
  rw [opens_append, attempts_append]
  cases op with
  | openWrite p mode => exact absurd trivial h
  | metadata | openRead | fileMetadata | readAt | write | flushFile | setTimes | setFilePermissions | createDir
  | setPermissions | walkDir => exact ⟨List.append_nil _, List.append_nil _⟩

section Rules

variable {H : Host} {fs : Sight H} {W : Prop} {v : View H.sig} {α β : Type}

/-- In runs in which what is found out is as it is seen. -/
def Seen (fs : Sight H) (Q : Except Err α → View H.sig → Prop) : Except Err α → View H.sig → Prop :=
  fun r v => fs.Answers v.done → Q r v

/-- A wrong answer stays one. -/
theorem Ends.unseen {Q : Except Err α → View H.sig → Prop} {p : Act H α} (h : ¬ fs.Answers v.done) :
    Ends W (Seen fs Q) p v := by
  refine (Ends.of_preserved (P := fun v => ¬ fs.Answers v.done) (fun {_ c c'} hn hs ha => hn fun q r hm => ?_)
    h).mono fun r v hn ha => absurd ha hn
  exact ha q r ((Proc.Local.done_of_trace hs.trace_prefix).subset hm)

/-- **One task after another**, as far as what is found out is as it is seen. -/
theorem Ends.seen {Q : Except Err β → View H.sig → Prop} {p : Act H α} {f : α → Act H β}
    (h : Ends W (Seen fs (Proc.Onwards W (Seen fs Q) f)) p v) : Ends W (Seen fs Q) (p >>= f) v := by
  refine Ends.then (h.mono fun r v' h => ?_)
  by_cases ha : fs.Answers v'.done
  · exact h ha
  · cases r with
    | ok a => exact Ends.unseen ha
    | error e => exact fun ha' => absurd ha' ha

theorem Ends.stat {Q : Except Err (Except IoError Metadata) → View H.sig → Prop} {path : Path}
    (h : Q (.ok (fs.stat path)) { v with done := v.done ++ [⟨.metadata path, fs.stat path⟩] }) :
    Ends W (Seen fs Q) (Fs.metadata path) v := by
  refine Ends.call fun r w hw ha => ?_
  obtain ⟨rfl, -⟩ := hw
  have hr : r = fs.stat path := ha path r (List.mem_append_right _ (List.mem_singleton_self _))
  rw [hr]
  exact h

/-- Finding out leaves what was opened as it was. -/
theorem Ends.statDir {Q : Except Err Bool → View H.sig → Prop} {path : Path}
    (h : ∀ d, attempts d = [] → Q (.ok (fs.isDir path)) { v with done := v.done ++ d }) :
    Ends W (Seen fs Q) (Fs.isDir path) v := by
  have h' := h [⟨.metadata path, fs.stat path⟩] rfl
  unfold Sight.isDir at h'
  refine Ends.seen (Ends.stat ?_)
  cases hs : fs.stat path with
  | ok m =>
    rw [hs] at h'
    exact Ends.pure fun _ => h'
  | error e =>
    rw [hs] at h'
    exact Ends.pure fun _ => h'

theorem Ends.statFile {Q : Except Err Bool → View H.sig → Prop} {path : Path}
    (h : ∀ d, attempts d = [] → Q (.ok (fs.isFile path)) { v with done := v.done ++ d }) :
    Ends W (Seen fs Q) (Fs.isFile path) v := by
  have h' := h [⟨.metadata path, fs.stat path⟩] rfl
  unfold Sight.isFile at h'
  refine Ends.seen (Ends.stat ?_)
  cases hs : fs.stat path with
  | ok m =>
    rw [hs] at h'
    exact Ends.pure fun _ => h'
  | error e =>
    rw [hs] at h'
    exact Ends.pure fun _ => h'

/-- **What the handler makes of a destination.** -/
theorem Ends.appends {Q : Except Err (Option Bool) → View H.sig → Prop} {dest : Path}
    (h : ∀ d, attempts d = [] → Q (.ok (fs.appends dest)) { v with done := v.done ++ d }) :
    Ends W (Seen fs Q) (PutHandler.appendFilename dest) v := by
  unfold PutHandler.appendFilename
  unfold Sight.appends at h
  by_cases hd : dest = [] ∨ dest = Posix.dot
  · rw [if_pos hd] at h ⊢
    exact Ends.pure fun _ => by simpa using h [] rfl
  · rw [if_neg hd] at h ⊢
    have more : ∀ {d d' : List (Σ op, Op.Ret op)}, attempts d = [] → attempts d' = [] → attempts (d ++ d') = [] :=
      fun hd hd' => by rw [attempts_append, hd, hd']; rfl
    -- what exists is looked at again, what does not is judged by its parent
    have last : ∀ (extant : Bool) (d : List (Σ op, Op.Ret op)), attempts d = [] →
        (fs.isDir dest || fs.isFile dest) = extant → Ends W (Seen fs Q) (do
          if extant then return some (← Fs.isDir dest)
          else if Posix.endsWithSep dest then return none
          else
            let parentDir := Posix.pop dest
            let parentDir := if parentDir = [] then Posix.dot else parentDir
            if ← Fs.isDir parentDir then return some false else return none : Act H _) { v with done :=
              v.done ++ d } := by
      intro extant d hd he
      rw [he] at h
      cases extant with
      | true =>
        refine Ends.seen (Ends.statDir fun d' hd' => Ends.pure fun _ => ?_)
        rw [List.append_assoc]
        exact h _ (more hd hd')
      | false =>
        simp only [Bool.false_eq_true, if_false] at h ⊢
        split
        · rename_i hs
          rw [if_pos hs] at h
          exact Ends.pure fun _ => h d hd
        · rename_i hs
          rw [if_neg hs] at h
          refine Ends.seen (Ends.statDir fun d' hd' => ?_)
          have h' := h (d ++ d') (more hd hd')
          rw [← List.append_assoc] at h'
          show Ends W (Seen fs Q) (if fs.isDir (parentDir dest) = true then _ else _) _
          cases hp : fs.isDir (parentDir dest) with
          | true =>
            rw [hp] at h'
            exact Ends.pure fun _ => h'
          | false =>
            rw [hp] at h'
            exact Ends.pure fun _ => h'
    refine Ends.seen (Ends.statDir fun d hd => ?_)
    cases hdir : fs.isDir dest with
    | true => exact Ends.then (Ends.pure (last true d hd (by rw [hdir]; rfl)))
    | false =>
      refine Ends.seen (Ends.statFile fun d' hd' => ?_)
      rw [List.append_assoc]
      exact last _ _ (more hd hd') (by rw [hdir]; rfl)

/-- **What comes of opening a path**: one that leads to something else is refused, for any other one path is opened. -/
theorem Ends.opening {Q : Except Err (Except IoError Place) → View H.sig → Prop} {path : Path} {header : FileHeaderV2}
    (hno : fs.opening path header.filename = none → ∀ d, attempts d = [] →
      Q (.ok (.error ⟨.other, "Destination path exists but is not a regular file".toList⟩))
      { v with done := v.done ++ d })
    (hopen : ∀ p, fs.opening path header.filename = some p → ∀ d mode r w, attempts d = [] →
      H.sem v.world (.openWrite p mode) r w →
      Q (.ok r) { v with world := w, done := v.done ++ d ++ [⟨.openWrite p mode, r⟩] }) :
    Ends W (Seen fs Q) (Qcp.createOrTruncate path header) v := by
  have opened : ∀ p, fs.opening path header.filename = some p → ∀ d, attempts d = [] →
      Ends W (Seen fs Q) (TokioFile.openWrite p (appliedMode H header.metadata)) { v with done := v.done ++ d } :=
    fun p hp d hd => Ends.call fun r w hw _ => hopen p hp d _ r w hd hw
  refine Ends.seen (Ends.stat ?_)
  rw [Proc.Onwards]
  rw [fs.opening_eq] at opened hno
  cases hs : fs.stat path with
  | error e =>
    rw [hs] at opened
    exact opened _ rfl _ rfl
  | ok m =>
    rw [hs] at opened hno
    simp only at opened hno ⊢
    by_cases hd : m.isDir = true
    · rw [if_pos hd] at opened ⊢
      exact opened _ rfl _ rfl
    · rw [if_neg hd] at opened hno ⊢
      by_cases hf : m.isFile = true
      · rw [if_pos hf] at opened ⊢
        exact opened _ rfl _ rfl
      · rw [if_neg hf] at hno ⊢
        exact Ends.pure fun _ => hno rfl _ rfl

end Rules

/-! ## What opens nothing -/

section Later

variable {H : Host} {α : Type} {bad : Op → Prop}

theorem Avoids.ofExcept {ε : Type} {wrap : ε → Err} (r : Except ε α) :
    Avoids (S := H.sig) bad (Act.ofExcept wrap r : Act H α) := by
  cases r <;> exact trivial

theorem Avoids.flushed : Avoids (S := H.sig) bad (Act.flush : Act H Unit) := .then .flush fun _ => Avoids.ofExcept _

theorem Avoids.writer {F : Form α} (a : α) : Avoids (S := H.sig) bad (toWriterFramed F a : Act H Unit) := by
  unfold toWriterFramed
  split
  · exact .then (.send _) fun _ => Avoids.ofExcept _
  · exact .fail _

theorem Avoids.recv {err : Frame.RecvError IoError → Err} {w : Frame.Wire α} :
    Avoids (S := H.sig) bad (Frame.recv err w : Act H α) := by
  refine .then (.read 4) fun r => ?_
  cases r with
  | error f => exact .fail _
  | ok hdr =>
    simp only
    split
    · exact .then (.fill 252) fun _ => .fail _
    · refine .then (.read _) fun r => ?_
      cases r with
      | error f => exact .fail _
      | ok bs =>
        simp only
        cases w.codec.decode bs <;> exact trivial

theorem Avoids.reader (F : Form α) : Avoids (S := H.sig) bad (fromReaderFramed F : Act H α) :=
  .then Avoids.recv fun _ => .then (.note _) fun _ => .pure _

theorem Avoids.copyIn (limit : Nat) (h : Place) (bufferSize : Nat) (hflush : ¬ bad (.flushFile h))
    (hwrite : ∀ bs, ¬ bad (.write h bs)) : Avoids (S := H.sig) bad (copyIn limit h bufferSize : Act H _) := by
  have flush : Avoids (S := H.sig) bad (TokioFile.flush h : Act H _) := .call hflush
  have finish : ∀ amt, Avoids (S := H.sig) bad (copyEnd (TokioFile.flush h : Act H _) amt) := by
    refine fun amt => .then flush fun r => ?_
    cases r <;> exact .pure _
  refine .loop (fun amt => .then ?_ fun r => ?_) 0
  · split
    · exact .pure _
    · exact .fill _
  · cases r with
    | error e => exact .pure _
    | ok bs =>
      simp only
      split
      · exact finish amt
      · have write : Avoids (S := H.sig) bad (TokioFile.write h bs : Act H _) := .call (hwrite bs)
        refine .then write fun r => ?_
        cases r <;> exact .pure _

theorem Avoids.updateMetadata (h : Place) (metadata : List TaggedData) (hinfo : ¬ bad (.fileMetadata h))
    (htimes : ∀ accessed modified, ¬ bad (.setTimes h accessed modified))
    (hmode : ∀ c mode, Changes.collect metadata = some c → c.permissions = some mode →
    ¬ bad (.setFilePermissions h mode)) :
    Avoids (S := H.sig) bad (updateMetadata h metadata : Act H Unit) := by
  have info : Avoids (S := H.sig) bad (TokioFile.metadata h : Act H _) := .call hinfo
  refine .then info fun r => .then (Avoids.ofExcept r) fun _ => ?_
  cases hc : Changes.collect metadata with
  | none => exact .fail _
  | some c =>
    simp only
    split
    · have times : Avoids (S := H.sig) bad (TokioFile.setTimes h c.accessed c.modified : Act H _) := .call (htimes _ _)
      refine .then times fun r => .then (Avoids.ofExcept r) fun _ => ?_
      cases hm : c.permissions with
      | none => exact .pure _
      | some mode =>
        have perms : Avoids (S := H.sig) bad (TokioFile.setPermissions h mode : Act H _) := .call (hmode c mode hc hm)
        exact .then perms fun r => Avoids.ofExcept r
    · exact .pure _

theorem Avoids.isDir (h : ∀ p, ¬ bad (.metadata p)) (path : Path) :
    Avoids (S := H.sig) bad (Fs.isDir path : Act H Bool) := by
  have look : Avoids (S := H.sig) bad (Fs.metadata path : Act H _) := .call (h path)
  refine .then look fun r => ?_
  cases r <;> exact .pure _

theorem Avoids.isFile (h : ∀ p, ¬ bad (.metadata p)) (path : Path) :
    Avoids (S := H.sig) bad (Fs.isFile path : Act H Bool) := by
  have look : Avoids (S := H.sig) bad (Fs.metadata path : Act H _) := .call (h path)
  refine .then look fun r => ?_
  cases r <;> exact .pure _

theorem Avoids.appendFilename (h : ∀ p, ¬ bad (.metadata p)) (destination : Path) :
    Avoids (S := H.sig) bad (PutHandler.appendFilename destination : Act H (Option Bool)) := by
  have last : ∀ extant : Bool, Avoids (S := H.sig) bad (do
      if extant then return some (← Fs.isDir destination)
      else if Posix.endsWithSep destination then return none
      else
        let parentDir := Posix.pop destination
        let parentDir := if parentDir = [] then Posix.dot else parentDir
        if ← Fs.isDir parentDir then return some false else return none : Act H _) := by
    intro extant
    cases extant with
    | true => exact .then (Avoids.isDir h _) fun _ => .pure _
    | false =>
      simp only [Bool.false_eq_true, if_false]
      split
      · exact .pure _
      · refine .then (Avoids.isDir h _) fun b => ?_
        cases b <;> exact .pure _
  unfold PutHandler.appendFilename
  split
  · exact .pure _
  · refine .then (Avoids.isDir h _) fun b => ?_
    cases b with
    | true => exact .then (.pure true) last
    | false => exact .then (Avoids.isFile h _) last

end Later

/-! ## What a PUT opens -/

/-- It was refused. -/
def Refused (sent : List Msg) : Prop := ∃ r, .response r ∈ sent ∧ r.status ≠ Status.ok.toRepr

/-- Every header that was read has this name. -/
def Named (filename : Text) (got : List Msg) : Prop := ∀ hdr, .fileHeader hdr ∈ got → hdr.toV2.filename = filename

section Put

variable {H : Host} {fs : Sight H} {dest : Path} {filename : Text} {v : View H.sig}

/-- What a PUT comes to: at most one path is opened, and where none is it was refused. -/
structure PutOutcome (fs : Sight H) (dest : Path) (filename : Text) (r : Except Err Unit) (v : View H.sig) : Prop where
  opened : ∀ o ∈ opens v.done, fs.written dest filename = some o.1 ∧ ¬ fs.world.isDir (H.place o.1)
  refused : opens v.done = [] → (∃ e, r = .error (.recv e)) ∨ Refused v.sent
  attempted : (∃ hdr, .fileHeader hdr ∈ v.got) → attempts v.done = (fs.written dest filename).toList

/-- As far as the system's errors can be told and the header has the name. -/
def Put (fs : Sight H) (dest : Path) (filename : Text) : Except Err Unit → View H.sig → Prop :=
  Seen fs fun r v => Terse v.done → Named filename v.got → PutOutcome fs dest filename r v

theorem PutOutcome.unread {v : View H.sig} (ho : opens v.done = []) (hg : v.got = []) (e : Frame.RecvError IoError) :
    PutOutcome fs dest filename (.error (.recv e)) v where
  opened o hm := by
    rw [ho] at hm
    cases hm
  refused _ := Or.inl ⟨e, rfl⟩
  attempted h := by
    obtain ⟨hdr, hm⟩ := h
    rw [hg] at hm
    cases hm

theorem Ends.refusal {err : Refusal} (hok : err ≠ .status .ok) (hfits : Terse v.done → Response.form.Fits err.response)
    (ho : opens v.done = []) (ha : (∃ hdr, .fileHeader hdr ∈ v.got) →
    attempts v.done = (fs.written dest filename).toList) :
    Ends True (Put fs dest filename) (errorAndReturn err : Act H Unit) v := by
  refine Ends.writer (fun _ _ _ _ => ⟨?_, fun _ => Or.inr ?_, ha⟩) (fun hf _ ht => absurd (hfits ht) hf) fun w =>
    absurd trivial w
  · show ∀ o ∈ opens v.done, _
    rw [ho]
    exact fun o hm => absurd hm List.not_mem_nil
  · refine ⟨err.response, List.mem_append_right _ (List.mem_singleton_self _), fun hs => errorToStatus_ne_ok err hok ?_⟩
    exact (Status.toRepr_eq_zero_iff _).1 hs

/-- Once the file is open no other is opened. -/
theorem Ends.afterOpen {p : Act H Unit} {path : Path} {h : Place} (hp : Avoids (S := H.sig) Op.opensForWriting p)
    (hw : fs.written dest filename = some path) (hd : ¬ fs.world.isDir (H.place path)) (ho : opens v.done = [(path, h)])
    (ha : attempts v.done = [path]) : Ends True (Put fs dest filename) p v := by
  refine (Ends.avoids (P := fun d => opens d = [(path, h)] ∧ attempts d = [path]) hp (fun d op r hb hP => ?_)
    ⟨ho, ha⟩).mono fun r v' h' _ _ _ => ?_
  · obtain ⟨h1, h2⟩ := unopened_of_not_opensForWriting (d := d) (r := r) hb
    rw [h1, h2]
    exact hP
  · obtain ⟨h1, h2⟩ := h'
    refine ⟨fun o hm => ?_, fun hn => ?_, fun _ => ?_⟩
    · rw [h1] at hm
      cases List.mem_singleton.1 hm
      exact ⟨hw, hd⟩
    · rw [h1] at hn
      cases hn
    · rw [h2, hw]
      rfl

/-- A header of another name stays read. -/
theorem Ends.misnamed {W : Prop} {α : Type} {Q : Except Err α → View H.sig → Prop} {p : Act H α} {hdr : FileHeader}
    (hQ : ∀ r v, ¬ Named filename v.got → Q r v) (hm : .fileHeader hdr ∈ v.got) (hn : hdr.toV2.filename ≠ filename) :
    Ends W Q p v := by
  refine (Ends.of_preserved (P := fun v => .fileHeader hdr ∈ v.got) (fun {_ c c'} hm hs => ?_) hm).mono
    fun r v hm => hQ r v fun hnamed => hn (hnamed hdr hm)
  exact (Proc.Local.got_of_trace hs.trace_prefix).subset hm

/-- **What a PUT comes to**, whatever its header has in it besides the name. -/
theorem Ends.put (inner : SessionCommandInner) (args : Get2Args) :
    Ends True (Put fs args.filename filename) (PutHandler.handleImpl inner args : Act H Unit) (View.init fs.world) := by
  refine Ends.seen (Ends.appends fun d hd => ?_)
  have hnone : opens ([] ++ d) = [] := opens_of_attempts hd
  cases happ : fs.appends args.filename with
  | none =>
    refine Ends.refusal (fun h => by cases h) (fun _ => by decide) hnone fun h => ?_
    obtain ⟨hdr, hm⟩ := h
    cases hm
  | some append =>
    rw [Proc.Onwards]
    refine Ends.then (Ends.reader (fun hb header _ _ _ => ?_) (fun e bs _ _ _ => .unread hnone rfl _)
      (fun hdr bs l _ _ _ _ _ => .unread hnone rfl _) fun bs _ _ _ _ _ => .unread hnone rfl _)
    rw [Proc.Onwards]
    by_cases hname : header.toV2.filename = filename
    · have hwritten : fs.written args.filename filename = fs.opening
          (if append then push args.filename header.toV2.filename else args.filename) header.toV2.filename := by
        unfold Sight.written
        rw [happ, hname]
        rfl
      refine Ends.seen (Ends.opening (fun hno d' hd' => ?_) fun p hp d' mode r w hd' hsem => ?_)
      · have hdd : attempts ([] ++ d ++ d') = [] := by rw [attempts_append, attempts_append, hd, hd']; rfl
        refine Ends.refusal (fun h => by cases h) (fun _ => by decide) (opens_of_attempts hdd) fun _ => ?_
        rw [hwritten, hno]
        exact hdd
      · have ha : attempts ([] ++ d ++ d' ++ [⟨.openWrite p mode, r⟩]) = [p] := by
          rw [attempts_append, attempts_append, attempts_append, hd, hd']
          rfl
        have ho : opens ([] ++ d ++ d' ++ [⟨.openWrite p mode, r⟩]) = opens [⟨.openWrite p mode, r⟩] := by
          rw [opens_append, opens_append, opens_append, opens_of_attempts hd, opens_of_attempts hd']
          rfl
        cases r with
        | error e =>
          refine Ends.refusal (fun h => by cases h) (fun ht => ht.last rfl) ho fun _ => ?_
          rw [hwritten, hp]
          exact ha
        | ok h =>
          obtain ⟨rfl, n, hopened, -⟩ := hsem
          refine Ends.afterOpen ?_ (hwritten.trans hp) hopened.not_isDir ho ha
          have ok : Avoids (S := H.sig) Op.opensForWriting (sendOk : Act H Unit) :=
            Avoids.writer (F := Response.form) ⟨Status.ok.toRepr, none⟩
          refine .then ok fun _ => .then Avoids.flushed fun _ => .then (Avoids.copyIn _ _ _ id fun _ => id) fun r => ?_
          cases r with
          | error e => exact Avoids.writer (F := Response.form) _
          | ok n =>
            refine .then (Avoids.reader _) fun t => ?_
            have flush : Avoids (S := H.sig) Op.opensForWriting (TokioFile.flush (H.place p) : Act H _) := .call id
            refine .then flush fun r => .then (Avoids.ofExcept r) fun _ => ?_
            exact .then (Avoids.updateMetadata _ _ id (fun _ _ => id) fun _ _ _ _ => id) fun _ => .then ok fun _ =>
              Avoids.flushed
    · exact Ends.misnamed (fun _ _ hn _ _ hnamed => absurd hnamed hn)
        (List.mem_append_right _ (List.mem_singleton_self _)) hname

end Put

/-! ## What a GET opens -/

namespace Sight

variable {H : Host} (fs : Sight H)

/-- What can be opened for writing is a name in a directory. -/
def Lawful (done : List (Σ op, Op.Ret op)) : Prop :=
  ∀ o ∈ opens done, o.1 ≠ [] ∧ Posix.endsWithSep o.1 = false ∧ fs.isDir (parentDir o.1) = true

/-- **What can be opened for a destination is the path that is meant.** -/
theorem target_of_opening {dest p : Path} {filename : Text} (h : fs.opening dest filename = some p)
    (hd : ¬ fs.world.isDir (H.place p)) (hne : p ≠ []) (hs : Posix.endsWithSep p = false)
    (hp : fs.isDir (parentDir p) = true) : fs.target dest filename = some p := by
  rw [fs.opening_eq] at h
  cases hstat : fs.stat dest with
  | error e =>
    rw [hstat] at h
    cases h
    have hdir : fs.isDir dest = false := by unfold isDir; rw [hstat]
    have hfile : fs.isFile dest = false := by unfold isFile; rw [hstat]
    have hother : fs.isOther dest = false := by unfold isOther; rw [hstat]
    have hhold : ¬ fs.Holds dest := by
      rintro (rfl | rfl | hh)
      · exact hne rfl
      · obtain ⟨m, hm, -⟩ := fs.here
        rw [hstat] at hm
        cases hm
      · rw [hdir] at hh
        cases hh
    unfold target
    rw [if_neg hhold, hfile, hother]
    simp [hs, hp]
  | ok m =>
    rw [hstat] at h
    simp only at h
    by_cases hm : m.isDir = true
    · rw [if_pos hm] at h
      cases h
      have hhold : fs.Holds dest := Or.inr (Or.inr (by unfold isDir; rw [hstat]; exact hm))
      have hnot : fs.isDir (push dest filename) = false := Bool.eq_false_iff.2 fun hh => hd (fs.isDir_sees hh)
      unfold target
      rw [if_pos hhold, hnot]
      rfl
    · rw [if_neg hm] at h
      by_cases hf : m.isFile = true
      · rw [if_pos hf] at h
        cases h
        have hhold : ¬ fs.Holds dest := by
          rintro (rfl | rfl | hh)
          · exact hne rfl
          · obtain ⟨m', hm', hdir⟩ := fs.here
            rw [hstat] at hm'
            cases hm'
            exact hm hdir
          · unfold isDir at hh
            rw [hstat] at hh
            exact hm hh
        have hfile : fs.isFile dest = true := by unfold isFile; rw [hstat]; exact hf
        unfold target
        rw [if_neg hhold, if_pos hfile]
      · rw [if_neg hf] at h
        cases h

end Sight

section Get

variable {H : Host} {fs : Sight H}

/-- **A GET opens the path that is meant**, if it opens one. -/
theorem Ends.get (inner : SessionCommandInner) (job : CopyJobSpec) (filename : Text) : Ends False
    (Seen fs fun _ v => fs.Lawful v.done → Named filename v.got →
      ∀ o ∈ opens v.done, fs.target job.destination.filename filename = some o.1)
    (GetHandler.sendImpl inner job : Act H RequestResult) (View.init fs.world) := by
  have none : ∀ {d : List (Σ op, Op.Ret op)}, opens d = [] →
      ∀ o ∈ opens d, fs.target job.destination.filename filename = some o.1 :=
    fun hd o hm => by rw [hd] at hm; cases hm
  refine Ends.then (Ends.writer (fun _ => ?_) (fun _ _ _ _ => none rfl) fun _ _ _ _ _ => none rfl)
  refine Ends.then (Ends.flushed ?_ fun _ _ _ _ _ => none rfl)
  refine Ends.then (Ends.reader (fun bs r _ _ _ => ?_) (fun _ _ _ _ _ => none rfl) (fun _ _ _ _ _ _ _ _ => none rfl)
    fun _ _ _ _ _ _ => none rfl)
  unfold intoResult
  rw [Proc.Onwards]
  split
  · refine Ends.then (Ends.pure ?_)
    refine Ends.then (Ends.reader (fun bs header _ _ _ => ?_) (fun _ _ _ _ _ => none rfl)
      (fun _ _ _ _ _ _ _ _ => none rfl) fun _ _ _ _ _ _ => none rfl)
    rw [Proc.Onwards]
    by_cases hname : header.toV2.filename = filename
    · refine Ends.seen (Ends.opening (fun hno d hd => ?_) fun p hp d mode r w hd hsem => ?_)
      · refine Ends.then (Ends.fail fun _ _ _ => none (opens_of_attempts ?_))
        rw [attempts_append, hd]
        rfl
      · have ho : opens ([] ++ d ++ [⟨.openWrite p mode, r⟩]) = opens [⟨.openWrite p mode, r⟩] := by
          rw [opens_append, opens_append, opens_of_attempts hd]
          rfl
        cases r with
        | error e => exact Ends.then (Ends.fail fun _ _ _ => none ho)
        | ok h =>
          obtain ⟨rfl, n, hopened, -⟩ := hsem
          have rest : Avoids (S := H.sig) Op.opensForWriting (do
              progressBarFor inner (header.toV2.size.toNat + 17)
              let _ ← Act.ofExcept .io (← copyIn header.toV2.size.toNat (H.place p) inner.config.ioBufferSize.toNat)
              let trailer := (← fromReaderFramed FileTrailer.form).toV2
              Act.ofExcept .io (← TokioFile.flush (H.place p))
              updateMetadata (H.place p) trailer.metadata
              return ⟨header.toV2.size, Option.none⟩ : Act H RequestResult) := by
            have flush : Avoids (S := H.sig) Op.opensForWriting (TokioFile.flush (H.place p) : Act H _) := .call id
            refine .then ?_ fun _ => .then (Avoids.copyIn _ _ _ id fun _ => id) fun r => .then
              (Avoids.ofExcept r) fun _ => ?_
            · unfold progressBarFor
              split <;> exact trivial
            · refine .then (Avoids.reader _) fun t => .then flush fun r => .then (Avoids.ofExcept r) fun _ => ?_
              exact .then (Avoids.updateMetadata _ _ id (fun _ _ => id) fun _ _ _ _ => id) fun _ => .pure _
          refine Ends.then (Ends.pure ?_)
          refine (Ends.avoids (P := fun d => opens d = [(p, H.place p)]) rest (fun d op r hb hP => ?_) ho).mono
            fun r v h _ hlaw _ o hm => ?_
          · rw [(unopened_of_not_opensForWriting hb).1]
            exact hP
          · rw [h] at hm
            cases List.mem_singleton.1 hm
            obtain ⟨h1, h2, h3⟩ := hlaw _ (by rw [h]; exact List.mem_singleton_self _)
            rw [hname] at hp
            exact fs.target_of_opening hp hopened.not_isDir h1 h2 h3
    · exact Ends.misnamed (fun _ _ hn _ _ hnamed => absurd hnamed hn)
        (List.mem_append_right _ (List.mem_singleton_self _)) hname
  · exact Ends.then (Ends.fail fun _ _ _ => none rfl)

end Get

/-! ## Whether it is the path that is meant -/

section Kept

variable {H : Host} {fs : Sight H} {dest : Path} {filename : Text}

/-- What is asked of a PUT: what is opened is what is meant, and where nothing is meant nothing is opened, and it is
refused. -/
structure Resolved (fs : Sight H) (dest : Path) (filename : Text) (r : Except Err Unit) (v : View H.sig) : Prop where
  opened : ∀ o ∈ opens v.done, fs.target dest filename = some o.1
  refused : fs.target dest filename = none → (∃ e, r = .error (.recv e)) ∨ Refused v.sent
  attempted : ∀ p, fs.target dest filename = some p → fs.isOther p = false → (∃ hdr, .fileHeader hdr ∈ v.got) →
    attempts v.done = [p]

/-- What is asked of a PUT to a server, and of a GET to a client, that see this file system. -/
structure DestinationKept (fs : Sight H) (inner : SessionCommandInner) (options : List TaggedData) (dest : Path)
    (filename : Text) : Prop where
  put : ∀ r s, Proc.Runs True ((PutHandler.handleImpl inner ⟨dest, options⟩ : Act H Unit), Local.init fs.world)
    (.ret r, s) → fs.Answers s.done → Terse s.done → Named filename s.got → Resolved fs dest filename r s.view
  get : ∀ job : CopyJobSpec, job.destination.filename = dest → ∀ r s,
    Proc.Steps ((GetHandler.sendImpl inner job : Act H RequestResult), Local.init fs.world) (.ret r, s) →
      fs.Answers s.done → fs.Lawful s.done → Named filename s.got → ∀ o ∈ opens s.done,
      fs.target dest filename = some o.1

/-- A directory of the name in the header is opened in, unless there is another of that name in that. -/
def OpensInside (fs : Sight H) (dest : Path) (filename : Text) : Prop :=
  fs.Nested dest filename ∧ ¬ fs.world.isDir (H.place (push (push dest filename) filename))

theorem PutOutcome.resolved {r : Except Err Unit} {v : View H.sig} (h : PutOutcome fs dest filename r v)
    (hn : ¬ OpensInside fs dest filename) : Resolved fs dest filename r v := by
  by_cases hnest : fs.Nested dest filename
  · have ht := fs.target_of_nested hnest
    have hnone : opens v.done = [] := by
      refine List.eq_nil_iff_forall_not_mem.2 fun o ho => ?_
      obtain ⟨hw, hd⟩ := h.opened o ho
      rw [fs.written_of_nested hnest] at hw
      rw [← Option.some.inj hw] at hd
      exact hn ⟨hnest, hd⟩
    refine ⟨fun o ho => ?_, fun _ => h.refused hnone, fun p hp => ?_⟩
    · rw [hnone] at ho
      cases ho
    · rw [ht] at hp
      cases hp
  · have hw := fs.written_eq hnest
    refine ⟨fun o ho => ?_, fun ht => h.refused ?_, fun p hp hother hh => ?_⟩
    · have hwo := (h.opened o ho).1
      rw [hw] at hwo
      exact (Option.filter_eq_some_iff.1 hwo).1
    · refine List.eq_nil_iff_forall_not_mem.2 fun o ho => ?_
      have hwo := (h.opened o ho).1
      rw [hw, ht] at hwo
      cases hwo
    · rw [h.attempted hh, hw, hp]
      simp [Option.filter, hother]

/-- Only directories and files were looked for, and found. -/
structure Looked (fs : Sight H) (s : Local H.sig) : Prop where
  world : s.world = fs.world
  kept : s.sendLost = false
  more : s.recvLost = false
  got : s.got = []
  found : ∀ x ∈ s.done, ∃ p m, fs.stat p = .ok m ∧ x = ⟨.metadata p, .ok m⟩

theorem Looked.init (fs : Sight H) : Looked fs (Local.init fs.world) := ⟨rfl, rfl, rfl, rfl, nofun⟩

theorem Sight.sem_metadata (fs : Sight H) {p : Path} {m : Metadata} (h : fs.stat p = .ok m) :
    H.sem fs.world (.metadata p) (.ok m) fs.world := ⟨rfl, fun m' hm => by cases hm; exact fs.sees p m h⟩

theorem Looked.ask {s : Local H.sig} (h : Looked fs s) {p : Path} {m : Metadata} (hp : fs.stat p = .ok m) :
    Looked fs (ask (.metadata p) (.ok m) s.world s) := by
  refine ⟨h.world, h.kept, h.more, by rw [got_ask]; exact h.got, fun x hx => ?_⟩
  rw [done_ask] at hx
  rcases List.mem_append.1 hx with hx | hx
  · exact h.found x hx
  · exact ⟨p, m, hp, List.mem_singleton.1 hx⟩

/-- A directory is found to be one. -/
theorem Looked.isDir {s : Local H.sig} (h : Looked fs s) {p : Path} (hp : fs.isDir p = true) :
    ∃ s', Looked fs s' ∧ Comes True (Fs.isDir p : Act H Bool) s (.ok true) s' := by
  unfold Sight.isDir at hp
  cases hs : fs.stat p with
  | error e => rw [hs] at hp; cases hp
  | ok m =>
    rw [hs] at hp
    have hsem : H.sem s.world (.metadata p) (.ok m) s.world := by rw [h.world]; exact fs.sem_metadata hs
    refine ⟨_, h.ask hs, Comes.then (Comes.asked hsem h.kept) ?_⟩
    simp only at hp ⊢
    rw [hp]
    exact Comes.pure _ _

theorem Looked.appends {s : Local H.sig} (h : Looked fs s) (hh : fs.Holds dest) :
    ∃ s', Looked fs s' ∧ Comes True (PutHandler.appendFilename dest : Act H _) s (.ok (some true)) s' := by
  unfold PutHandler.appendFilename
  by_cases hd : dest = [] ∨ dest = Posix.dot
  · rw [if_pos hd]
    exact ⟨s, h, Comes.pure _ _⟩
  · have hdir : fs.isDir dest = true := by
      rcases hh with hh | hh | hh
      · exact absurd (Or.inl hh) hd
      · exact absurd (Or.inr hh) hd
      · exact hh
    rw [if_neg hd]
    obtain ⟨s1, h1, c1⟩ := h.isDir hdir
    obtain ⟨s2, h2, c2⟩ := h1.isDir hdir
    exact ⟨s2, h2, Comes.then c1 (Comes.then (Comes.pure _ _) (Comes.then c2 (Comes.pure _ _)))⟩

/-- A disk that is full when it is told to write. -/
def diskFull : IoError := ⟨.storageFull, []⟩

/-- What is not a directory can be opened. -/
theorem Host.Opened.exists_of_not_isDir (mode : Option UInt32) {w : World} {h : Place} (hd : ¬ w.isDir h) :
    ∃ n, H.Opened mode (w h) n := by
  cases hn : w h with
  | none => exact ⟨_, .created none none⟩
  | some n => exact ⟨_, .truncated n _ none (Bool.eq_false_iff.2 fun h => hd ⟨n, hn, h⟩) (.refl _)⟩

/-- **A PUT that opens a file in the directory that has its name**, and finds the disk full. -/
theorem comes_nested (inner : SessionCommandInner) (options : List TaggedData) (h : OpensInside fs dest filename)
    (hf : FileHeader.form.Fits (.v1 ⟨0, filename⟩)) : ∃ r s,
      Comes True (PutHandler.handleImpl inner ⟨dest, options⟩ : Act H Unit) (Local.init fs.world) r s ∧
      fs.Answers s.done ∧ Terse s.done ∧ Named filename s.got ∧ ∃ o, o ∈ opens s.done := by
  obtain ⟨⟨hh, hdir⟩, hno⟩ := h
  obtain ⟨s1, h1, c1⟩ := (Looked.init fs).appends hh
  have hback : FileHeader.form.ReadsBack (.v1 ⟨0, filename⟩) :=
    FileHeader.readsBack_of_fits _ (fun _ h => absurd h List.not_mem_nil) hf
  obtain ⟨m, hm, hmdir⟩ : ∃ m, fs.stat (push dest filename) = .ok m ∧ m.isDir = true := by
    unfold Sight.isDir at hdir
    cases hs : fs.stat (push dest filename) with
    | error e => rw [hs] at hdir; cases hdir
    | ok m => rw [hs] at hdir; exact ⟨m, rfl, hdir⟩
  let path := push (push dest filename) filename
  let s2 : Local H.sig := hear FileHeader.form (.v1 ⟨0, filename⟩) s1
  let s3 : Local H.sig := ask (.metadata (push dest filename)) (.ok m) s2.world s2
  obtain ⟨w, hopen⟩ : ∃ w, H.sem s3.world (.openWrite path none) (.ok (H.place path)) w := by
    have hw : s3.world = fs.world := h1.world
    rw [hw]
    obtain ⟨n, hn⟩ := Host.Opened.exists_of_not_isDir none hno
    exact ⟨_, rfl, n, hn, rfl⟩
  let s4 : Local H.sig := ask (.openWrite path none) (.ok (H.place path)) w s3
  let s5 : Local H.sig := s4.push (.sent (Response.form.msg okResponse))
  let s6 : Local H.sig := ask (.flushFile (H.place path)) (.error diskFull) w s5
  have copen : Comes True (createOrTruncate (push dest filename) (FileHeader.v1 ⟨0, filename⟩).toV2 : Act H _) s2
      (.ok (.ok (H.place path))) s4 := by
    have hsem : H.sem s2.world (.metadata (push dest filename)) (.ok m) s2.world := by
      have hw : s2.world = fs.world := h1.world
      rw [hw]
      exact fs.sem_metadata hm
    apply Comes.then (Comes.asked hsem h1.kept)
    simp only [hmdir, if_true]
    exact Comes.asked hopen h1.kept
  have ccopy : Comes True (copyIn 0 (H.place path) inner.config.ioBufferSize.toNat : Act H _) s5
      (.ok (.error diskFull)) s6 := by
    have hsem : H.sem s5.world (.flushFile (H.place path)) (.error diskFull) w := rfl
    refine Comes.last h1.kept (Comes.then (Comes.pure (Except.ok []) s5) ?_)
    simp only [if_true]
    exact Comes.then (Comes.asked hsem h1.kept) (Comes.pure _ _)
  have hfull : Response.form.Fits (Refusal.io diskFull).response := by decide
  let s7 : Local H.sig := s6.push (.sent (Response.form.msg (Refusal.io diskFull).response))
  have crefuse : Comes True (errorAndReturn (.io diskFull) : Act H Unit) s6 (.ok ()) s7 := Comes.writer hfull h1.kept
  have cok : Comes True (sendOk : Act H Unit) s4 (.ok ()) s5 := Comes.writer okResponse_fits h1.kept
  have hdone : s7.done = s1.done ++ [⟨.metadata (push dest filename), .ok m⟩] ++
    [⟨.openWrite path none, .ok (H.place path)⟩] ++
      [⟨.flushFile (H.place path), .error diskFull⟩] := by
    simp [s7, s6, s5, s4, s3, s2, done_ask, Proc.Event.done?]
  have hmem : ∀ e ∈ s7.done, (∃ q m', fs.stat q = .ok m' ∧ e = ⟨.metadata q, .ok m'⟩) ∨
      e = ⟨.openWrite path none, .ok (H.place path)⟩ ∨ e = ⟨.flushFile (H.place path), .error diskFull⟩ := by
    intro e he
    rw [hdone] at he
    simp only [List.mem_append, List.mem_singleton] at he
    rcases he with ((he | he) | he) | he
    · exact Or.inl (h1.found _ he)
    · exact Or.inl ⟨_, m, hm, he⟩
    · exact Or.inr (Or.inl he)
    · exact Or.inr (Or.inr he)
  have hgot : s7.got = [.fileHeader (.v1 ⟨0, filename⟩)] := by
    simp [s7, s6, s5, s4, s3, s2, got_ask, h1.got, Proc.Event.got?, FileHeader.form]
  refine ⟨_, s7, Comes.then c1 (Comes.then (Comes.reader hf hback h1.more h1.kept) (Comes.then copen (Comes.then cok
    (Comes.then (Comes.flushed h1.kept) (Comes.then ccopy crefuse))))), ?_, ?_, ?_, (path, H.place path), ?_⟩
  · intro p r hr
    rcases hmem _ hr with ⟨q, m', hq, hx⟩ | hx | hx
    · cases hx
      exact hq.symm
    · cases hx
    · cases hx
  · intro op r hr err he
    rcases hmem _ hr with ⟨q, m', -, hx⟩ | hx | hx
    · cases hx
      cases he
    · cases hx
      cases he
    · cases hx
      cases he
      exact hfull
  · intro hdr hr
    rw [hgot] at hr
    cases List.mem_singleton.1 hr
    rfl
  · rw [hdone, opens_append, opens_append]
    exact List.mem_append_left _ (List.mem_append_right _ (List.mem_singleton_self _))

/-- **The file a PUT or a GET writes is the one that is meant**, unless the destination holds a directory that has its
name. -/
theorem destination_iff (fs : Sight H) (inner : SessionCommandInner) (options : List TaggedData) (dest : Path)
    (filename : Text) (hf : FileHeader.form.Fits (.v1 ⟨0, filename⟩)) :
    DestinationKept fs inner options dest filename ↔ ¬ OpensInside fs dest filename := by
  constructor
  · intro h ho
    obtain ⟨r, s, hrun, ha, ht, hn, o, hopen⟩ := comes_nested inner options ho hf
    have := (h.put r s hrun ha ht hn).opened o hopen
    rw [fs.target_of_nested ho.1] at this
    cases this
  · refine fun ho => ⟨fun r s hs ha ht hn => ?_, fun job hd r s hs ha hl hn => ?_⟩
    · exact ((Ends.put inner ⟨dest, options⟩).run hs ha ht hn).resolved ho
    · subst hd
      exact (Ends.get inner job filename).run hs.runs ha hl hn

end Kept

/-! ## A directory in a directory -/

/-- A file system all of which can be seen. -/
def Sight.ofWorld (H : Host) (w : World) (hempty : w (H.place []) = none) (hhere : w.isDir (H.place Posix.dot)) :
    Sight H where
  world := w
  stat p := match w (H.place p) with
    | some n => .ok n.info
    | none => .error ⟨.notFound, []⟩
  sees p m h := by
    cases hn : w (H.place p) with
    | none => rw [hn] at h; cases h
    | some n => rw [hn] at h; cases h; exact ⟨n, rfl, rfl⟩
  empty m h := by
    rw [hempty] at h
    cases h
  here := by
    obtain ⟨n, hn, hd⟩ := hhere
    exact ⟨n.info, by rw [hn], hd⟩

def nestedHost : Host :=
  ⟨fun p => if p = ".".toList ∨ p = "/d".toList then 0 else if p = "/d/x".toList then 1 else 2, 0⟩

/-- Two directories, one in the other. -/
def nestedWorld : World := fun h => if h ≤ 1 then some ⟨⟨.directory, 0, 0o755, none, none⟩, []⟩ else none

def nestedSight : Sight nestedHost := .ofWorld nestedHost nestedWorld rfl ⟨_, rfl, rfl⟩

theorem destination_iff_nested : DestinationKept nestedSight plainInner [] "/d".toList "y".toList ↔
    ¬ OpensInside nestedSight "/d".toList "y".toList :=
  destination_iff nestedSight plainInner [] "/d".toList "y".toList (by decide)

/-- **A file `x` that is put to `/d` is written to `/d/x/x`** where `/d/x` is a directory. -/
theorem not_destinationKept : ¬ DestinationKept nestedSight plainInner [] "/d".toList "x".toList := by
  intro h
  have hnest : nestedSight.Nested "/d".toList "x".toList := ⟨Or.inr (Or.inr rfl), rfl⟩
  have hno : ¬ nestedSight.world.isDir (nestedHost.place (push (push "/d".toList "x".toList) "x".toList)) := by
    rintro ⟨n, hn, -⟩
    cases hn
  obtain ⟨r, s, hrun, ha, ht, hn, o, hopen⟩ := comes_nested plainInner [] ⟨hnest, hno⟩ (by decide)
  have := (h.put r s hrun ha ht hn).opened o hopen
  rw [nestedSight.target_of_nested hnest] at this
  cases this

end Qcp
