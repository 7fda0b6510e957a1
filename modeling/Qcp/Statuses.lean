import Qcp.Utters
import Qcp.Session
/-!
# Statuses — what the first level can decode

A client of level 1 stops at a status above 7.  `OnlyDecodable p` says that `p` never sends one: the handlers of the
commands that there are at that level do not, and those of their second versions neither (`onlyDecodable_transfer`),
since all they answer with is a status of their own choice or an error of the system.
-/
namespace Qcp

open Bare (Bytes Text)
open Posix (Path)
open Proc (Steps Task Local Utters)

/-- What a client of level 1 can decode. -/
def Decodable (m : Msg) : Prop := ∀ r, m = .response r → r.status ≤ 7

theorem decodable_other {m : Msg} (h : ∀ r, m ≠ .response r) : Decodable m := fun r hr => absurd hr (h r)

theorem decodable_status (s : Status) (message : Option Text) (h : s.toRepr ≤ 7) :
    Decodable (.response ⟨s.toRepr, message⟩) := by
  intro r hr
  cases hr
  exact h

theorem ioErrorToStatus_le (io : IoError) : (ioErrorToStatus io).1.toRepr ≤ 7 := by
  unfold ioErrorToStatus
  split <;> simp only [Status.toRepr] <;> decide

/-! ## The steps of the handlers -/

section Steps

variable {H : Host} {good : Msg → Prop}

theorem Utters.ofExcept {α ε : Type} {wrap : ε → Err} (r : Except ε α) :
    Utters (S := H.sig) good (Act.ofExcept wrap r : Act H α) := by
  cases r <;> exact trivial

theorem Utters.flushed : Utters (S := H.sig) good (Act.flush : Act H Unit) :=
  .then .flush fun _ => Utters.ofExcept _

theorem Utters.writer {α : Type} {F : Form α} {a : α} (h : good (F.msg a)) :
    Utters (S := H.sig) good (toWriterFramed F a : Act H Unit) := by
  unfold toWriterFramed
  split
  · exact .then (.send h) fun _ => Utters.ofExcept _
  · exact .fail _

theorem Utters.recv {α : Type} {err : Frame.RecvError IoError → Err} {wire : Frame.Wire α} :
    Utters (S := H.sig) good (Frame.recv err wire : Act H α) := by
  apply Utters.then (.read 4)
  intro r
  cases r with
  | error f => exact .fail _
  | ok hdr =>
    simp only
    split
    · exact .then (.fill 252) fun _ => .fail _
    · apply Utters.then (.read _)
      intro r
      cases r with
      | error f => exact .fail _
      | ok bs =>
        simp only
        cases wire.codec.decode bs <;> exact trivial

theorem Utters.reader {α : Type} (F : Form α) : Utters (S := H.sig) good (fromReaderFramed F : Act H α) :=
  .then Utters.recv fun _ => .then (.note _) fun _ => .pure _

theorem Utters.sendOk : Utters (S := H.sig) Decodable (sendOk : Act H Unit) :=
  Utters.writer (F := Response.form) (decodable_status .ok none (by decide))

/-- A refusal with a status of the handler's choice. -/
theorem Utters.refusedStatus {s : Status} (h : s.toRepr ≤ 7) :
    Utters (S := H.sig) Decodable (errorAndReturn (.status s) : Act H Unit) :=
  Utters.writer (F := Response.form) (decodable_status s none h)

/-- A refusal because of an error of the system, whatever its kind. -/
theorem Utters.refusedIo (e : IoError) : Utters (S := H.sig) Decodable (errorAndReturn (.io e) : Act H Unit) :=
  Utters.writer (F := Response.form) (decodable_status _ _ (ioErrorToStatus_le e))

theorem Utters.ensure (c : Bool) (text : Text) : Utters (S := H.sig) good (ensure c text : Act H Unit) := by
  unfold Qcp.ensure
  split <;> exact trivial

theorem Utters.protocolFilename (path : Path) : Utters (S := H.sig) good (protocolFilename path : Act H Text) := by
  unfold Qcp.protocolFilename
  split <;> exact trivial

theorem Utters.asked (op : Op) : Utters (S := H.sig) good (Act.call op : Act H _) := Utters.call (S := H.sig) op

theorem Utters.openWithMeta (path : Path) : Utters (S := H.sig) good (openWithMeta path : Act H _) := by
  apply Utters.then (Utters.asked (.openRead path))
  intro r
  cases r with
  | error e => exact .pure _
  | ok h =>
    apply Utters.then (Utters.asked (.fileMetadata h))
    intro r
    cases r with
    | error e => exact .pure _
    | ok info =>
      simp only
      split <;> exact .pure _

theorem Utters.createOrTruncate (path : Path) (header : FileHeaderV2) :
    Utters (S := H.sig) good (createOrTruncate path header : Act H _) := by
  have opened : ∀ p mode, Utters (S := H.sig) good (TokioFile.openWrite p mode : Act H _) := fun p mode =>
    Utters.asked (.openWrite p mode)
  apply Utters.then (Utters.asked (.metadata path))
  intro r
  cases r with
  | error e => exact opened _ _
  | ok info =>
    simp only
    split
    · exact opened _ _
    · split
      · exact opened _ _
      · exact .pure _

/-- A copy says the payload, if anything. -/
theorem Utters.copyBuf {fillBuf : Nat → Act H (Except IoError Bytes)} {write : Bytes → Act H (Except IoError Unit)}
    {flush : Act H (Except IoError Unit)} (hfill : ∀ amt, Utters (S := H.sig) good (fillBuf amt))
    (hwrite : ∀ bs, Utters (S := H.sig) good (write bs)) (hflush : Utters (S := H.sig) good flush) :
    Utters (S := H.sig) good (copyBuf fillBuf write flush : Act H _) := by
  apply Utters.loop
  intro amt
  apply Utters.then (hfill amt)
  intro r
  cases r with
  | error e => exact .pure _
  | ok bs =>
    simp only
    split
    · apply Utters.then hflush
      intro r
      cases r <;> exact .pure _
    · apply Utters.then (hwrite bs)
      intro r
      cases r <;> exact .pure _

theorem Utters.copyOut (h : Place) (bufferSize : Nat) :
    Utters (S := H.sig) Decodable (copyOut h bufferSize : Act H _) :=
  Utters.copyBuf (fun amt => Utters.asked (.readAt h amt bufferSize))
    (fun bs => .send (decodable_other fun r hr => by cases hr)) .flush

theorem Utters.copyIn (limit : Nat) (h : Place) (bufferSize : Nat) :
    Utters (S := H.sig) good (copyIn limit h bufferSize : Act H _) := by
  apply Utters.copyBuf
  · intro amt
    split
    · exact .pure _
    · exact .fill _
  · exact fun bs => Utters.asked (.write h bs)
  · exact Utters.asked (.flushFile h)

theorem Utters.updateMetadata (h : Place) (metadata : List TaggedData) :
    Utters (S := H.sig) good (updateMetadata h metadata : Act H Unit) := by
  apply Utters.then (Utters.asked (.fileMetadata h))
  intro r
  apply Utters.then (Utters.ofExcept r)
  intro _
  cases Changes.collect metadata with
  | none => exact .fail _
  | some c =>
    simp only
    split
    · apply Utters.then (Utters.asked (.setTimes h c.accessed c.modified))
      intro r
      apply Utters.then (Utters.ofExcept r)
      intro _
      cases c.permissions with
      | none => exact .pure _
      | some mode => exact .then (Utters.asked (.setFilePermissions h mode)) fun r => Utters.ofExcept r
    · exact .pure _

theorem Utters.isDir (path : Path) : Utters (S := H.sig) good (Fs.isDir path : Act H Bool) := by
  apply Utters.then (Utters.asked (.metadata path))
  intro r
  cases r <;> exact .pure _

theorem Utters.isFile (path : Path) : Utters (S := H.sig) good (Fs.isFile path : Act H Bool) := by
  apply Utters.then (Utters.asked (.metadata path))
  intro r
  cases r <;> exact .pure _

theorem Utters.appendFilename (destination : Path) :
    Utters (S := H.sig) good (PutHandler.appendFilename destination : Act H (Option Bool)) := by
  have missing : Utters (S := H.sig) good (do
      if Posix.endsWithSep destination then return none
      else
        let parentDir := Posix.pop destination
        let parentDir := if parentDir = [] then Posix.dot else parentDir
        if ← Fs.isDir parentDir then return some false else return none : Act H (Option Bool)) := by
    split
    · exact .pure _
    · apply Utters.then (Utters.isDir _)
      intro b
      cases b <;> exact .pure _
  have last : ∀ extant : Bool, Utters (S := H.sig) good (do
      if extant then return some (← Fs.isDir destination)
      else if Posix.endsWithSep destination then return none
      else
        let parentDir := Posix.pop destination
        let parentDir := if parentDir = [] then Posix.dot else parentDir
        if ← Fs.isDir parentDir then return some false else return none : Act H (Option Bool)) := by
    intro extant
    cases extant with
    | true => exact .then (Utters.isDir _) fun _ => .pure _
    | false => exact missing
  unfold PutHandler.appendFilename
  split
  · exact .pure _
  · apply Utters.then (Utters.isDir _)
    intro b
    cases b with
    | true => exact .then (.pure true) last
    | false => exact .then (Utters.isFile _) last

/-! ## The handlers -/

theorem Utters.getHandle (inner : SessionCommandInner) (args : Get2Args) :
    Utters (S := H.sig) Decodable (GetHandler.handleImpl inner args : Act H Unit) := by
  apply Utters.then (Utters.openWithMeta _)
  intro r
  cases r with
  | error e => exact Utters.refusedIo e
  | ok found =>
    obtain ⟨file, originalMeta⟩ := found
    simp only
    split
    · exact Utters.refusedStatus (by decide)
    apply Utters.then Utters.sendOk
    intro _
    apply Utters.then (Utters.protocolFilename _)
    intro name
    have header : Utters (S := H.sig) Decodable
        (toWriterFramed FileHeader.form (.forFile inner.compat originalMeta name) : Act H Unit) :=
      Utters.writer (decodable_other fun r hr => by cases hr)
    apply Utters.then header
    intro _
    apply Utters.then (Utters.copyOut _ _)
    intro r
    cases r with
    | error e => exact .fail _
    | ok sent =>
      apply Utters.then (Utters.ensure _ _)
      intro _
      apply Utters.then _ fun _ => Utters.flushed
      exact Utters.writer (decodable_other fun r hr => by cases hr)

theorem Utters.putHandle (inner : SessionCommandInner) (args : Get2Args) :
    Utters (S := H.sig) Decodable (PutHandler.handleImpl inner args : Act H Unit) := by
  apply Utters.then (Utters.appendFilename _)
  intro append
  cases append with
  | none => exact Utters.refusedStatus (by decide)
  | some append =>
    apply Utters.then (Utters.reader _)
    intro header
    apply Utters.then (Utters.createOrTruncate _ _)
    intro r
    cases r with
    | error e => exact Utters.refusedIo e
    | ok file =>
      apply Utters.then Utters.sendOk
      intro _
      apply Utters.then Utters.flushed
      intro _
      apply Utters.then (Utters.copyIn _ _ _)
      intro r
      cases r with
      | error e => exact Utters.refusedIo e
      | ok n =>
        apply Utters.then (Utters.reader _)
        intro trailer
        apply Utters.then (Utters.asked (.flushFile file))
        intro r
        apply Utters.then (Utters.ofExcept r)
        intro _
        apply Utters.then (Utters.updateMetadata _ _)
        intro _
        exact .then Utters.sendOk fun _ => Utters.flushed

/-- **No status above 7 is begun**, in any state of any run. -/
def OnlyDecodable (p : Act H Unit) : Prop :=
  ∀ (w : World) (c : Proc.Config H.sig (Except Err Unit)), Steps (p, Local.init w) c →
    ∀ r, Msg.response r ∈ c.2.tried → r.status ≤ 7

theorem onlyDecodable_of_utters {p : Act H Unit} (h : Utters (S := H.sig) Decodable p) : OnlyDecodable p := by
  intro w c hs r hr
  exact h.run hs (.response r) hr r rfl

end Steps

/-- The commands that transfer a file, of either version. -/
def Command.isTransfer : Command → Bool
  | .get _ | .get2 _ | .put _ | .put2 _ => true
  | _ => false

/-- **Whoever has a file transferred gets only statuses that level 1 can decode.** -/
theorem onlyDecodable_transfer (H : Host) (inner : SessionCommandInner) (command : Command)
    (h : command.isTransfer = true) : OnlyDecodable (commandHandler inner command : Act H Unit) := by
  apply onlyDecodable_of_utters
  cases command with
  | get args => exact Utters.getHandle inner _
  | get2 args => exact Utters.getHandle inner _
  | put args => exact Utters.putHandle inner _
  | put2 args => exact Utters.putHandle inner _
  | createDirectory args => cases h
  | setMetadata args => cases h
  | list args => cases h

theorem onlyDecodable_transfer_get :
    OnlyDecodable (commandHandler ⟨.level 1, .systemDefault, false⟩ (.get ⟨['f']⟩) : Act ⟨fun _ => 0, 0⟩ Unit) :=
  onlyDecodable_transfer _ _ (.get ⟨['f']⟩) rfl

end Qcp
