import Qcp.Bare
import Qcp.Posix
/-!
# Host — the file system either side runs on

A world says what is at each place; `Host.place` says which place a path leads to, with its links followed.  `Op` is
what a program can ask for and `Host.sem` what may come of it: anything may fail, and a failed write may have written
a part.  What a file's metadata says of its length is a number of its own: files that grow while they are read, and
those that are made up as they are read, hold more than they say.
-/
namespace Qcp

open Bare (Bytes Text)
open Posix (Path)

abbrev Place := Nat

/-- What a path leads to, as far as `metadata` tells. -/
inductive FileKind where
  | file
  | directory
  | other
deriving DecidableEq, Repr

instance neZeroNanos : NeZero (1000000000 : Nat) := ⟨by decide⟩

/-- A time: the second it falls in, counted from the epoch, and how far into it. -/
structure SystemTime where
  seconds : Int64
  nanos : Fin 1000000000
deriving DecidableEq

/-- The epoch. -/
instance : Zero SystemTime := ⟨⟨0, 0⟩⟩

structure Metadata where
  kind : FileKind
  len : UInt64
  permissions : UInt32
  accessed : Option SystemTime
  modified : Option SystemTime

namespace Metadata

def isDir (m : Metadata) : Bool := m.kind = .directory

def isFile (m : Metadata) : Bool := m.kind = .file

end Metadata

/-- What walking a tree finds: a path, whether it is a directory, and its metadata if it can be had. -/
structure DirEntry where
  path : Path
  directory : Bool
  info : Option Metadata

/-- What is at a place. -/
structure Node where
  info : Metadata
  content : Bytes

abbrev World := Place → Option Node

namespace World

/-- A world with something else at one place. -/
def put (w : World) (h : Place) (n : Node) : World := Function.update w h (some n)

/-- What the file at a place holds. -/
def content (w : World) (h : Place) : Bytes := ((w h).map Node.content).getD []

def isDir (w : World) (h : Place) : Prop := ∃ n, w h = some n ∧ n.info.isDir = true

@[simp] theorem put_same (w : World) (h : Place) (n : Node) : w.put h n h = some n := Function.update_self ..

end World

/-! ## Errors -/

inductive IoErrorKind where
  | notFound
  | permissionDenied
  | isADirectory
  | storageFull
  | connectionReset
  | unexpectedEof
  | unsupported
  | other
deriving DecidableEq, Repr

structure IoError where
  kind : IoErrorKind
  text : Text
deriving DecidableEq, Repr

/-- A failure that is reported, or a panic. -/
inductive Fault where
  | error (message : Text)
  | panic (message : Text)
deriving DecidableEq, Repr

/-! ## Operations -/

inductive Op where
  | metadata (path : Path)
  | openRead (path : Path)
  | fileMetadata (h : Place)
  /-- The next bytes of a file, at most so many. -/
  | readAt (h : Place) (pos cap : Nat)
  /-- Creates a file, with a mode or the usual one, or empties it, and opens it for writing. -/
  | openWrite (path : Path) (mode : Option UInt32)
  | write (h : Place) (bs : Bytes)
  | flushFile (h : Place)
  | setTimes (h : Place) (accessed modified : Option SystemTime)
  | setFilePermissions (h : Place) (mode : UInt32)
  | createDir (path : Path)
  | setPermissions (path : Path) (mode : UInt32)
  /-- The entries found by walking a tree. -/
  | walkDir (path : Path) (recurse : Bool)

namespace Op

@[reducible] def Ret : Op → Type
  | metadata _ | fileMetadata _ => Except IoError Metadata
  | openRead _ | openWrite _ _ => Except IoError Place
  | readAt _ _ _ => Except IoError Bytes
  | write _ _ | flushFile _ | setTimes _ _ _ | setFilePermissions _ _ | createDir _ | setPermissions _ _ =>
    Except IoError Unit
  | walkDir _ _ => Except Text (List DirEntry)

end Op

/-- **A file that is emptied or written to may lose its set-uid and set-gid bits**, as it does where the process has no
privileges. -/
def Cleared (old new : UInt32) : Prop := ∃ bits : UInt32, new = old &&& ~~~(bits &&& 0o6000)

namespace Cleared

theorem refl (old : UInt32) : Cleared old old := ⟨0, by simp⟩

theorem trans {a b c : UInt32} (h : Cleared a b) (g : Cleared b c) : Cleared a c := by
  obtain ⟨x, rfl⟩ := h
  obtain ⟨y, rfl⟩ := g
  refine ⟨x ||| y, ?_⟩
  rw [← UInt32.toBitVec_inj]
  ext i hi
  simp
  grind

/-- A mode that has neither bit stays. -/
theorem eq_of_plain {old new : UInt32} (h : Cleared old new) (hp : old &&& 0o6000 = 0) : new = old := by
  obtain ⟨bits, rfl⟩ := h
  rw [← UInt32.toBitVec_inj] at *
  ext i hi
  have hbit := congrArg (fun x => x.getLsbD i) hp
  simp at hbit ⊢
  grind

end Cleared

structure Host where
  place : Path → Place
  umask : UInt32

namespace Host

/-- What a new file gets. -/
def createMode (H : Host) (mode : Option UInt32) : UInt32 := mode.getD 0o666 &&& ~~~H.umask

/-- What is at a place once it was opened for writing. -/
inductive Opened (H : Host) (mode : Option UInt32) : Option Node → Node → Prop where
  | created (accessed modified : Option SystemTime) :
      Opened H mode none ⟨⟨.file, 0, H.createMode mode, accessed, modified⟩, []⟩
  | truncated (n : Node) (permissions : UInt32) (modified : Option SystemTime) (h : n.info.isDir = false)
      (hp : Cleared n.info.permissions permissions) :
      Opened H mode (some n) ⟨{ n.info with len := 0, permissions := permissions, modified := modified }, []⟩

/-- What a node is after more was written to it. -/
def Wrote (n : Node) (bs : Bytes) (n' : Node) : Prop :=
  n'.content = n.content ++ bs ∧ n'.info.kind = n.info.kind ∧ Cleared n.info.permissions n'.info.permissions

/-- **What may come of an operation.** -/
def sem (H : Host) (w : World) : (op : Op) → Op.Ret op → World → Prop
  | .metadata p, r, w' => w' = w ∧ ∀ m, r = .ok m → ∃ n, w (H.place p) = some n ∧ m = n.info
  | .openRead p, r, w' => w' = w ∧ ∀ h, r = .ok h → h = H.place p ∧ ∃ n, w h = some n
  | .fileMetadata h, r, w' => w' = w ∧ ∀ m, r = .ok m → ∃ n, w h = some n ∧ m = n.info
  | .readAt h pos cap, r, w' => w' = w ∧ ∀ bs, r = .ok bs →
      bs <+: (w.content h).drop pos ∧ bs.length ≤ cap ∧ (bs = [] → cap = 0 ∨ (w.content h).length ≤ pos)
  | .openWrite p mode, r, w' =>
    match r with
    | .ok h => h = H.place p ∧ ∃ n, Opened H mode (w h) n ∧ w' = w.put h n
    | .error _ => w' = w
  | .write h bs, r, w' => ∃ n n', w h = some n ∧ w' = w.put h n' ∧
      match r with
      | .ok _ => Wrote n bs n'
      | .error _ => ∃ front, front <+: bs ∧ Wrote n front n'
  | .flushFile _, _, w' => w' = w
  | .setTimes h accessed modified, r, w' =>
    match r with
    | .ok _ => ∃ n, w h = some n ∧ w' = w.put h
        { n with info := { n.info with
            accessed := accessed.or n.info.accessed, modified := modified.or n.info.modified } }
    | .error _ => w' = w
  | .setFilePermissions h mode, r, w' =>
    match r with
    | .ok _ => ∃ n, w h = some n ∧ w' = w.put h { n with info := { n.info with permissions := mode } }
    | .error _ => w' = w
  | .createDir p, r, w' =>
    match r with
    | .ok _ => w (H.place p) = none ∧ ∃ m, m.kind = .directory ∧ w' = w.put (H.place p) ⟨m, []⟩
    | .error _ => w' = w
  | .setPermissions p mode, r, w' =>
    match r with
    | .ok _ => ∃ n, w (H.place p) = some n ∧
      w' = w.put (H.place p) { n with info := { n.info with permissions := mode } }
    | .error _ => w' = w
  | .walkDir _ _, _, w' => w' = w

end Host

end Qcp
