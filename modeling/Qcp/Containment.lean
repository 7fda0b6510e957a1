import Qcp.Transfer
/-!
# Containment — which paths a GET opens for writing

The path a client opens is made from the destination it was given and the name in the server's header (`destPath`).
`Ok.getClient` follows the client up to there, `contained_iff` says for which names such a path stays where the user
wanted it, and `get_contained_iff` says so of every run.
-/
namespace Qcp

open Bare (Bytes Text)
open Posix (Path ChildOf absolute names dotDot push)
open Proc (Task View Local Steps Gives Reaches Ok)

/-- Exactly the destination, unless that is a directory, or a direct child of it. -/
def Contained (H : Host) (w : World) (dest path : Path) : Prop :=
  (path = dest ∧ ¬ w.isDir (H.place dest)) ∨ ChildOf dest path

/-- What a name has to be: one that adds a single name, or the absolute path of a direct child. -/
def AddsOneName (dest : Path) (filename : Text) : Prop :=
  (absolute filename = false ∧ ∃ n, n ≠ dotDot ∧ names filename = [n]) ∨
    (absolute filename = true ∧ ChildOf dest filename)

/-- What could be opened is not a directory. -/
theorem Host.Opened.not_isDir {H : Host} {mode : Option UInt32} {w : World} {h : Place} {n : Node}
    (ho : H.Opened mode (w h) n) : ¬ w.isDir h := by
  rintro ⟨m, hm, hd⟩
  rw [hm] at ho
  cases ho with
  | truncated n permissions modified hn _ => rw [hd] at hn; cases hn

/-- **An opened path is contained exactly when the destination is not a directory or the name adds one name.** -/
theorem contained_iff {H : Host} {w : World} {dest path : Path} {filename : Text} {found : Except IoError Metadata}
    {mode : Option UInt32} {n : Node} (hf : ∀ m, found = .ok m → ∃ n, w (H.place dest) = some n ∧ m = n.info)
    (hp : path = destPath dest filename found) (ho : H.Opened mode (w (H.place path)) n) :
    Contained H w dest path ↔ ¬ w.isDir (H.place dest) ∨ AddsOneName dest filename := by
  unfold Contained AddsOneName
  rw [← Posix.childOf_push_iff]
  have itself : path = dest → ((path = dest ∧ ¬ w.isDir (H.place dest)) ∨ ChildOf dest path ↔
      ¬ w.isDir (H.place dest) ∨ ChildOf dest (push dest filename)) := fun h => by
    have hno : ¬ w.isDir (H.place dest) := h ▸ ho.not_isDir
    exact ⟨fun _ => Or.inl hno, fun _ => Or.inl ⟨h, hno⟩⟩
  cases found with
  | error e => exact itself hp
  | ok info =>
    obtain ⟨m, hm, rfl⟩ := hf info rfl
    unfold destPath at hp
    simp only at hp
    split at hp
    · rename_i hd
      have hyes : w.isDir (H.place dest) := ⟨m, hm, hd⟩
      rw [hp]
      simp only [hyes, not_true_eq_false, and_false, false_or]
    · exact itself hp

/-- **In every run of a client's GET, a path that was opened is contained exactly when the destination is not a
directory or the name in the header adds one name.** -/
theorem get_contained_iff (H : Host) (inner : SessionCommandInner) (job : CopyJobSpec) (w : World)
    (p : Act H RequestResult) (s : Local H.sig)
    (hs : Steps (GetHandler.sendImpl inner job, Local.init w) (p, s)) (path : Path) (h : Place)
    (ho : (path, h) ∈ opens s.done) :
    ∃ header, .fileHeader header ∈ s.got ∧ (Contained H w job.destination.filename path ↔
      ¬ w.isDir (H.place job.destination.filename) ∨ AddsOneName job.destination.filename header.toV2.filename) := by
  obtain ⟨header, found, hg, hf, hp, mode, n, hopen⟩ := ((Ok.getClient inner job w).run hs).opened path h ho
  exact ⟨header, hg, contained_iff hf hp hopen⟩

/-! ## Names that lead elsewhere -/

/-- A host on which only one directory is known by its path. -/
def oneDirHost : Host := ⟨fun p => if p = "/d".toList then 0 else 1, 0⟩

def oneDirWorld : World := fun h => if h = 0 then some ⟨⟨.directory, 0, 0o755, none, none⟩, []⟩ else none

def intoDir : CopyJobSpec := ⟨⟨some "host".toList, "x".toList⟩, ⟨none, "/d".toList⟩, "host".toList, false, false, none⟩

def plainInner : SessionCommandInner := ⟨.level 1, .systemDefault, false⟩

/-- A server may send any name that fits. -/
theorem opens_in_oneDir (f : Text) (hf : FileHeader.form.Fits (.v1 ⟨0, f⟩))
    (hplace : push "/d".toList f ≠ "/d".toList) :
    Reaches (fun c => (push "/d".toList f, 1) ∈ opens c.2.done)
      (GetHandler.sendImpl (H := oneDirHost) plainInner intoDir, Local.init oneDirWorld) := by
  have hback : FileHeader.form.ReadsBack (.v1 ⟨0, f⟩) :=
    FileHeader.readsBack_of_fits _ (fun _ h => absurd h List.not_mem_nil) hf
  apply Gives.reaches (Gives.writer (by decide) rfl)
  apply Gives.reaches Gives.flushed
  apply Gives.reaches (Gives.reader (by decide) (Response.readsBack_of_fits okResponse (by decide)) rfl)
  apply Gives.reaches (Gives.pure _ _)
  apply Gives.reaches (Gives.reader hf hback rfl)
  have hdir : Host.sem oneDirHost oneDirWorld (.metadata "/d".toList)
      (.ok ⟨.directory, 0, 0o755, none, none⟩) oneDirWorld := ⟨rfl, fun m hm => ⟨_, rfl, by cases hm; rfl⟩⟩
  have hnew : Host.sem oneDirHost oneDirWorld (.openWrite (push "/d".toList f) none) (.ok 1)
      (oneDirWorld.put 1 ⟨⟨.file, 0, oneDirHost.createMode none, none, none⟩, []⟩) :=
    ⟨(if_neg hplace).symm, _, .created none none, rfl⟩
  refine Gives.reaches (Gives.createOrTruncate (.ok _) hdir (fun _ h => by cases h; exact Or.inl rfl) hnew) ?_
  exact Reaches.now (mem_opens_ask _ _ _ _ _)

theorem get_contained_iff_named : ∃ (p : Act oneDirHost RequestResult) (s : Local oneDirHost.sig),
    Steps (GetHandler.sendImpl plainInner intoDir, Local.init oneDirWorld) (p, s) ∧
    ∃ header, .fileHeader header ∈ s.got ∧ (Contained oneDirHost oneDirWorld "/d".toList "/d/x".toList ↔
      ¬ oneDirWorld.isDir 0 ∨ AddsOneName "/d".toList header.toV2.filename) := by
  obtain ⟨⟨p, s⟩, hs, ho⟩ := opens_in_oneDir "x".toList (by decide) (by decide)
  exact ⟨p, s, hs, get_contained_iff oneDirHost plainInner intoDir oneDirWorld p s hs _ _ ho⟩

/-- **An absolute name leads anywhere.** -/
theorem get_not_contained : ¬ ∀ (H : Host) (inner : SessionCommandInner) (job : CopyJobSpec) (w : World)
    (p : Act H RequestResult) (s : Local H.sig), Steps (GetHandler.sendImpl inner job, Local.init w) (p, s) →
    ∀ path h, (path, h) ∈ opens s.done → Contained H w job.destination.filename path := by
  intro hall
  obtain ⟨⟨p, s⟩, hs, ho⟩ := opens_in_oneDir "/x".toList (by decide) (by decide)
  rcases hall oneDirHost plainInner intoDir oneDirWorld p s hs _ _ ho with ⟨hp, -⟩ | ⟨-, n, -, hn⟩
  · exact absurd hp (by decide)
  · have h := congrArg List.length hn
    rw [List.length_append, List.length_singleton] at h
    exact absurd h (by decide)

end Qcp
