import Qcp.Calm
import Qcp.Completion
import Qcp.Destination
import Qcp.Footprint
import Qcp.Preserve
/-!
# Unhindered — transfers that nothing stands in the way of

What was proved of requests so far is what is so once a side has come to its end.  Here it does: on hosts that fail at
nothing that can be done (`Host.Mild`), and with a stream that is whole, a file that is as long as it says and may be
opened where it is to go is there in the end (`transfer_unhindered`).  One rule for each function of the two sides says
that it gets to its end without having to wait, and the two are taken in the order in which they hear from one another;
that this is the only order that matters is `Meets.left` and `Meets.right`.
-/
namespace Qcp

open Bare (Bytes Text Codec)
open Posix (Path push)
open Proc (Task Turn Ledger Gets Does Meets Pair Rests Local)

/-! ## Hosts on which what can be done is done -/

/-- An operation did what it was asked for; a walk found what there is. -/
def Op.Succeeds (walk : Path → Bool → List DirEntry) : (op : Op) → op.Ret → Prop
  | .metadata _, r | .fileMetadata _, r => r.isOk = true
  | .openRead _, r | .openWrite _ _, r => r.isOk = true
  | .readAt _ _ _, r => r.isOk = true
  | .write _ _, r | .flushFile _, r | .setTimes _ _ _, r | .setFilePermissions _ _, r | .createDir _, r
  | .setPermissions _ _, r => r.isOk = true
  | .walkDir p recurse, r => r = .ok (walk p recurse)

/-- **What comes of an operation that fails only if it has to.** -/
structure Host.Mild (H : Host) (walk : Path → Bool → List DirEntry) (w : World) (op : Op) (r : op.Ret) (w' : World) :
    Prop where
  sem : H.sem w op r w'
  succeeds : ∀ r₀ w₀, H.sem w op r₀ w₀ → op.Succeeds walk r₀ → op.Succeeds walk r

def Host.conditions (H : Host) (walk : Path → Bool → List DirEntry) (rounds : Nat) : Proc.Conditions H.sig :=
  ⟨H.Mild walk, fun _ _ _ _ h => h.sem, rounds⟩

@[reducible] def Host.turn (H : Host) (walk : Path → Bool → List DirEntry) (rounds : Nat) (avail : Bytes)
    (idle : Bytes → Prop) : Turn H.sig := ⟨H.conditions walk rounds, avail, idle⟩

/-! ## Rules -/

section Rules

variable {H : Host} {walk : Path → Bool → List DirEntry} {rounds : Nat} {avail : Bytes} {idle : Bytes → Prop}
  {v : Ledger H.sig} {α : Type}

/-- **What can be done is done.** -/
theorem Does.asked {op : Op} {Q : op.Ret → Ledger H.sig → Prop} {a : op.Ret} {b : World} (hw : H.sem v.world op a b)
    (hr : op.Succeeds walk a) (h : ∀ r w, H.sem v.world op r w → op.Succeeds walk r → Q r (v.inWorld w)) :
    Does (H.turn walk rounds avail idle) Q (Act.call op) v :=
  Does.call ⟨a, b, hw, fun _ _ _ _ => hr⟩ fun r w hm => h r w hm.sem (hm.succeeds a b hw hr)

theorem Does.ofExcept {ε : Type} {wrap : ε → Err} {Q : α → Ledger H.sig → Prop} {t : Turn H.sig} {a : α} (h : Q a v) :
    Does t Q (Act.ofExcept wrap (.ok a) : Act H α) v := Does.pure h

theorem Does.flushed {Q : Unit → Ledger H.sig → Prop} {t : Turn H.sig} (h : Q () v) :
    Does t Q (Act.flush : Act H Unit) v := Does.then (Does.flush (Does.ofExcept h))

theorem Does.writer {F : Form α} {a : α} {Q : Unit → Ledger H.sig → Prop} {t : Turn H.sig} (hf : F.Fits a)
    (h : Q () (v.put (F.msg a).enc)) : Does t Q (toWriterFramed F a : Act H Unit) v := by
  unfold toWriterFramed
  rw [if_pos hf]
  exact Does.then (Does.send (Does.ofExcept h))

/-- **A message that is there is read.** -/
theorem Does.reader {F : Form α} {a : α} {Q : α → Ledger H.sig → Prop} {t : Turn H.sig} (hf : F.Fits a)
    (hb : F.ReadsBack a) (hp : v.taken ++ (F.msg a).enc <+: t.avail) (h : Q a (v.take (F.msg a).enc)) :
    Does t Q (fromReaderFramed F : Act H α) v := by
  rw [F.enc_msg, Frame.frame] at hp
  refine Does.then (Does.then (Does.read (Codec.encLe 4 (F.codec.enc a).length) (Codec.encLe_length _ _) ?_ ?_))
  · rw [← List.append_assoc] at hp
    exact (List.prefix_append _ _).trans hp
  · simp only [Proc.frameSize_encLe F.toWire hf]
    rw [if_neg (Nat.not_lt.2 hf)]
    refine Does.then (Does.read (F.codec.enc a) rfl (by rwa [← List.append_assoc] at hp) ?_)
    have hd : F.codec.decode (F.codec.enc a) = some a := hb
    simp only [hd]
    refine Does.pure (Does.then (Does.note (Does.pure ?_)))
    rw [F.enc_msg, Frame.frame] at h
    rwa [Ledger.take_take]

theorem Does.sendOk {Q : Unit → Ledger H.sig → Prop} {t : Turn H.sig}
    (h : Q () (v.put (Response.form.msg okResponse).enc)) :
    Does t Q (Qcp.sendOk : Act H Unit) v := Does.writer (a := okResponse) (by decide) h

theorem Does.intoResult {r : Response} {Q : Response → Ledger H.sig → Prop} {t : Turn H.sig}
    (hr : r.status = Status.ok.toRepr) (h : Q r v) : Does t Q (Qcp.intoResult r : Act H Response) v := by
  unfold Qcp.intoResult
  rw [if_pos hr]
  exact Does.pure h

theorem Does.ensure {c : Bool} {text : Text} {Q : Unit → Ledger H.sig → Prop} {t : Turn H.sig} (hc : c = true)
    (h : Q () v) : Does t Q (Qcp.ensure c text : Act H Unit) v := by
  unfold Qcp.ensure
  rw [if_pos hc]
  exact Does.pure h

theorem Does.protocolFilename {path : Path} {name : Text} {Q : Text → Ledger H.sig → Prop} {t : Turn H.sig}
    (hn : Posix.fileName path = some name) (h : Q name v) : Does t Q (Qcp.protocolFilename path : Act H Text) v := by
  unfold Qcp.protocolFilename
  rw [hn]
  exact Does.pure h

/-! ### Files -/

/-- **What is at a path is found out.** -/
theorem Does.stat {p : Path} {Q : Except IoError Metadata → Ledger H.sig → Prop}
    (h : ∀ r, r.toOption = (v.world (H.place p)).map Node.info → Q r v) :
    Does (H.turn walk rounds avail idle) Q (Fs.metadata p) v := by
  cases hn : v.world (H.place p) with
  | some n =>
    rw [hn] at h
    refine Does.asked (a := .ok n.info) ⟨rfl, fun m hm => by cases hm; exact ⟨n, hn, rfl⟩⟩ rfl fun r w hw hr => ?_
    cases r with
    | error e => cases hr
    | ok m =>
      obtain ⟨rfl, hm⟩ := hw
      obtain ⟨n', hn', rfl⟩ := hm m rfl
      cases hn.symm.trans hn'
      exact h _ rfl
  | none =>
    rw [hn] at h
    have hno : ∀ r w, H.sem v.world (.metadata p) r w → ∃ e, r = .error e ∧ w = v.world := fun r w hw => by
      cases r with
      | error e => exact ⟨e, rfl, hw.1⟩
      | ok m =>
        obtain ⟨n, hn', -⟩ := hw.2 m rfl
        cases hn.symm.trans hn'
    refine Does.call ⟨.error ⟨.notFound, []⟩, v.world, ⟨rfl, nofun⟩, fun r₀ w₀ hw hr => ?_⟩ fun r w hm => ?_
    · obtain ⟨e, rfl, -⟩ := hno r₀ w₀ hw
      cases hr
    · obtain ⟨e, rfl, rfl⟩ := hno r w hm.sem
      exact h _ rfl

theorem Does.openWithMeta {path : Path} {n : Node} {Q : Except IoError (Place × Metadata) → Ledger H.sig → Prop}
    (hn : v.world (H.place path) = some n) (hf : n.info.isFile = true) (h : Q (.ok (H.place path, n.info)) v) :
    Does (H.turn walk rounds avail idle) Q (Qcp.openWithMeta path) v := by
  refine Does.then (Does.asked (a := .ok (H.place path)) ⟨rfl, fun h hh => by cases hh; exact ⟨rfl, n, hn⟩⟩ rfl
    fun r w hw hr => ?_)
  cases r with
  | error e => cases hr
  | ok fh =>
    obtain ⟨rfl, hfh⟩ := hw
    obtain ⟨rfl, -⟩ := hfh fh rfl
    refine Does.then (Does.asked (a := .ok n.info) ⟨rfl, fun m hm => by cases hm; exact ⟨n, hn, rfl⟩⟩ rfl
      fun r w hw hr => ?_)
    cases r with
    | error e => cases hr
    | ok m =>
      obtain ⟨rfl, hm⟩ := hw
      obtain ⟨n', hn', rfl⟩ := hm m rfl
      cases hn.symm.trans hn'
      simp only [hf]
      exact Does.pure h

theorem Does.flushFile {place : Place} {Q : Except IoError Unit → Ledger H.sig → Prop} (h : Q (.ok ()) v) :
    Does (H.turn walk rounds avail idle) Q (TokioFile.flush place) v := by
  refine Does.asked (a := .ok ()) rfl rfl fun r w hw hr => ?_
  cases r with
  | error e => cases hr
  | ok _ =>
    cases hw
    exact h

/-- **A file is sent whole.** -/
theorem Does.copyOut {place : Place} {n : Node} {cap : Nat} {Q : Except IoError Nat → Ledger H.sig → Prop}
    (hn : v.world place = some n) (hc : 0 < cap) (hr : n.content.length < rounds)
    (h : Q (.ok n.content.length) (v.put n.content)) :
    Does (H.turn walk rounds avail idle) Q (Qcp.copyOut place cap) v := by
  refine Does.loop (fun left amt v' => amt + left = n.content.length ∧ v' = v.put (n.content.take amt)) ?_ hr
    ⟨Nat.zero_add _, by simp [Ledger.put]⟩
  rintro left amt v' ⟨hamt, rfl⟩
  have hcontent : v.world.content place = n.content := World.content_of hn
  refine Does.then (Does.asked (a := .ok ((n.content.drop amt).take cap)) ⟨rfl, fun bs hbs => ?_⟩ rfl
    fun r w hw hr => ?_)
  · cases hbs
    show _ <+: (v.world.content place).drop amt ∧ _ ∧ (_ → _ ∨ (v.world.content place).length ≤ amt)
    rw [hcontent]
    refine ⟨List.take_prefix _ _, List.length_take_le _ _, fun he => Or.inr ?_⟩
    have := congrArg List.length he
    simp at this
    omega
  · cases r with
    | error e => cases hr
    | ok bs =>
      obtain ⟨rfl, hbs⟩ := hw
      obtain ⟨hp, hl, he⟩ := hbs bs rfl
      have hp : bs <+: (v.world.content place).drop amt := hp
      rw [hcontent] at hp
      simp only
      split
      · rename_i h0
        have hend : n.content.length ≤ amt := by
          have he : cap = 0 ∨ (v.world.content place).length ≤ amt := he h0
          rw [hcontent] at he
          omega
        obtain rfl : amt = n.content.length := by omega
        rw [List.take_length]
        exact Does.then (Does.flush (Does.pure h))
      · rename_i h0
        have hpos := List.length_pos_iff.2 h0
        have hle := hp.length_le
        rw [List.length_drop] at hle
        refine Does.then (Does.send (Does.pure ⟨left - bs.length, by omega, by omega, ?_⟩))
        show (v.put (n.content.take amt)).put bs = v.put (n.content.take (amt + bs.length))
        rw [List.take_add, ← List.prefix_iff_eq_take.1 hp, Ledger.put_put]

/-- **So much of what there is is written to a file.** -/
theorem Does.copyIn {place : Place} {n : Node} {cap limit : Nat} {data : Bytes}
    {Q : Except IoError Nat → Ledger H.sig → Prop}
    (hn : v.world place = some n) (hc : 0 < cap) (hl : data.length = limit) (hr : limit < rounds) (hi : idle v.out)
    (hp : v.taken ++ data <+: avail)
    (h : ∀ n', Host.Wrote n data n' → Q (.ok limit) ((v.take data).inWorld (v.world.put place n'))) :
    Does (H.turn walk rounds avail idle) Q (Qcp.copyIn limit place cap) v := by
  refine Does.loop (fun left amt v' => amt + left = limit ∧
    ∃ n', Host.Wrote n (data.take amt) n' ∧ v' = (v.take (data.take amt)).inWorld (v.world.put place n')) ?_ hr
    ⟨Nat.zero_add _, n, Host.Wrote.refl n, by simp [Ledger.take, Ledger.inWorld, World.put_self _ _ _ hn]⟩
  rintro left amt v' ⟨hamt, n', hwrote, rfl⟩
  beta_reduce
  by_cases hend : limit ≤ amt
  · -- all of it is there
    rw [if_pos hend]
    obtain rfl : amt = limit := by omega
    refine Does.then (Does.pure ?_)
    simp only [if_true]
    rw [List.take_of_length_le (Nat.le_of_eq hl)] at hwrote ⊢
    exact Does.then (Does.flushFile (Does.pure (h n' hwrote)))
  · rw [if_neg hend]
    have hrest : data.drop amt ≠ [] := by
      intro he
      have := congrArg List.length he
      rw [List.length_drop, List.length_nil] at this
      omega
    have hsplit : v.taken ++ data.take amt ++ data.drop amt <+: avail := by
      rwa [List.append_assoc, List.take_append_drop]
    refine Does.then (Does.fill hi (by omega) hrest hsplit fun bs hbs hlen hpre => ?_)
    have hle : bs.length ≤ (data.drop amt).length := by rw [List.length_drop]; omega
    have hpre' : bs <+: data.drop amt :=
      (List.prefix_append_right_inj _).1 (List.prefix_of_prefix_length_le hpre hsplit (by
        rw [List.length_append, List.length_append]
        exact Nat.add_le_add_left hle _))
    simp only [if_neg hbs]
    refine Does.then (Does.asked (a := .ok ()) ⟨n', ⟨n'.info, n'.content ++ bs⟩, by simp, rfl, rfl, rfl,
      .refl _⟩ rfl fun r w hw hr => ?_)
    cases r with
    | error e => cases hr
    | ok _ =>
      obtain ⟨n₀, n'', hn₀, rfl, hmore⟩ := hw
      obtain rfl : n' = n₀ := by simpa using hn₀
      have hpos := List.length_pos_iff.2 hbs
      rw [List.length_drop] at hle
      refine Does.pure ⟨left - bs.length, by omega, by omega, n'', ?_, ?_⟩
      · rw [List.take_add, ← List.prefix_iff_eq_take.1 hpre']
        exact hwrote.trans hmore
      · rw [List.take_add, ← List.prefix_iff_eq_take.1 hpre']
        simp

/-- A trailer asks for nothing that cannot be done. -/
theorem FileTrailer.collect_forFile (compat : Compatibility) (info : Metadata) (preserve : Bool) :
    ∃ c, Changes.collect (FileTrailer.forFile compat info preserve).toV2.metadata = some c := by
  unfold FileTrailer.forFile
  split
  · cases preserve with
    | true => exact ⟨_, Changes.collect_toTaggedData info⟩
    | false => exact ⟨_, rfl⟩
  · exact ⟨_, rfl⟩

/-- **A file is given its metadata.** -/
theorem Does.updateMetadata {place : Place} {n : Node} {metadata : List TaggedData} {c : Changes}
    {Q : Unit → Ledger H.sig → Prop} (hn : v.world place = some n) (hc : Changes.collect metadata = some c)
    (h : ∀ n', n'.content = n.content → Q () (v.inWorld (v.world.put place n'))) :
    Does (H.turn walk rounds avail idle) Q (Qcp.updateMetadata place metadata : Act H Unit) v := by
  refine Does.then (Does.asked (a := .ok n.info) ⟨rfl, fun m hm => by cases hm; exact ⟨n, hn, rfl⟩⟩ rfl
    fun r w hw hr => ?_)
  cases r with
  | error e => cases hr
  | ok m =>
    obtain ⟨rfl, -⟩ := hw
    refine Does.then (Does.ofExcept ?_)
    simp only [hc]
    split
    · refine Does.then (Does.asked (a := .ok ()) ⟨n, hn, rfl⟩ rfl fun r w hw hr => ?_)
      cases r with
      | error e => cases hr
      | ok _ =>
        obtain ⟨n', hn', rfl⟩ := hw
        cases hn.symm.trans hn'
        refine Does.then (Does.ofExcept ?_)
        split
        · exact Does.pure (h _ rfl)
        · refine Does.then (Does.asked (a := .ok ()) ⟨_, World.put_same .., rfl⟩ rfl fun r w hw hr => ?_)
          cases r with
          | error e => cases hr
          | ok _ =>
            obtain ⟨n'', hn'', rfl⟩ := hw
            cases (World.put_same ..).symm.trans hn''
            refine Does.ofExcept ?_
            simp only [Ledger.inWorld_inWorld, Ledger.inWorld_world, World.put_put]
            exact h _ rfl
    · have := h n rfl
      rw [World.put_self _ _ _ hn] at this
      exact Does.pure this

end Rules

/-! ### Destinations -/

/-- A file system of which all is seen. -/
def Sight.SeesAll {H : Host} (fs : Sight H) : Prop :=
  ∀ p, (fs.stat p).toOption = (fs.world (H.place p)).map Node.info

theorem Sight.seesAll_ofWorld (H : Host) (w : World) (hempty : w (H.place []) = none)
    (hhere : w.isDir (H.place Posix.dot)) :
    (Sight.ofWorld H w hempty hhere).SeesAll := by
  intro p
  simp only [Sight.ofWorld]
  cases w (H.place p) <;> rfl

section Destinations

variable {H : Host} {walk : Path → Bool → List DirEntry} {rounds : Nat} {avail : Bytes} {idle : Bytes → Prop}
  {fs : Sight H} {v : Ledger H.sig}

/-- What is found out is what is seen, but for what an error says. -/
theorem Does.seen (hall : fs.SeesAll) (hv : v.world = fs.world) {p : Path}
    {Q : Except IoError Metadata → Ledger H.sig → Prop} (hok : ∀ m, fs.stat p = .ok m → Q (.ok m) v)
    (herr : ∀ e e', fs.stat p = .error e → Q (.error e') v) :
    Does (H.turn walk rounds avail idle) Q (Fs.metadata p) v := by
  refine Does.stat fun r hr => ?_
  rw [hv, ← hall p] at hr
  cases hs : fs.stat p with
  | ok m =>
    rw [hs] at hr
    cases r with
    | ok m' => cases hr; exact hok m hs
    | error e => cases hr
  | error e =>
    rw [hs] at hr
    cases r with
    | ok m' => cases hr
    | error e' => exact herr e e' hs

theorem Does.isDir (hall : fs.SeesAll) (hv : v.world = fs.world) {p : Path} {Q : Bool → Ledger H.sig → Prop}
    (h : Q (fs.isDir p) v) : Does (H.turn walk rounds avail idle) Q (Fs.isDir p) v := by
  unfold Sight.isDir at h
  refine Does.then (Does.seen hall hv (fun m hs => ?_) fun e e' hs => ?_)
  · rw [hs] at h
    exact Does.pure h
  · rw [hs] at h
    exact Does.pure h

theorem Does.isFile (hall : fs.SeesAll) (hv : v.world = fs.world) {p : Path} {Q : Bool → Ledger H.sig → Prop}
    (h : Q (fs.isFile p) v) : Does (H.turn walk rounds avail idle) Q (Fs.isFile p) v := by
  unfold Sight.isFile at h
  refine Does.then (Does.seen hall hv (fun m hs => ?_) fun e e' hs => ?_)
  · rw [hs] at h
    exact Does.pure h
  · rw [hs] at h
    exact Does.pure h

/-- **What the handler makes of a destination.** -/
theorem Does.appends (hall : fs.SeesAll) (hv : v.world = fs.world) {dest : Path} {Q : Option Bool → Ledger H.sig → Prop}
    (h : Q (fs.appends dest) v) : Does (H.turn walk rounds avail idle) Q (PutHandler.appendFilename dest) v := by
  unfold PutHandler.appendFilename
  unfold Sight.appends at h
  split
  · rename_i hd
    rw [if_pos hd] at h
    exact Does.pure h
  · rename_i hd
    rw [if_neg hd] at h
    refine Does.then (Does.isDir hall hv ?_)
    cases hdir : fs.isDir dest with
    | true =>
      simp only [hdir, Bool.true_or, if_true] at h
      exact Does.then (Does.pure (Does.then (Does.isDir hall hv (by rw [hdir]; exact Does.pure h))))
    | false =>
      refine Does.then (Does.isFile hall hv ?_)
      cases hfile : fs.isFile dest with
      | true =>
        simp only [hdir, hfile, Bool.or_true, if_true] at h
        exact Does.then (Does.isDir hall hv (by rw [hdir]; exact Does.pure h))
      | false =>
        simp only [hdir, hfile, Bool.or_self, Bool.false_eq_true, if_false] at h ⊢
        split
        · rename_i hs
          rw [if_pos hs] at h
          exact Does.pure h
        · rename_i hs
          rw [if_neg hs] at h
          refine Does.then (Does.isDir hall hv ?_)
          show Does _ Q (if fs.isDir (parentDir dest) = true then _ else _) v
          cases hp : fs.isDir (parentDir dest) with
          | true => rw [hp] at h; exact Does.pure h
          | false => rw [hp] at h; exact Does.pure h

/-- **A file that may be opened for writing is.** -/
theorem Does.opening (hall : fs.SeesAll) (hv : v.world = fs.world) {path p : Path} {header : FileHeaderV2}
    {Q : Except IoError Place → Ledger H.sig → Prop} (hp : fs.opening path header.filename = some p)
    (hd : ¬ fs.world.isDir (H.place p))
    (h : ∀ n, n.content = [] → Q (.ok (H.place p)) (v.inWorld (v.world.put (H.place p) n))) :
    Does (H.turn walk rounds avail idle) Q (Qcp.createOrTruncate path header) v := by
  have opened : Does (H.turn walk rounds avail idle) Q (TokioFile.openWrite p (appliedMode H header.metadata)) v := by
    obtain ⟨n, hn⟩ := Host.Opened.exists_of_not_isDir (H := H) (appliedMode H header.metadata) hd
    rw [← hv] at hn
    refine Does.asked (a := .ok (H.place p)) ⟨rfl, n, hn, rfl⟩ rfl fun r w hw hr => ?_
    cases r with
    | error e => cases hr
    | ok fh =>
      obtain ⟨rfl, n', ho, rfl⟩ := hw
      exact h n' ho.content
  rw [fs.opening_eq] at hp
  refine Does.then (Does.seen hall hv (fun m hs => ?_) fun e e' hs => ?_)
  · rw [hs] at hp
    simp only at hp ⊢
    split
    · rename_i hdir
      rw [if_pos hdir] at hp
      cases hp
      exact opened
    · rename_i hdir
      rw [if_neg hdir] at hp
      split
      · rename_i hfile
        rw [if_pos hfile] at hp
        cases hp
        exact opened
      · rename_i hfile
        rw [if_neg hfile] at hp
        cases hp
  · rw [hs] at hp
    cases hp
    exact opened

end Destinations

/-! ## Requests -/

section Requests

variable {G H : Host} {inner inner' : SessionCommandInner} {job : CopyJobSpec} {walk : Path → Bool → List DirEntry}
  {rounds : Nat} {gs : Sight G} {fs : Sight H} {u w : World} {n : Node} {name : Text} {path : Path}

theorem Does.progressBarFor {H : Host} {t : Turn H.sig} {v : Ledger H.sig} {steps : Nat}
    {Q : Unit → Ledger H.sig → Prop} (hs : inner.overflowChecks = true → steps < 2 ^ 64) (h : Q () v) :
    Does t Q (Qcp.progressBarFor inner steps : Act H Unit) v := by
  unfold Qcp.progressBarFor
  rw [if_neg]
  · exact Does.pure h
  · simp only [Bool.and_eq_true, decide_eq_true_eq, not_and, Nat.not_le]
    exact hs

theorem Metadata.isDir_of_isFile {m : Metadata} (h : m.isFile = true) : m.isDir = false := by
  unfold Metadata.isFile at h
  unfold Metadata.isDir
  simp only [decide_eq_true_eq, decide_eq_false_iff_not] at h ⊢
  rw [h]
  exact nofun

/-- A file that is as long as it says, and has a name. -/
structure Source (n : Node) (file : Path) (name : Text) : Prop where
  isFile : n.info.isFile = true
  whole : n.content.length = n.info.len.toNat
  named : Posix.fileName file = some name

/-- **The file is at its destination**, and nothing else is another than it was. -/
def Way.Brought (u w : World) (n : Node) (q : Place) (u' w' : World) : Way → Prop
  | get => (∃ info, u' = u.put q ⟨info, n.content⟩) ∧ w' = w
  | put => u' = u ∧ ∃ info, w' = w.put q ⟨info, n.content⟩

/-- Both sides are done, and so is what they were to do. -/
structure Done (way : Way) (u w : World) (n : Node) (q : Place) (r : Except Err RequestResult) (s : Local G.sig)
    (r' : Except Err Unit) (t : Local H.sig) : Prop where
  client : ∃ a, r = .ok a
  server : r' = .ok ()
  brought : way.Brought u w n q s.world t.world

/-! ### GET -/

/-- A buffer that something can be copied with, and of a size that can be asked for. -/
def Roomy (bufferSize : UInt64) : Prop := 0 < bufferSize.toNat ∧ bufferSize.toNat < 2 ^ 63

instance (bufferSize : UInt64) : Decidable (Roomy bufferSize) := inferInstanceAs (Decidable (_ ∧ _))

/-- **A GET that nothing stands in the way of.** -/
structure GetReady (H : Host) (inner inner' : SessionCommandInner) (job : CopyJobSpec) (gs : Sight G) (w : World)
    (n : Node) (name : Text) (path : Path) : Prop where
  there : w (H.place job.source.filename) = some n
  source : Source n job.source.filename name
  opened : gs.opening job.destination.filename name = some path
  noDir : ¬ gs.world.isDir (G.place path)
  command : Command.form.Fits (GetHandler.command inner job)
  header : FileHeader.form.Fits (.forFile inner'.compat n.info name)
  trailer : FileTrailer.form.Fits (Way.trailer inner inner' job n .get)
  bar : inner.overflowChecks = true → n.info.len.toNat + 17 < 2 ^ 64
  buffer : Roomy inner.config.ioBufferSize
  buffer' : Roomy inner'.config.ioBufferSize

theorem GetHandler.commandHandler_command (inner inner' : SessionCommandInner) (job : CopyJobSpec) :
    ∃ options, (commandHandler inner' (GetHandler.command inner job) : Act H Unit) =
        GetHandler.handleImpl inner' ⟨job.source.filename, options⟩ ∧
      (findOption options .preserveMetadata).isSome = (inner.compat.supports .get2Put2 && job.preserve) := by
  unfold GetHandler.command
  cases inner.compat.supports .get2Put2 with
  | false => exact ⟨_, rfl, rfl⟩
  | true => cases job.preserve <;> exact ⟨_, rfl, rfl⟩

theorem get_meets (hall : gs.SeesAll) (h : GetReady H inner inner' job gs w n name path)
    (hr : n.content.length < rounds) :
    Meets (G.conditions walk rounds) (H.conditions walk rounds) (Done .get gs.world w n (G.place path))
      ((GetHandler.sendImpl inner job, Local.init gs.world), (handleStream inner', Local.init w)) := by
  have hs := Local.At.init (S := G.sig) gs.world
  have ht := Local.At.init (S := H.sig) w
  unfold GetHandler.sendImpl handleStream
  refine Meets.left hs (Does.writer h.command fun s hs => ?_)
  refine Meets.left hs (Does.flushed fun s hs => ?_)
  -- the server says all that it has to say
  refine Meets.right ht (Does.attempt
    (Does.reader h.command (Command.readsBack_of_fits _ (GetHandler.plain_command inner job)
    h.command) ?_ fun t ht => ?_))
  · rw [hs.out]
    simp
  obtain ⟨options, hcmd, hpreserve⟩ := GetHandler.commandHandler_command (H := H) inner inner' job
  simp only [hcmd]
  unfold GetHandler.handleImpl
  refine Meets.right ht (Does.openWithMeta h.there h.source.isFile fun t ht => ?_)
  simp only [Metadata.isDir_of_isFile h.source.isFile]
  rw [if_neg Bool.false_ne_true]
  refine Meets.right ht (Does.sendOk fun t ht => ?_)
  refine Meets.right ht (Does.protocolFilename h.source.named fun t ht => ?_)
  refine Meets.right ht (Does.writer h.header fun t ht => ?_)
  refine Meets.right ht (Does.copyOut (by simpa using h.there) h.buffer'.1 hr fun t ht => ?_)
  simp only
  refine Meets.right ht (Does.ensure (by simp [h.source.whole]) fun t ht => ?_)
  rw [hpreserve]
  refine Meets.right ht (Does.writer h.trailer fun t ht => ?_)
  refine Meets.rightLast ht (Does.flushed fun t ht => ?_)
  -- and the client takes it
  refine Meets.left hs (Does.reader (a := okResponse) (by decide) (Response.readsBack_of_fits okResponse (by decide)) ?_
    fun s hs => ?_)
  · rw [ht.out]
    simp
  refine Meets.left hs (Does.intoResult rfl fun s hs => ?_)
  refine Meets.left hs (Does.reader h.header
    (FileHeader.readsBack_of_fits _ (FileHeader.forFile_plain _ _ _) h.header) ?_
    fun s hs => ?_)
  · rw [ht.out]
    simp
  refine Meets.left hs (Does.opening hall rfl (by rw [FileHeader.forFile_filename]; exact h.opened) h.noDir
    fun n₁ hn₁ s hs => ?_)
  refine Meets.left hs (Does.ofExcept fun s hs => ?_)
  rw [FileHeader.forFile_size]
  refine Meets.left hs (Does.progressBarFor h.bar fun s hs => ?_)
  refine Meets.left hs (Does.copyIn (World.put_same ..) h.buffer.1 h.source.whole (h.source.whole ▸ hr)
    (Rests.ret _ _) ?_ fun n₂ hn₂ s hs => ?_)
  · rw [ht.out]
    simp
  refine Meets.left hs (Does.ofExcept fun s hs => ?_)
  refine Meets.left hs (Does.reader h.trailer
    (FileTrailer.readsBack_of_fits _ (FileTrailer.forFile_plain _ _ _) h.trailer)
    ?_ fun s hs => ?_)
  · rw [ht.out]
    simp [Way.trailer]
  refine Meets.left hs (Does.flushFile fun s hs => ?_)
  refine Meets.left hs (Does.ofExcept fun s hs => ?_)
  obtain ⟨c, hc⟩ := FileTrailer.collect_forFile inner'.compat n.info (inner.compat.supports .get2Put2 && job.preserve)
  refine Meets.left hs (Does.updateMetadata (World.put_same ..) hc fun n₃ hn₃ s hs => ?_)
  have hcontent : n₃.content = n.content := by rw [hn₃, hn₂.1, hn₁, List.nil_append]
  exact .ends _ _ _ _ ⟨⟨_, rfl⟩, rfl, ⟨n₃.info, by rw [hs.world, ← hcontent]; simp⟩, by rw [ht.world]; simp⟩

/-! ### PUT -/

/-- **A PUT that nothing stands in the way of.** -/
structure PutReady (G : Host) (inner inner' : SessionCommandInner) (job : CopyJobSpec) (u : World) (fs : Sight H)
    (n : Node) (name : Text) (path : Path) : Prop where
  there : u (G.place job.source.filename) = some n
  source : Source n job.source.filename name
  written : fs.written job.destination.filename name = some path
  noDir : ¬ fs.world.isDir (H.place path)
  command : Command.form.Fits (PutHandler.command inner job)
  header : FileHeader.form.Fits (.forFile inner.compat n.info name)
  trailer : FileTrailer.form.Fits (Way.trailer inner inner' job n .put)
  bar : inner.overflowChecks = true →
    n.info.len.toNat + 48 + 36 + 16 + 2 * (Codec.encText job.destination.filename).length < 2 ^ 64
  buffer : Roomy inner.config.ioBufferSize
  buffer' : Roomy inner'.config.ioBufferSize

theorem PutHandler.commandHandler_command (inner inner' : SessionCommandInner) (job : CopyJobSpec) :
    ∃ options, (commandHandler inner' (PutHandler.command inner job) : Act H Unit) =
      PutHandler.handleImpl inner' ⟨job.destination.filename, options⟩ := by
  unfold PutHandler.command
  split
  · exact ⟨_, rfl⟩
  · exact ⟨_, rfl⟩

theorem put_meets (hall : fs.SeesAll) (h : PutReady G inner inner' job u fs n name path)
    (hr : n.content.length < rounds) :
    Meets (G.conditions walk rounds) (H.conditions walk rounds) (Done .put u fs.world n (H.place path))
      ((PutHandler.sendImpl inner job, Local.init u), (handleStream inner', Local.init fs.world)) := by
  have hs := Local.At.init (S := G.sig) u
  have ht := Local.At.init (S := H.sig) fs.world
  unfold PutHandler.sendImpl handleStream
  refine Meets.left hs (Does.openWithMeta h.there h.source.isFile fun s hs => ?_)
  refine Meets.left hs (Does.ofExcept fun s hs => ?_)
  simp only [Metadata.isDir_of_isFile h.source.isFile]
  rw [if_neg Bool.false_ne_true]
  refine Meets.left hs (Does.progressBarFor h.bar fun s hs => ?_)
  refine Meets.left hs (Does.writer h.command fun s hs => ?_)
  refine Meets.left hs (Does.flushed fun s hs => ?_)
  refine Meets.left hs (Does.protocolFilename h.source.named fun s hs => ?_)
  refine Meets.left hs (Does.writer h.header fun s hs => ?_)
  -- the server opens the destination
  refine Meets.right ht (Does.attempt
    (Does.reader h.command (Command.readsBack_of_fits _ (PutHandler.plain_command inner job)
    h.command) ?_ fun t ht => ?_))
  · rw [hs.out]
    simp
  obtain ⟨options, hcmd⟩ := PutHandler.commandHandler_command (H := H) inner inner' job
  simp only [hcmd]
  unfold PutHandler.handleImpl
  refine Meets.right ht (Does.appends hall rfl ?_)
  obtain ⟨append, happend, hopening⟩ := Option.bind_eq_some_iff.1 h.written
  rw [happend]
  intro t ht
  simp only
  refine Meets.right ht (Does.reader h.header (FileHeader.readsBack_of_fits _ (FileHeader.forFile_plain _ _ _) h.header)
    ?_ fun t ht => ?_)
  · rw [hs.out]
    simp
  rw [FileHeader.forFile_filename]
  refine Meets.right ht (Does.opening hall rfl (by rwa [FileHeader.forFile_filename]) h.noDir
    fun n₁ hn₁ t ht => ?_)
  simp only
  refine Meets.right ht (Does.sendOk fun t ht => ?_)
  refine Meets.right ht (Does.flushed fun t ht => ?_)
  -- the client has its consent
  refine Meets.left hs (Does.reader (a := okResponse) (by decide) (Response.readsBack_of_fits okResponse (by decide)) ?_
    fun s hs => ?_)
  · rw [ht.out]
    simp
  refine Meets.left hs (Does.intoResult rfl fun s hs => ?_)
  refine Meets.left hs (Does.copyOut (by simpa using h.there) h.buffer.1 hr fun s hs => ?_)
  simp only
  refine Meets.left hs (Does.ensure (by simp [h.source.whole]) fun s hs => ?_)
  refine Meets.left hs (Does.writer h.trailer fun s hs => ?_)
  refine Meets.left hs (Does.flushed fun s hs => ?_)
  -- it waits, and the server takes what it has sent
  rw [FileHeader.forFile_size]
  refine Meets.right ht (Does.copyIn (World.put_same ..) h.buffer'.1 h.source.whole (h.source.whole ▸ hr) ?_ ?_
    fun n₂ hn₂ t ht => ?_)
  · refine Rests.read ?_
    rw [hs.taken]
    simp
  · rw [hs.out]
    simp
  simp only
  refine Meets.right ht (Does.reader h.trailer
    (FileTrailer.readsBack_of_fits _ (FileTrailer.forFile_plain _ _ _) h.trailer)
    ?_ fun t ht => ?_)
  · rw [hs.out]
    simp [Way.trailer]
  refine Meets.right ht (Does.flushFile fun t ht => ?_)
  refine Meets.right ht (Does.ofExcept fun t ht => ?_)
  obtain ⟨c, hc⟩ := FileTrailer.collect_forFile inner.compat n.info job.preserve
  refine Meets.right ht (Does.updateMetadata (World.put_same ..) hc fun n₃ hn₃ t ht => ?_)
  refine Meets.right ht (Does.sendOk fun t ht => ?_)
  refine Meets.rightLast ht (Does.flushed fun t ht => ?_)
  -- the client hears that all is done
  refine Meets.left hs (Does.reader (a := okResponse) (by decide) (Response.readsBack_of_fits okResponse (by decide)) ?_
    fun s hs => ?_)
  · rw [ht.out]
    simp
  refine Meets.left hs (Does.ensure (by decide) fun s hs => ?_)
  have hcontent : n₃.content = n.content := by rw [hn₃, hn₂.1, hn₁, List.nil_append]
  exact .ends _ _ _ _ ⟨⟨_, rfl⟩, rfl, by rw [hs.world]; simp, n₃.info, by rw [ht.world, ← hcontent]; simp⟩

/-! ### Both ways -/

/-- **A transfer that nothing stands in the way of**, of this file to that place. -/
def Way.Ready (G H : Host) (inner inner' : SessionCommandInner) (job : CopyJobSpec) (u w : World) (n : Node)
    (q : Place) :
    Way → Prop
  | get => ∃ (gs : Sight G) (name : Text) (path : Path), gs.SeesAll ∧ gs.world = u ∧ G.place path = q ∧
      GetReady H inner inner' job gs w n name path
  | put => ∃ (fs : Sight H) (name : Text) (path : Path), fs.SeesAll ∧ fs.world = w ∧ H.place path = q ∧
      PutReady G inner inner' job u fs n name path

end Requests

/-- **A transfer that can be made is made**: whichever side takes the next step, both come to an end, with success;
the file is at its destination then, and nothing else is another than it was. -/
theorem transfer_unhindered (G H : Host) (inner inner' : SessionCommandInner) (job : CopyJobSpec) (way : Way)
    (walk : Path → Bool → List DirEntry) (rounds : Nat) (u w : World) (n : Node) (q : Place)
    (h : way.Ready G H inner inner' job u w n q) (hr : n.content.length < rounds) :
    Meets (G.conditions walk rounds) (H.conditions walk rounds) (Done way u w n q)
      ((way.sendImpl inner job, Local.init u), (handleStream inner', Local.init w)) := by
  cases way with
  | get =>
    obtain ⟨gs, name, path, hall, rfl, rfl, h⟩ := h
    exact get_meets hall h hr
  | put =>
    obtain ⟨fs, name, path, hall, rfl, rfl, h⟩ := h
    exact put_meets hall h hr

theorem transfer_unhindered_dated :
    Meets (nestedHost.conditions (fun _ _ => []) 2) (maskedHost.conditions (fun _ _ => []) 2)
    (Done .get nestedWorld (dated [7]) ⟨datedInfo 1, [7]⟩ 2)
    ((Way.get.sendImpl (atLevel2 1048576) preserving, Local.init nestedWorld),
      (handleStream (atLevel2 1048576), Local.init (dated [7]))) :=
  transfer_unhindered nestedHost maskedHost (atLevel2 1048576) (atLevel2 1048576) preserving .get _ 2 nestedWorld
    (dated [7]) ⟨datedInfo 1, [7]⟩ 2 ⟨nestedSight, "f".toList, "f".toList, Sight.seesAll_ofWorld _ _ _ _, rfl, rfl,
      { there := rfl
        source := ⟨rfl, rfl, rfl⟩
        opened := rfl
        noDir := by
          rintro ⟨n, hn, -⟩
          cases hn
        command := by decide
        header := by decide
        trailer := by decide
        bar := by decide
        buffer := by decide
        buffer' := by decide }⟩ (by decide)

end Qcp
