import Qcp.Frame
/-!
# Runs — runs put together from pieces

`Gives p s a s'` says that some run of the task `p` from `s` ends in `s'` with `a`.  Such runs follow one another
(`Gives.steps`), and runs of two sides interleave as long as neither reads what the other has yet to write
(`Reach.left`, `Reach.right`).  `Comes W p s r s'` says so of the runs of `Runs W`, and of failures too.
-/
namespace Proc

open Bare (Bytes)

section Gives

variable {S : Sig} {E A B : Type}

theorem Step.bind {p p' : Prog S A} {s s' : Local S} (f : A → Prog S B) (h : Step (p, s) (p', s')) :
    Step (p.bind f, s) (p'.bind f, s') := by
  cases h with
  | sent m k s hl => exact .sent m _ s hl
  | cut m k s e front hp hl hs => exact .cut m _ s e front hp hl hs
  | flush k s r => exact .flush _ s r
  | read n k s bs hr hl => exact .read n _ s bs hr hl
  | short n k s e bs hl hs => exact .short n _ s e bs hl hs
  | fill c k s bs hr hn hl => exact .fill c _ s bs hr hn hl
  | atEnd c k s => exact .atEnd c _ s
  | noRoom k s => exact .noRoom _ s
  | fillError c k s e => exact .fillError c _ s e
  | note m k s => exact .note m _ s
  | call op k s r w hw => exact .call op _ s r w hw
  | rounds k s n => exact .rounds _ s n

theorem Steps.bind {c c' : Config S A} (f : A → Prog S B) (h : Steps c c') :
    Steps (c.1.bind f, c.2) (c'.1.bind f, c'.2) := by
  induction h with
  | refl => exact .refl
  | tail _ hs ih => exact ih.tail (hs.bind f)

/-- **Some run ends so.** -/
def Gives (p : Task S E A) (s : Local S) (a : A) (s' : Local S) : Prop := Steps (p, s) (Prog.ret (.ok a), s')

theorem Gives.pure (a : A) (s : Local S) : Gives (pure a : Task S E A) s a s := .refl

/-- **What a run gives, the next task starts from.** -/
theorem Gives.steps {p : Task S E A} {f : A → Task S E B} {s s' : Local S} {a : A} {c : Config S (Except E B)}
    (h : Gives p s a s') (g : Steps (f a, s') c) : Steps ((p >>= f : Task S E B), s) c := by
  have hb : Steps ((p >>= f : Task S E B), s) (f a, s') := Steps.bind _ h
  exact hb.trans g

theorem Gives.then {p : Task S E A} {f : A → Task S E B} {s s' s'' : Local S} {a : A} {b : B} (h : Gives p s a s')
    (g : Gives (f a) s' b s'') : Gives (p >>= f : Task S E B) s b s'' := h.steps g

/-- **Some run gets to where this holds.** -/
def Reaches (P : Config S A → Prop) (c : Config S A) : Prop := ∃ c', Steps c c' ∧ P c'

theorem Reaches.now {P : Config S A → Prop} {c : Config S A} (h : P c) : Reaches P c := ⟨c, .refl, h⟩

theorem Gives.reaches {P : Config S (Except E B) → Prop} {p : Task S E A} {f : A → Task S E B} {s s' : Local S} {a : A}
    (h : Gives p s a s') (g : Reaches P (f a, s')) : Reaches P ((p >>= f : Task S E B), s) := by
  obtain ⟨c, hc, hP⟩ := g
  exact ⟨c, h.steps hc, hP⟩

theorem Gives.send {m : S.Msg} {s : Local S} (h : s.sendLost = false) :
    Gives (Task.send m : Task S E (Except S.Fault Unit)) s (.ok ()) (s.push (.sent m)) := .single (.sent m _ s h)

theorem Gives.flush (r : Except S.Fault Unit) (s : Local S) :
    Gives (Task.flush : Task S E (Except S.Fault Unit)) s r s := .single (.flush _ s r)

theorem Gives.read {n : Nat} {s : Local S} (bs : Bytes) (h : s.recvLost = false) (hl : bs.length = n) :
    Gives (Task.read n : Task S E (Except S.Fault Bytes)) s (.ok bs) (s.push (.took bs)) :=
  .single (.read n _ s bs h hl)

theorem Gives.fill {c : Nat} {s : Local S} {bs : Bytes} (h : s.recvLost = false) (hn : bs ≠ []) (hl : bs.length ≤ c) :
    Gives (Task.fill c : Task S E (Except S.Fault Bytes)) s (.ok bs) (s.push (.took bs)) :=
  .single (.fill c _ s bs h hn hl)

theorem Gives.noRoom (s : Local S) : Gives (Task.fill 0 : Task S E (Except S.Fault Bytes)) s (.ok []) s :=
  .single (.noRoom _ s)

theorem Gives.note (m : S.Msg) (s : Local S) : Gives (Task.note m : Task S E Unit) s () (s.push (.got m)) :=
  .single (.note m _ s)

theorem Gives.call {op : S.Op} {s : Local S} {r : S.Ret op} {w : S.World} (h : S.sem s.world op r w) :
    Gives (Task.call op : Task S E (S.Ret op)) s r ((s.inWorld w).push (.did op r)) := .single (.call op _ s r w h)

theorem Gives.attempt {p : Task S E A} {s s' : Local S} {a : A} (h : Gives p s a s') :
    Gives (p.attempt : Task S E (Except E A)) s (.ok a) s' :=
  Steps.bind (fun r : Except E A => (Prog.ret (Except.ok r) : Task S E (Except E A))) h

/-- One more round of a loop. -/
theorem Gives.again {σ : Type} {body : σ → Task S E (σ ⊕ A)} {x y : σ} {s s' s'' : Local S} {a : A}
    (h : Gives (body x) s (.inl y) s') (g : Gives (Task.loop body y) s' a s'') : Gives (Task.loop body x) s a s'' := by
  -- the rounds of the rest are known once its first step is taken
  obtain ⟨c, hc, hrest⟩ := (Relation.ReflTransGen.cases_head g).resolve_left (fun h => by cases h)
  cases hc with
  | rounds k s n => exact .head (.rounds _ _ (n + 1)) (Gives.then h hrest)

theorem Gives.last {σ : Type} {body : σ → Task S E (σ ⊕ A)} {x : σ} {s s' : Local S} {a : A}
    (h : Gives (body x) s (.inr a) s') : Gives (Task.loop body x) s a s' :=
  .head (.rounds _ _ 1) (Gives.then h (Gives.pure a s'))

theorem taken_prefix_of_step {c c' : Config S A} (h : Step c c') : c.2.taken <+: c'.2.taken :=
  Local.taken_of_trace h.trace_prefix

end Gives

section Comes

variable {S : Sig} {E A B : Type} {W : Prop} {s : Local S}

theorem Within.bind {c c' : Config S A} (f : A → Prog S B) (h : Within W c c') :
    Within W (c.1.bind f, c.2) (c'.1.bind f, c'.2) := by
  obtain ⟨hs, hw⟩ := h
  refine ⟨hs.bind f, fun w => ⟨(hw w).1, fun k hk => ?_⟩⟩
  cases hs with
  | flush k' s r =>
    cases hk
    have heq : k' r = k' (.ok ()) := (hw w).2 k' rfl
    exact congrArg (fun p => Prog.bind p f) heq
  | sent | cut | read | short | fill | atEnd | noRoom | fillError | note | call | rounds => cases hk

theorem Runs.bind {c c' : Config S A} (f : A → Prog S B) (h : Runs W c c') :
    Runs W (c.1.bind f, c.2) (c'.1.bind f, c'.2) := by
  induction h with
  | refl => exact .refl
  | tail _ hs ih => exact ih.tail (hs.bind f)

/-- **Some run ends so**, whether it succeeds or fails. -/
def Comes (W : Prop) (p : Task S E A) (s : Local S) (r : Except E A) (s' : Local S) : Prop :=
  Runs W (p, s) (Prog.ret r, s')

theorem Comes.pure (a : A) (s : Local S) : Comes W (pure a : Task S E A) s (.ok a) s := .refl

theorem Comes.fail (e : E) (s : Local S) : Comes W (Task.fail e : Task S E A) s (.error e) s := .refl

theorem Comes.then {p : Task S E A} {f : A → Task S E B} {s' s'' : Local S} {a : A} {r : Except E B}
    (h : Comes W p s (.ok a) s') (g : Comes W (f a) s' r s'') : Comes W (p >>= f : Task S E B) s r s'' := by
  have hb : Runs W ((p >>= f : Task S E B), s) (f a, s') := Runs.bind _ h
  exact hb.trans g

/-- A task that fails is the last. -/
theorem Comes.stop {p : Task S E A} {s' : Local S} {e : E} (h : Comes W p s (.error e) s') (f : A → Task S E B) :
    Comes W (p >>= f : Task S E B) s (.error e) s' := Runs.bind _ h

theorem Comes.attempt {p : Task S E A} {s' : Local S} {r : Except E A} (h : Comes W p s r s') :
    Comes W (p.attempt : Task S E (Except E A)) s (.ok r) s' :=
  Runs.bind (fun r : Except E A => (Prog.ret (Except.ok r) : Task S E (Except E A))) h

theorem Comes.read {n : Nat} {bs : Bytes} (h : s.recvLost = false) (hs : s.sendLost = false) (hl : bs.length = n) :
    Comes W (Task.read n : Task S E (Except S.Fault Bytes)) s (.ok (.ok bs)) (s.push (.took bs)) :=
  .single ⟨.read n _ s bs h hl, fun _ => ⟨hs, nofun⟩⟩

theorem Comes.note (m : S.Msg) (hs : s.sendLost = false) :
    Comes W (Task.note m : Task S E Unit) s (.ok ()) (s.push (.got m)) :=
  .single ⟨.note m _ s, fun _ => ⟨hs, nofun⟩⟩

theorem Comes.call {op : S.Op} {r : S.Ret op} {w : S.World} (h : S.sem s.world op r w) (hs : s.sendLost = false) :
    Comes W (Task.call op : Task S E (S.Ret op)) s (.ok r) ((s.inWorld w).push (.did op r)) :=
  .single ⟨.call op _ s r w h, fun _ => ⟨hs, nofun⟩⟩

theorem Comes.send {m : S.Msg} (hs : s.sendLost = false) :
    Comes W (Task.send m : Task S E (Except S.Fault Unit)) s (.ok (.ok ())) (s.push (.sent m)) :=
  .single ⟨.sent m _ s hs, fun _ => ⟨hs, nofun⟩⟩

/-- A message of which nothing is written. -/
theorem Comes.cut {m : S.Msg} (f : S.Fault) (hw : ¬ W) (hl : 0 < (S.enc m).length) (s : Local S) :
    Comes W (Task.send m : Task S E (Except S.Fault Unit)) s (.ok (.error f)) (s.push (.cut m [])).loseSend :=
  .single ⟨.cut m _ s f [] List.nil_prefix hl fun _ => rfl, fun w => absurd w hw⟩

theorem Comes.flush (hs : s.sendLost = false) :
    Comes W (Task.flush : Task S E (Except S.Fault Unit)) s (.ok (.ok ())) s :=
  .single ⟨.flush _ s (.ok ()), fun _ => ⟨hs, fun k hk => by cases hk; rfl⟩⟩

/-- The last round of a loop. -/
theorem Comes.last {σ : Type} {body : σ → Task S E (σ ⊕ A)} {x : σ} {s' : Local S} {a : A} (hs : s.sendLost = false)
    (h : Comes W (body x) s (.ok (.inr a)) s') : Comes W (Task.loop body x) s (.ok a) s' :=
  .head ⟨.rounds _ _ 1, fun _ => ⟨hs, nofun⟩⟩ (Comes.then h (Comes.pure a s'))

end Comes

section Reach

variable {S T : Sig} {A B : Type} {p : Prog S A} {q : Prog T B} {v : S.World} {w : T.World}

/-- **One side runs on** with what the other has written. -/
theorem Pair.Reach.left {c c' : Config S A} {d : Config T B} (h : Pair.Reach p q v w (c, d)) (hs : Steps c c')
    (hr : c'.2.taken <+: d.2.out) : Pair.Reach p q v w (c', d) := by
  induction hs with
  | refl => exact h
  | tail _ hstep ih => exact (ih ((taken_prefix_of_step hstep).trans hr)).tail (.left _ _ _ hstep hr)

theorem Pair.Reach.right {c : Config S A} {d d' : Config T B} (h : Pair.Reach p q v w (c, d)) (hs : Steps d d')
    (hr : d'.2.taken <+: c.2.out) : Pair.Reach p q v w (c, d') := by
  induction hs with
  | refl => exact h
  | tail _ hstep ih => exact (ih ((taken_prefix_of_step hstep).trans hr)).tail (.right _ _ _ hstep hr)

/-- **By turns**: the left side says something, the right one answers, and the left one goes on with that. -/
theorem Pair.Reach.turns {c c' : Config S A} {d : Config T B} (hc : Steps (p, Local.init v) c) (ht : c.2.taken = [])
    (hd : Steps (q, Local.init w) d) (hr : d.2.taken <+: c.2.out) (hc' : Steps c c') (hr' : c'.2.taken <+: d.2.out) :
    Pair.Reach p q v w (c', d) := by
  have h : Pair.Reach p q v w (c, (q, Local.init w)) :=
    Pair.Reach.left .refl hc (by rw [ht]; exact List.nil_prefix)
  exact (h.right hd hr).left hc' hr'

end Reach

section Frames

variable {S : Sig} {E α : Type}

/-- The header of a message announces its length. -/
theorem frameSize_encLe (w : Frame.Wire α) {bs : Bytes} (hl : bs.length ≤ w.limit) :
    Frame.frameSize (Bare.Codec.encLe 4 bs.length) = bs.length := by
  have h := Bare.Codec.decLe_encLe 4 bs.length (by have := w.limit_lt; omega) []
  rw [List.append_nil] at h
  rw [Frame.frameSize, h]
  rfl

/-- A frame that is there is read. -/
theorem Gives.recv {err : Frame.RecvError S.Fault → E} {w : Frame.Wire α} {s : Local S} {bs : Bytes} {a : α}
    (h : s.recvLost = false) (hl : bs.length ≤ w.limit) (hd : w.codec.decode bs = some a) :
    Gives (Frame.recv err w) s a ((s.push (.took (Bare.Codec.encLe 4 bs.length))).push (.took bs)) := by
  apply Gives.then (Gives.read _ h (Bare.Codec.encLe_length 4 bs.length))
  simp only [frameSize_encLe w hl]
  rw [if_neg (by omega)]
  refine Gives.then (Gives.read _ h rfl) ?_
  simp only [hd]
  exact Gives.pure a _

theorem Comes.recv {W : Prop} {err : Frame.RecvError S.Fault → E} {w : Frame.Wire α} {s : Local S} {bs : Bytes} {a : α}
    (h : s.recvLost = false) (hs : s.sendLost = false) (hl : bs.length ≤ w.limit) (hd : w.codec.decode bs = some a) :
    Comes W (Frame.recv err w) s (.ok a) ((s.push (.took (Bare.Codec.encLe 4 bs.length))).push (.took bs)) := by
  apply Comes.then (Comes.read h hs (Bare.Codec.encLe_length 4 bs.length))
  simp only [frameSize_encLe w hl]
  rw [if_neg (by omega)]
  refine Comes.then (Comes.read h hs rfl) ?_
  simp only [hd]
  exact Comes.pure a _

end Frames
end Proc
