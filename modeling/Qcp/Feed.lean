import Qcp.Frame
/-!
# Feed — programs whose peer has nothing more to say

A program reads from an `Inbound`: the bytes that are there, and what comes after them, which may be nothing at all
for as long as anyone waits.  `Fed` is one step of a program with such a stream before it and nothing lost of what it
writes, a step as any (`Fed.step`).  `Completes Q x` says that every run from `x` comes to an end, and with `Q`, if
loops are looked at for long enough (`Completes.loop`); a program that waits does not (`Completes.not_waits`).
-/
namespace Proc

open Bare (Bytes)

/-- What comes after the bytes that are there. -/
inductive Ending (F : Type) where
  /-- Nothing: the peer keeps the stream open. -/
  | «open»
  | closed
  | failed (f : F)

/-- The faults that a reader of too little may be told of. -/
def Ending.Tells {F : Type} : Ending F → F → Prop
  | «open», _ => False
  | closed, _ => True
  | failed f, g => g = f

structure Inbound (F : Type) where
  bytes : Bytes
  ending : Ending F

/-- A program in its state, and what there is for it to read. -/
abbrev Feeding (S : Sig) (A : Type) := Config S A × Inbound S.Fault

/-- **One step with what is there to be read.** -/
inductive Fed {S : Sig} {A : Type} : Feeding S A → Feeding S A → Prop where
  | sent (m : S.Msg) (k : Except S.Fault Unit → Prog S A) (s : Local S) (i : Inbound S.Fault) (h : s.sendLost = false) :
      Fed ((.send m k, s), i) ((k (.ok ()), s.push (.sent m)), i)
  | flush (k : Except S.Fault Unit → Prog S A) (s : Local S) (i : Inbound S.Fault) :
      Fed ((.flush k, s), i) ((k (.ok ()), s), i)
  | read (k : Except S.Fault Bytes → Prog S A) (s : Local S) (bs rest : Bytes) (e : Ending S.Fault)
      (h : s.recvLost = false) :
        Fed ((.read bs.length k, s), ⟨bs ++ rest, e⟩) ((k (.ok bs), s.push (.took bs)), ⟨rest, e⟩)
  | short (n : Nat) (k : Except S.Fault Bytes → Prog S A) (s : Local S) (bs : Bytes) (e : Ending S.Fault) (f : S.Fault)
      (hs : s.recvLost = true → bs = []) (hl : bs.length < n) (hf : e.Tells f) :
      Fed ((.read n k, s), ⟨bs, e⟩) ((k (.error f), (s.push (.took bs)).loseRecv), ⟨[], e⟩)
  | fill (c : Nat) (k : Except S.Fault Bytes → Prog S A) (s : Local S) (bs rest : Bytes) (e : Ending S.Fault)
      (h : s.recvLost = false) (hn : bs ≠ []) (hl : bs.length ≤ c) :
      Fed ((.fill c k, s), ⟨bs ++ rest, e⟩) ((k (.ok bs), s.push (.took bs)), ⟨rest, e⟩)
  | atEnd (c : Nat) (k : Except S.Fault Bytes → Prog S A) (s : Local S) :
      Fed ((.fill c k, s), ⟨[], .closed⟩) ((k (.ok []), s.loseRecv), ⟨[], .closed⟩)
  | noRoom (k : Except S.Fault Bytes → Prog S A) (s : Local S) (i : Inbound S.Fault) :
      Fed ((.fill 0 k, s), i) ((k (.ok []), s), i)
  | fillError (c : Nat) (k : Except S.Fault Bytes → Prog S A) (s : Local S) (f : S.Fault) :
      Fed ((.fill c k, s), ⟨[], .failed f⟩) ((k (.error f), s.loseRecv), ⟨[], .failed f⟩)
  | note (m : S.Msg) (k : Prog S A) (s : Local S) (i : Inbound S.Fault) :
    Fed ((.note m k, s), i) ((k, s.push (.got m)), i)
  | call (op : S.Op) (k : S.Ret op → Prog S A) (s : Local S) (r : S.Ret op) (w : S.World) (i : Inbound S.Fault)
      (h : S.sem s.world op r w) : Fed ((.call op k, s), i) ((k r, (s.inWorld w).push (.did op r)), i)

section Fed

variable {S : Sig} {A : Type} {x y : Feeding S A}

/-- A step with a stream is a step. -/
theorem Fed.step (h : Fed x y) : Step x.1 y.1 := by
  cases h with
  | sent m k s i h => exact .sent m k s h
  | flush k s i => exact .flush k s (.ok ())
  | read k s bs rest e h => exact .read _ k s bs h rfl
  | short n k s bs e f hs hl hf => exact .short n k s f bs hl hs
  | fill c k s bs rest e h hn hl => exact .fill c k s bs h hn hl
  | atEnd c k s => exact .atEnd c k s
  | noRoom k s i => exact .noRoom k s
  | fillError c k s f => exact .fillError c k s f
  | note m k s i => exact .note m k s
  | call op k s r w i h => exact .call op k s r w h

/-- **Every run ends, and with `Q`.** -/
inductive Completes (Q : A → Local S → Inbound S.Fault → Prop) : Feeding S A → Prop where
  | ret (a : A) (s : Local S) (i : Inbound S.Fault) (h : Q a s i) : Completes Q ((.ret a, s), i)
  | step (x : Feeding S A) (h : ∃ y, Fed x y) (hall : ∀ y, Fed x y → Completes Q y) : Completes Q x
  /-- A loop ends when so many rounds of it do, and however many more are looked at. -/
  | rounds (k : Nat → Prog S A) (s : Local S) (i : Inbound S.Fault) (n : Nat)
      (h : ∀ m, n ≤ m → Completes Q ((k m, s), i)) : Completes Q ((.rounds k, s), i)

/-- A program that has not ended, and cannot go on. -/
def Waits (x : Feeding S A) : Prop := (∀ a, x.1.1 ≠ .ret a) ∧ (∀ k, x.1.1 ≠ .rounds k) ∧ ∀ y, ¬ Fed x y

variable {Q R : A → Local S → Inbound S.Fault → Prop}

theorem Completes.not_waits (h : Completes Q x) : ¬ Waits x := by
  rintro ⟨hret, hrounds, hno⟩
  cases h with
  | ret a s i _ => exact hret a rfl
  | step _ h _ =>
    obtain ⟨y, hy⟩ := h
    exact hno y hy
  | rounds k s i n _ => exact hrounds k rfl

theorem Completes.of_step (h : Completes Q x) (hs : Fed x y) : Completes Q y := by
  cases h with
  | ret a s i _ => cases hs
  | step _ _ hall => exact hall y hs
  | rounds k s i n _ => cases hs

theorem Completes.mono (hQ : ∀ a s i, Q a s i → R a s i) (h : Completes Q x) : Completes R x := by
  induction h with
  | ret a s i h => exact .ret a s i (hQ a s i h)
  | step x h _ ih => exact .step x h ih
  | rounds k s i n _ ih => exact .rounds k s i n ih

end Fed

/-! ## Rules -/

section Rules

variable {S : Sig} {E A B : Type} {s : Local S} {i : Inbound S.Fault}

/-- A program followed by another steps as it does, until it ends. -/
theorem Fed.of_bind {p : Prog S A} {f : A → Prog S B} {y : Feeding S B} (hp : ∀ a, p ≠ .ret a)
    (h : Fed ((p.bind f, s), i) y) : ∃ p' s' i', y = ((p'.bind f, s'), i') ∧ Fed ((p, s), i) ((p', s'), i') := by
  cases p with
  | ret a => exact absurd rfl (hp a)
  | send m k => cases h with | sent _ _ _ _ h => exact ⟨_, _, _, rfl, .sent m k s i h⟩
  | flush k => cases h with | flush => exact ⟨_, _, _, rfl, .flush k s i⟩
  | read n k =>
    cases h with
    | read _ _ bs rest e h => exact ⟨_, _, _, rfl, .read k s bs rest e h⟩
    | short _ _ _ bs e g hs hl hf => exact ⟨_, _, _, rfl, .short n k s bs e g hs hl hf⟩
  | fill c k =>
    cases h with
    | fill _ _ _ bs rest e h hn hl => exact ⟨_, _, _, rfl, .fill c k s bs rest e h hn hl⟩
    | atEnd => exact ⟨_, _, _, rfl, .atEnd c k s⟩
    | noRoom => exact ⟨_, _, _, rfl, .noRoom k s i⟩
    | fillError _ _ _ g => exact ⟨_, _, _, rfl, .fillError c k s g⟩
  | note m k => cases h with | note => exact ⟨_, _, _, rfl, .note m k s i⟩
  | call op k => cases h with | call _ _ _ r w _ hw => exact ⟨_, _, _, rfl, .call op k s r w i hw⟩
  | rounds k => cases h
  | hang => cases h

theorem Fed.bind {p p' : Prog S A} {s' : Local S} {i' : Inbound S.Fault} (f : A → Prog S B)
    (h : Fed ((p, s), i) ((p', s'), i')) : Fed ((p.bind f, s), i) ((p'.bind f, s'), i') := by
  cases h with
  | sent m k s i h => exact .sent m _ s i h
  | flush k s i => exact .flush _ s i
  | read k s bs rest e h => exact .read _ s bs rest e h
  | short n k s bs e g hs hl hf => exact .short n _ s bs e g hs hl hf
  | fill c k s bs rest e h hn hl => exact .fill c _ s bs rest e h hn hl
  | atEnd c k s => exact .atEnd c _ s
  | noRoom k s i => exact .noRoom _ s i
  | fillError c k s g => exact .fillError c _ s g
  | note m k s i => exact .note m _ s i
  | call op k s r w i h => exact .call op _ s r w i h

/-- **A program after another.** -/
theorem Completes.bind {Q : B → Local S → Inbound S.Fault → Prop} {f : A → Prog S B} {x : Feeding S A}
    (h : Completes (fun a s i => Completes Q ((f a, s), i)) x) : Completes Q ((x.1.1.bind f, x.1.2), x.2) := by
  induction h with
  | ret a s i h => exact h
  | step x hex _ ih =>
    obtain ⟨⟨⟨p', s'⟩, i'⟩, hy⟩ := hex
    refine .step _ ⟨_, hy.bind f⟩ fun z hz => ?_
    have hne : ∀ a, x.1.1 ≠ .ret a := by
      intro a ha
      rw [show x = ((x.1.1, x.1.2), x.2) from rfl, ha] at hy
      cases hy
    obtain ⟨p', s', i', rfl, hp⟩ := Fed.of_bind hne hz
    exact ih _ hp
  | rounds k s i n _ ih => exact .rounds _ s i n ih

/-- **A task after another**: the second goes on from a value, an error is the outcome. -/
theorem Completes.then {Q : Except E B → Local S → Inbound S.Fault → Prop} {p : Task S E A} {f : A → Task S E B}
    (h : Completes (fun r s i => match r with
      | .ok a => Completes Q ((f a, s), i)
      | .error e => Q (.error e) s i) ((p, s), i)) : Completes Q (((p >>= f : Task S E B), s), i) := by
  refine Completes.bind (x := ((p, s), i)) (h.mono fun r s i hr => ?_)
  cases r with
  | ok a => exact hr
  | error e => exact .ret _ s i hr

theorem Completes.send {Q : Except E (Except S.Fault Unit) → Local S → Inbound S.Fault → Prop} {m : S.Msg}
    (hs : s.sendLost = false) (h : Q (.ok (.ok ())) (s.push (.sent m)) i) :
    Completes Q (((Task.send m : Task S E (Except S.Fault Unit)), s), i) := by
  refine .step _ ⟨_, .sent m _ s i hs⟩ fun y hy => ?_
  cases hy with | sent => exact .ret _ _ _ h

theorem Completes.flush {Q : Except E (Except S.Fault Unit) → Local S → Inbound S.Fault → Prop}
    (h : Q (.ok (.ok ())) s i) : Completes Q (((Task.flush : Task S E (Except S.Fault Unit)), s), i) := by
  refine .step _ ⟨_, .flush _ s i⟩ fun y hy => ?_
  cases hy with | flush => exact .ret _ _ _ h

theorem Completes.note {Q : Except E Unit → Local S → Inbound S.Fault → Prop} {m : S.Msg}
    (h : Q (.ok ()) (s.push (.got m)) i) : Completes Q (((Task.note m : Task S E Unit), s), i) := by
  refine .step _ ⟨_, .note m _ s i⟩ fun y hy => ?_
  cases hy with | note => exact .ret _ _ _ h

/-- What is there is read. -/
theorem Completes.read {Q : Except E (Except S.Fault Bytes) → Local S → Inbound S.Fault → Prop} {n : Nat}
    {bs rest : Bytes} {e : Ending S.Fault} (hs : s.recvLost = false) (hl : bs.length = n)
    (h : Q (.ok (.ok bs)) (s.push (.took bs)) ⟨rest, e⟩) :
    Completes Q (((Task.read n : Task S E (Except S.Fault Bytes)), s), ⟨bs ++ rest, e⟩) := by
  subst hl
  refine .step _ ⟨_, .read _ s bs rest e hs⟩ fun y hy => ?_
  generalize hi : bs ++ rest = input at hy
  generalize hn : bs.length = n at hy
  cases hy with
  | read _ _ bs' rest' _ h' =>
    obtain ⟨rfl, rfl⟩ := List.append_inj hi hn
    exact .ret _ _ _ h
  | short _ _ _ bs' _ f hs' hl hf =>
    have := congrArg List.length hi
    rw [List.length_append] at this
    omega

/-- Some of what is there is read, unless nothing is there and nothing comes. -/
theorem Completes.fill {Q : Except E (Except S.Fault Bytes) → Local S → Inbound S.Fault → Prop} {c : Nat}
    (hs : s.recvLost = false) (hc : 0 < c) (hi : i.bytes ≠ [] ∨ i.ending ≠ .open) (h : ∀ r s i, Q (.ok r) s i) :
    Completes Q (((Task.fill c : Task S E (Except S.Fault Bytes)), s), i) := by
  refine .step _ ?_ fun y hy => ?_
  · obtain ⟨_ | ⟨b, bs⟩, e⟩ := i
    · cases e with
      | «open» => exact absurd hi (by simp)
      | closed => exact ⟨_, .atEnd c _ s⟩
      | failed f => exact ⟨_, .fillError c _ s f⟩
    · exact ⟨_, .fill c _ s [b] bs e hs (List.cons_ne_nil _ _) hc⟩
  · cases hy <;> exact .ret _ _ _ (h _ _ _)

/-- A round that another follows. -/
theorem Completes.again {σ : Type} {Q : Except E B → Local S → Inbound S.Fault → Prop} {body : σ → Task S E (σ ⊕ B)}
    {x : σ} {n : Nat} (h : Completes (fun r s i => match r with
      | .ok (.inl y) => Completes Q ((Task.repeated body n y, s), i)
      | .ok (.inr b) => Q (.ok b) s i
      | .error e => Q (.error e) s i) ((body x, s), i)) : Completes Q ((Task.repeated body (n + 1) x, s), i) := by
  refine Completes.then (h.mono fun r s i hr => ?_)
  rcases r with e | y | b
  · exact hr
  · exact hr
  · exact .ret _ s i hr

/-- A loop that so many rounds suffice for. -/
theorem Completes.loop {σ : Type} {Q : Except E B → Local S → Inbound S.Fault → Prop} {body : σ → Task S E (σ ⊕ B)}
    {x : σ} (n : Nat) (h : ∀ m, Completes Q ((Task.repeated body (n + m) x, s), i)) :
    Completes Q ((Task.loop body x, s), i) := by
  refine .rounds _ s i n fun m hm => ?_
  obtain ⟨k, rfl⟩ := Nat.exists_eq_add_of_le hm
  exact h k

/-- **Without a byte to read, and none to come, it waits.** -/
theorem waits_fill {k : Except S.Fault Bytes → Prog S A} {c : Nat} (hc : c ≠ 0) :
    Waits ((.fill c k, s), (⟨[], .open⟩ : Inbound S.Fault)) := by
  refine ⟨nofun, nofun, fun y hy => ?_⟩
  generalize hb : ([] : Bytes) = input at hy
  cases hy with
  | fill _ _ _ bs rest _ _ hn _ => exact hn (List.append_eq_nil_iff.1 hb.symm).1
  | noRoom => exact hc rfl

end Rules

end Proc
