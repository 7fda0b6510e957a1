import Qcp.Proc
/-!
# Calm — two programs of which nothing goes wrong

A pair of programs may wait for one another for ever, even if no stream breaks and whatever can be done is done.
`Meets Q x` says that this cannot happen: from `x` each such run comes to an end, whichever side takes the next step,
and with `Q`.  It is shown for one schedule only, as a step that does not ask how much there is to read may as well be
the first (`Meets.first`): one side runs until it ends or waits (`Gets`, `Meets.left`), and then the other
(`Meets.right`).
-/
namespace Proc

open Bare (Bytes)

/-- What comes of what a program asks for when nothing goes wrong, and how many rounds of its loops are looked at. -/
structure Conditions (S : Sig) where
  does : S.World → (op : S.Op) → S.Ret op → S.World → Prop
  sem : ∀ w op r w', does w op r w' → S.sem w op r w'
  rounds : Nat

/-! ## Steps -/

/-- **One step of which nothing goes wrong**, with so much there to be read. -/
inductive Calm {S : Sig} {A : Type} (C : Conditions S) (avail : Bytes) : Config S A → Config S A → Prop where
  | sent (m : S.Msg) (k : Except S.Fault Unit → Prog S A) (s : Local S) (h : s.sendLost = false) :
      Calm C avail (.send m k, s) (k (.ok ()), s.push (.sent m))
  | flush (k : Except S.Fault Unit → Prog S A) (s : Local S) : Calm C avail (.flush k, s) (k (.ok ()), s)
  | read (n : Nat) (k : Except S.Fault Bytes → Prog S A) (s : Local S) (bs : Bytes) (h : s.recvLost = false)
      (hl : bs.length = n) (ha : s.taken ++ bs <+: avail) : Calm C avail (.read n k, s) (k (.ok bs), s.push (.took bs))
  | fill (c : Nat) (k : Except S.Fault Bytes → Prog S A) (s : Local S) (bs : Bytes) (h : s.recvLost = false)
      (hn : bs ≠ []) (hl : bs.length ≤ c) (ha : s.taken ++ bs <+: avail) :
      Calm C avail (.fill c k, s) (k (.ok bs), s.push (.took bs))
  | noRoom (k : Except S.Fault Bytes → Prog S A) (s : Local S) : Calm C avail (.fill 0 k, s) (k (.ok []), s)
  | note (m : S.Msg) (k : Prog S A) (s : Local S) : Calm C avail (.note m k, s) (k, s.push (.got m))
  | call (op : S.Op) (k : S.Ret op → Prog S A) (s : Local S) (r : S.Ret op) (w : S.World) (h : C.does s.world op r w) :
      Calm C avail (.call op k, s) (k r, (s.inWorld w).push (.did op r))
  | rounds (k : Nat → Prog S A) (s : Local S) : Calm C avail (.rounds k, s) (k C.rounds, s)

section Calm

variable {S T : Sig} {A B : Type} {C : Conditions S} {D : Conditions T} {avail avail' : Bytes} {c c' c'' : Config S A}

theorem Calm.step (h : Calm C avail c c') : Step c c' := by
  cases h with
  | sent m k s h => exact .sent m k s h
  | flush k s => exact .flush k s (.ok ())
  | read n k s bs h hl => exact .read n k s bs h hl
  | fill n k s bs h hn hl => exact .fill n k s bs h hn hl
  | noRoom k s => exact .noRoom k s
  | note m k s => exact .note m k s
  | call op k s r w h => exact .call op k s r w (C.sem _ _ _ _ h)
  | rounds k s => exact .rounds k s C.rounds

/-- What is read was there. -/
theorem Calm.taken (h : Calm C avail c c') (hc : c.2.taken <+: avail) : c'.2.taken <+: avail := by
  cases h with
  | read n k s bs _ _ ha | fill n k s bs _ _ _ ha => simpa [Event.read] using ha
  | sent | note | call => simpa [Event.read] using hc
  | flush | noRoom | rounds => exact hc

/-- With more to read a step is still one. -/
theorem Calm.mono (h : Calm C avail c c') (ha : avail <+: avail') : Calm C avail' c c' := by
  cases h with
  | sent m k s h => exact .sent m k s h
  | flush k s => exact .flush k s
  | read n k s bs h hl hp => exact .read n k s bs h hl (hp.trans ha)
  | fill n k s bs h hn hl hp => exact .fill n k s bs h hn hl (hp.trans ha)
  | noRoom k s => exact .noRoom k s
  | note m k s => exact .note m k s
  | call op k s r w h => exact .call op k s r w h
  | rounds k s => exact .rounds k s

/-- A program that asks for as much as there is. -/
def Prog.fills : Prog S A → Prop
  | .fill _ _ => True
  | _ => False

/-- So many bytes that follow others are known from what they are in front of. -/
theorem eq_of_append_prefix {t x y : Bytes} (hx : t ++ x <+: avail) (hy : t ++ y <+: avail) (hl : x.length = y.length) :
    x = y := by
  have hp := List.prefix_of_prefix_length_le hx hy (by simp [hl])
  exact ((List.prefix_append_right_inj t).1 hp).eq_of_length hl

/-- **Such a step takes the same outcomes, whatever more there is to read.** -/
theorem Calm.stable (hf : ¬ c.1.fills) (h : Calm C avail c c') (ha : avail <+: avail') (h' : Calm C avail' c c'') :
    Calm C avail c c'' := by
  cases h' with
  | sent m k s hl => exact .sent m k s hl
  | flush k s => exact .flush k s
  | read n k s bs hr hl hp =>
    cases h with
    | read _ _ _ bs' hr' hl' hp' =>
      obtain rfl := eq_of_append_prefix hp (hp'.trans ha) (hl.trans hl'.symm)
      exact .read n k s bs hr hl hp'
  | fill n k s bs hr hn hl hp => exact absurd trivial hf
  | noRoom k s => exact .noRoom k s
  | note m k s => exact .note m k s
  | call op k s r w hw => exact .call op k s r w hw
  | rounds k s => exact .rounds k s

/-- A side that does nothing, with so much to read. -/
def Rests (C : Conditions S) (avail : Bytes) (c : Config S A) : Prop := ∀ c', ¬ Calm C avail c c'

theorem Rests.ret (a : A) (s : Local S) : Rests C avail (.ret a, s) := fun _ h => by cases h

theorem Rests.read {n : Nat} {k : Except S.Fault Bytes → Prog S A} {s : Local S}
    (h : avail.length < s.taken.length + n) :
    Rests C avail (.read n k, s) := by
  intro c' hc
  cases hc with
  | read _ _ _ bs _ hl hp =>
    have := hp.length_le
    rw [List.length_append] at this
    omega

/-! ## Two programs -/

/-- **One step of either side**, of which nothing goes wrong. -/
inductive Pair.Calm (C : Conditions S) (D : Conditions T) : Pair S T A B → Pair S T A B → Prop where
  | left (c c' : Config S A) (d : Config T B) (h : Proc.Calm C d.2.out c c') : Pair.Calm C D (c, d) (c', d)
  | right (c : Config S A) (d d' : Config T B) (h : Proc.Calm D c.2.out d d') : Pair.Calm C D (c, d) (c, d')

/-- **Both sides come to an end, and with `Q`**, whichever of them takes the next step. -/
inductive Meets (C : Conditions S) (D : Conditions T) (Q : A → Local S → B → Local T → Prop) : Pair S T A B → Prop where
  | ends (a : A) (s : Local S) (b : B) (t : Local T) (h : Q a s b t) : Meets C D Q ((.ret a, s), (.ret b, t))
  | goes (x : Pair S T A B) (h : ∃ y, Pair.Calm C D x y) (hall : ∀ y, Pair.Calm C D x y → Meets C D Q y) : Meets C D Q x

variable {Q R : A → Local S → B → Local T → Prop} {d : Config T B} {x y : Pair S T A B}

theorem Meets.onwards (h : Meets C D Q x) (hs : Pair.Calm C D x y) : Meets C D Q y := by
  cases h with
  | ends a s b t h =>
    cases hs with
    | left _ _ _ h => cases h
    | right _ _ _ h => cases h
  | goes _ _ hall => exact hall y hs

/-- It does not matter which side is which. -/
theorem Meets.swap (h : Meets C D Q x) : Meets D C (fun b t a s => Q a s b t) (x.2, x.1) := by
  induction h with
  | ends a s b t h => exact .ends b t a s h
  | goes x hgo _ ih =>
    refine .goes _ ?_ fun y hy => ?_
    · obtain ⟨y, hy⟩ := hgo
      cases hy with
      | left c c' d h => exact ⟨_, .right d c c' h⟩
      | right c d d' h => exact ⟨_, .left d d' c h⟩
    · cases hy with
      | left _ d' _ h => exact ih _ (.right _ _ d' h)
      | right _ _ c' h => exact ih _ (.left _ c' _ h)

/-- What holds in all that can be reached is known of the end. -/
theorem Meets.of_reach {p : Prog S A} {q : Prog T B} {v : S.World} {w : T.World} (h : Meets C D Q x)
    (hr : Pair.Reach p q v w x)
    (hQ : ∀ a s b t, Pair.Reach p q v w ((.ret a, s), (.ret b, t)) → Q a s b t → R a s b t) :
    Meets C D R x := by
  induction h with
  | ends a s b t h => exact .ends a s b t (hQ a s b t hr h)
  | goes x hgo _ ih =>
    refine .goes x hgo fun y hy => ih y hy (hr.tail ?_)
    obtain ⟨-, -, hc, hd⟩ := Pair.reach hr
    cases hy with
    | left c c' d h => exact .left c c' d h.step (h.taken hc)
    | right c d d' h => exact .right c d d' h.step (h.taken hd)

/-- **What does not ask how much there is to read may be done first.** -/
theorem Meets.first (hf : ¬ c.1.fills) (hgo : ∃ c', Proc.Calm C d.2.out c c')
    (hall : ∀ c', Proc.Calm C d.2.out c c' → Meets C D Q (c', d)) : Meets C D Q (c, d) := by
  obtain ⟨c', hc'⟩ := hgo
  -- the other side's steps are those it takes after this one
  have hmeets := hall c' hc'
  generalize hx : (c', d) = x at hmeets
  induction hmeets generalizing d with
  | ends a s b t h =>
    cases hx
    refine .goes _ ⟨_, .left _ _ _ hc'⟩ fun y hy => ?_
    cases hy with
    | left _ c'' _ h => exact hall c'' h
    | right _ _ d' h => cases h
  | goes x _ _ ih =>
    subst hx
    refine .goes _ ⟨_, .left _ _ _ hc'⟩ fun y hy => ?_
    cases hy with
    | left _ c'' _ h => exact hall c'' h
    | right _ _ d' h =>
      have hout : d.2.out <+: d'.2.out := out_prefix_of_step h.step
      refine ih _ (.right c' d d' (h.mono (out_prefix_of_step hc'.step))) (fun c'' h'' => ?_) (hc'.mono hout) rfl
      have hc'' := hc'.stable hf hout h''
      exact (hall c'' hc'').onwards (.right c'' d d' (h.mono (out_prefix_of_step hc''.step)))

end Calm

/-! ## One side at a time -/

/-- What a side has come to. -/
structure Ledger (S : Sig) where
  world : S.World
  taken : Bytes
  out : Bytes

namespace Ledger

variable {S : Sig}

def init (w : S.World) : Ledger S := ⟨w, [], []⟩

def take (v : Ledger S) (bs : Bytes) : Ledger S := { v with taken := v.taken ++ bs }

def put (v : Ledger S) (bs : Bytes) : Ledger S := { v with out := v.out ++ bs }

def inWorld (v : Ledger S) (w : S.World) : Ledger S := { v with world := w }

@[simp] theorem take_world (v : Ledger S) (bs : Bytes) : (v.take bs).world = v.world := rfl
@[simp] theorem take_taken (v : Ledger S) (bs : Bytes) : (v.take bs).taken = v.taken ++ bs := rfl
@[simp] theorem take_out (v : Ledger S) (bs : Bytes) : (v.take bs).out = v.out := rfl
@[simp] theorem put_world (v : Ledger S) (bs : Bytes) : (v.put bs).world = v.world := rfl
@[simp] theorem put_taken (v : Ledger S) (bs : Bytes) : (v.put bs).taken = v.taken := rfl
@[simp] theorem put_out (v : Ledger S) (bs : Bytes) : (v.put bs).out = v.out ++ bs := rfl
@[simp] theorem inWorld_world (v : Ledger S) (w : S.World) : (v.inWorld w).world = w := rfl
@[simp] theorem inWorld_taken (v : Ledger S) (w : S.World) : (v.inWorld w).taken = v.taken := rfl
@[simp] theorem inWorld_out (v : Ledger S) (w : S.World) : (v.inWorld w).out = v.out := rfl
@[simp] theorem inWorld_inWorld (v : Ledger S) (w w' : S.World) : (v.inWorld w).inWorld w' = v.inWorld w' := rfl
@[simp] theorem inWorld_self (v : Ledger S) : v.inWorld v.world = v := rfl
@[simp] theorem take_inWorld (v : Ledger S) (w : S.World) (bs : Bytes) :
    (v.inWorld w).take bs = (v.take bs).inWorld w := rfl
@[simp] theorem take_take (v : Ledger S) (x y : Bytes) : (v.take x).take y = v.take (x ++ y) := by
  simp [take]
@[simp] theorem put_put (v : Ledger S) (x y : Bytes) : (v.put x).put y = v.put (x ++ y) := by
  simp [put]
@[simp] theorem init_world (w : S.World) : (init w : Ledger S).world = w := rfl
@[simp] theorem init_taken (w : S.World) : (init w : Ledger S).taken = [] := rfl
@[simp] theorem init_out (w : S.World) : (init w : Ledger S).out = [] := rfl

end Ledger

/-- A state in which so much was done, and both directions of the stream are whole. -/
structure Local.At {S : Sig} (s : Local S) (v : Ledger S) : Prop where
  world : s.world = v.world
  taken : s.taken = v.taken
  out : s.out = v.out
  sends : s.sendLost = false
  receives : s.recvLost = false

namespace Local.At

variable {S : Sig} {s : Local S} {v : Ledger S}

theorem init (w : S.World) : (Local.init w : Local S).At (.init w) := ⟨rfl, rfl, rfl, rfl, rfl⟩

theorem sent (h : s.At v) (m : S.Msg) : (s.push (.sent m)).At (v.put (S.enc m)) :=
  ⟨h.world, by simp [Ledger.put, h.taken, Event.read], by simp [Ledger.put, h.out, Event.wrote], h.sends, h.receives⟩

theorem took (h : s.At v) (bs : Bytes) : (s.push (.took bs)).At (v.take bs) :=
  ⟨h.world, by simp [Ledger.take, h.taken, Event.read], by simp [Ledger.take, h.out, Event.wrote], h.sends, h.receives⟩

theorem got (h : s.At v) (m : S.Msg) : (s.push (.got m)).At v :=
  ⟨h.world, by simp [h.taken, Event.read], by simp [h.out, Event.wrote], h.sends, h.receives⟩

theorem did (h : s.At v) (op : S.Op) (r : S.Ret op) (w : S.World) : ((s.inWorld w).push (.did op r)).At (v.inWorld w) :=
  ⟨rfl, by simp [Ledger.inWorld, h.taken, Event.read], by simp [Ledger.inWorld, h.out, Event.wrote], h.sends,
    h.receives⟩

end Local.At

/-- What one side has before it while the other does nothing: what there is to read, and what it may have written for
the other still to do nothing. -/
structure Turn (S : Sig) where
  conditions : Conditions S
  avail : Bytes
  idle : Bytes → Prop

section Gets

variable {S T : Sig} {A B : Type} {C : Conditions S} {D : Conditions T}

/-- **A program gets to its end without having to wait**, and ends with `Q`. -/
def Gets (t : Turn S) (Q : A → Ledger S → Prop) : Prog S A → Ledger S → Prop
  | .ret a, v => Q a v
  | .send m k, v => Gets t Q (k (.ok ())) (v.put (S.enc m))
  | .flush k, v => Gets t Q (k (.ok ())) v
  | .read n k, v => ∃ bs, bs.length = n ∧ v.taken ++ bs <+: t.avail ∧ Gets t Q (k (.ok bs)) (v.take bs)
  | .fill c k, v => t.idle v.out ∧ 0 < c ∧ (∃ bs, bs ≠ [] ∧ bs.length ≤ c ∧ v.taken ++ bs <+: t.avail) ∧
      ∀ bs, bs ≠ [] → bs.length ≤ c → v.taken ++ bs <+: t.avail → Gets t Q (k (.ok bs)) (v.take bs)
  | .note _ k, v => Gets t Q k v
  | .call op k, v => (∃ r w, t.conditions.does v.world op r w) ∧
      ∀ r w, t.conditions.does v.world op r w → Gets t Q (k r) (v.inWorld w)
  | .rounds k, v => Gets t Q (k t.conditions.rounds) v
  | .hang, _ => False

theorem Gets.mono {t : Turn S} {Q R : A → Ledger S → Prop} (hQ : ∀ a v, Q a v → R a v) :
    ∀ {p : Prog S A} {v : Ledger S}, Gets t Q p v → Gets t R p v
  | .ret a, v, h => hQ a v h
  | .send _ k, _, h => Gets.mono hQ (p := k (.ok ())) h
  | .flush k, _, h => Gets.mono hQ (p := k (.ok ())) h
  | .read _ _, _, ⟨bs, hl, hp, h⟩ => ⟨bs, hl, hp, Gets.mono hQ h⟩
  | .fill _ _, _, ⟨hi, hc, hex, h⟩ => ⟨hi, hc, hex, fun bs hn hl hp => Gets.mono hQ (h bs hn hl hp)⟩
  | .note _ k, _, h => Gets.mono hQ (p := k) h
  | .call _ _, _, ⟨hex, h⟩ => ⟨hex, fun r w hw => Gets.mono hQ (h r w hw)⟩
  | .rounds k, _, h => Gets.mono hQ (p := k t.conditions.rounds) h

theorem Gets.bind {t : Turn S} {Q : B → Ledger S → Prop} {f : A → Prog S B} : ∀ {p : Prog S A} {v : Ledger S},
    Gets t (fun a v => Gets t Q (f a) v) p v → Gets t Q (p.bind f) v
  | .ret _, _, h => h
  | .send _ k, _, h => Gets.bind (p := k (.ok ())) h
  | .flush k, _, h => Gets.bind (p := k (.ok ())) h
  | .read _ _, _, ⟨bs, hl, hp, h⟩ => ⟨bs, hl, hp, Gets.bind h⟩
  | .fill _ _, _, ⟨hi, hc, hex, h⟩ => ⟨hi, hc, hex, fun bs hn hl hp => Gets.bind (h bs hn hl hp)⟩
  | .note _ k, _, h => Gets.bind (p := k) h
  | .call _ _, _, ⟨hex, h⟩ => ⟨hex, fun r w hw => Gets.bind (h r w hw)⟩
  | .rounds k, _, h => Gets.bind (p := k t.conditions.rounds) h

variable {Q : B → Local S → A → Local T → Prop} {d : Config T A}

/-- **One side may go on first**, as far as it gets. -/
theorem Meets.goesOn {P : Type} {f : P → Prog S B} : ∀ {p : Prog S P} {s : Local S} {v : Ledger S}, s.At v →
    Gets ⟨C, d.2.out, fun o => Rests D o d⟩ (fun a v => ∀ s, s.At v → Meets C D Q ((f a, s), d)) p v →
    Meets C D Q ((p.bind f, s), d)
  | .ret a, s, v, hs, h => h s hs
  | .send m k, s, v, hs, h => by
    refine Meets.first id ⟨_, .sent m _ s hs.sends⟩ fun c' hc' => ?_
    cases hc' with | sent => exact Meets.goesOn (hs.sent m) h
  | .flush k, s, v, hs, h => by
    refine Meets.first id ⟨_, .flush _ s⟩ fun c' hc' => ?_
    cases hc' with | flush => exact Meets.goesOn hs h
  | .read n k, s, v, hs, ⟨bs, hl, hp, h⟩ => by
    rw [← hs.taken] at hp
    refine Meets.first id ⟨_, .read n _ s bs hs.receives hl hp⟩ fun c' hc' => ?_
    cases hc' with
    | read _ _ _ bs' _ hl' hp' =>
      obtain rfl := eq_of_append_prefix hp hp' (hl.trans hl'.symm)
      exact Meets.goesOn (hs.took bs) h
  | .fill c k, s, v, hs, ⟨hi, hc, ⟨bs, hn, hl, hp⟩, h⟩ => by
    rw [← hs.out] at hi
    rw [← hs.taken] at hp h
    refine .goes _ ⟨_, .left _ _ _ (.fill c _ s bs hs.receives hn hl hp)⟩ fun y hy => ?_
    cases hy with
    | left _ c' _ hc' =>
      cases hc' with
      | fill _ _ _ bs' _ hn' hl' hp' => exact Meets.goesOn (hs.took bs') (h bs' hn' hl' hp')
      | noRoom => exact absurd hc (Nat.lt_irrefl 0)
    | right _ _ d' hd' => exact absurd hd' (hi d')
  | .note m k, s, v, hs, h => by
    refine Meets.first id ⟨_, .note m _ s⟩ fun c' hc' => ?_
    cases hc' with | note => exact Meets.goesOn (p := k) (hs.got m) h
  | .call op k, s, v, hs, ⟨⟨r, w, hw⟩, h⟩ => by
    rw [← hs.world] at hw h
    refine Meets.first id ⟨_, .call op _ s r w hw⟩ fun c' hc' => ?_
    cases hc' with | call _ _ _ r w hw => exact Meets.goesOn (hs.did op r w) (h r w hw)
  | .rounds k, s, v, hs, h => by
    refine Meets.first id ⟨_, .rounds _ s⟩ fun c' hc' => ?_
    cases hc' with | rounds => exact Meets.goesOn hs h

end Gets

/-! ## Tasks -/

section Does

variable {S T : Sig} {E A B : Type} {t : Turn S} {v : Ledger S}

/-- **A task does what it is to, and does not wait**: it ends with a value of which `Q` holds. -/
def Does (t : Turn S) (Q : A → Ledger S → Prop) (p : Task S E A) (v : Ledger S) : Prop :=
  Gets t (fun r v => ∃ a, r = .ok a ∧ Q a v) p v

/-- **What a task does, the next one starts from.** -/
theorem Does.then {Q : B → Ledger S → Prop} {p : Task S E A} {f : A → Task S E B}
    (h : Does t (fun a v => Does t Q (f a) v) p v) : Does t Q (p >>= f : Task S E B) v := by
  refine Gets.bind (Gets.mono (fun r v hr => ?_) h)
  obtain ⟨a, rfl, ha⟩ := hr
  exact ha

theorem Does.mono {Q R : A → Ledger S → Prop} {p : Task S E A} (hQ : ∀ a v, Q a v → R a v) (h : Does t Q p v) :
    Does t R p v := Gets.mono (fun _ v hr => hr.imp fun a ha => ⟨ha.1, hQ a v ha.2⟩) h

theorem Does.pure {Q : A → Ledger S → Prop} {a : A} (h : Q a v) : Does t Q (pure a : Task S E A) v := ⟨a, rfl, h⟩

theorem Does.send {Q : Except S.Fault Unit → Ledger S → Prop} {m : S.Msg} (h : Q (.ok ()) (v.put (S.enc m))) :
    Does t Q (Task.send m : Task S E (Except S.Fault Unit)) v := ⟨_, rfl, h⟩

theorem Does.flush {Q : Except S.Fault Unit → Ledger S → Prop} (h : Q (.ok ()) v) :
    Does t Q (Task.flush : Task S E (Except S.Fault Unit)) v := ⟨_, rfl, h⟩

theorem Does.read {Q : Except S.Fault Bytes → Ledger S → Prop} {n : Nat} (bs : Bytes) (hl : bs.length = n)
    (hp : v.taken ++ bs <+: t.avail) (h : Q (.ok bs) (v.take bs)) :
    Does t Q (Task.read n : Task S E (Except S.Fault Bytes)) v := ⟨bs, hl, hp, _, rfl, h⟩

/-- Of what is there some is read. -/
theorem Does.fill {Q : Except S.Fault Bytes → Ledger S → Prop} {c : Nat} {x : Bytes} (hi : t.idle v.out) (hc : 0 < c)
    (hx : x ≠ []) (hp : v.taken ++ x <+: t.avail)
    (h : ∀ bs, bs ≠ [] → bs.length ≤ c → v.taken ++ bs <+: t.avail → Q (.ok bs) (v.take bs)) :
    Does t Q (Task.fill c : Task S E (Except S.Fault Bytes)) v := by
  refine ⟨hi, hc, ⟨x.take 1, ?_, ?_, ?_⟩, fun bs hn hl hp => ⟨_, rfl, h bs hn hl hp⟩⟩
  · simpa using hx
  · exact (List.length_take_le 1 x).trans hc
  · exact ((List.prefix_append_right_inj _).2 (List.take_prefix 1 x)).trans hp

theorem Does.note {Q : Unit → Ledger S → Prop} {m : S.Msg} (h : Q () v) : Does t Q (Task.note m : Task S E Unit) v :=
  ⟨_, rfl, h⟩

theorem Does.call {op : S.Op} {Q : S.Ret op → Ledger S → Prop} (hex : ∃ r w, t.conditions.does v.world op r w)
    (h : ∀ r w, t.conditions.does v.world op r w → Q r (v.inWorld w)) :
    Does t Q (Task.call op : Task S E (S.Ret op)) v := ⟨hex, fun r w hw => ⟨r, rfl, h r w hw⟩⟩

theorem Does.attempt {Q : Except E A → Ledger S → Prop} {p : Task S E A} (h : Does t (fun a v => Q (.ok a) v) p v) :
    Does t Q p.attempt v := by
  refine Gets.bind (Gets.mono (fun r v hr => ?_) h)
  obtain ⟨a, rfl, ha⟩ := hr
  exact ⟨_, rfl, ha⟩

/-- **A loop of which enough rounds are looked at**: before each `J` holds of how many may be left, one less every
time. -/
theorem Does.loop {σ : Type} {Q : A → Ledger S → Prop} {body : σ → Task S E (σ ⊕ A)} (J : Nat → σ → Ledger S → Prop)
    (hbody : ∀ n x v, J n x v → Does t (fun r v' => match r with
      | .inl y => ∃ m < n, J m y v'
      | .inr a => Q a v') (body x) v)
    {n : Nat} {x : σ} (hn : n < t.conditions.rounds) (h : J n x v) : Does t Q (Task.loop body x) v := by
  show Does t Q (Task.repeated body t.conditions.rounds x) v
  generalize t.conditions.rounds = k at hn
  induction k generalizing n x v with
  | zero => exact absurd hn (Nat.not_lt_zero n)
  | succ k ih =>
    refine Does.then ((hbody n x v h).mono fun r v' hr => ?_)
    cases r with
    | inl y =>
      obtain ⟨m, hm, hj⟩ := hr
      exact ih hj (by omega)
    | inr a => exact Does.pure hr

variable {F P : Type} {C : Conditions S} {D : Conditions T} {Q : Except E B → Local S → A → Local T → Prop}
    {s : Local S}

/-- **The left side does its next task**, and then what is left of the two is to end. -/
theorem Meets.left {d : Config T A} {p : Task S E P} {f : P → Task S E B} (hs : s.At v)
    (h : Does ⟨C, d.2.out, fun o => Rests D o d⟩ (fun a v => ∀ s, s.At v → Meets C D Q ((f a, s), d)) p v) :
    Meets C D Q (((p >>= f : Task S E B), s), d) := by
  refine Meets.goesOn hs (Gets.mono (fun r v hr => ?_) h)
  obtain ⟨a, rfl, ha⟩ := hr
  exact ha

theorem Prog.bind_ret : ∀ p : Prog S A, p.bind .ret = p
  | .ret _ => rfl
  | .send m k => congrArg (Prog.send m) (funext fun r => Prog.bind_ret (k r))
  | .flush k => congrArg Prog.flush (funext fun r => Prog.bind_ret (k r))
  | .read n k => congrArg (Prog.read n) (funext fun r => Prog.bind_ret (k r))
  | .fill c k => congrArg (Prog.fill c) (funext fun r => Prog.bind_ret (k r))
  | .note m k => congrArg (Prog.note m) (Prog.bind_ret k)
  | .call op k => congrArg (Prog.call op) (funext fun r => Prog.bind_ret (k r))
  | .rounds k => congrArg Prog.rounds (funext fun n => Prog.bind_ret (k n))
  | .hang => rfl

/-- Its last task. -/
theorem Meets.last {d : Config T A} {p : Task S E B} (hs : s.At v)
    (h : Does ⟨C, d.2.out, fun o => Rests D o d⟩ (fun b v => ∀ s, s.At v → Meets C D Q ((.ret (.ok b), s), d)) p v) :
    Meets C D Q ((p, s), d) := by
  rw [← Prog.bind_ret p]
  refine Meets.goesOn hs (Gets.mono (fun r v hr => ?_) h)
  obtain ⟨a, rfl, ha⟩ := hr
  exact ha

/-- **Or the right side does.** -/
theorem Meets.right {c : Config T A} {p : Task S E P} {f : P → Task S E B} (hs : s.At v)
    (h : Does ⟨C, c.2.out, fun o => Rests D o c⟩
      (fun a v => ∀ s, s.At v → Meets D C (fun a t b s => Q b s a t) (c, (f a, s))) p v) :
    Meets D C (fun a t b s => Q b s a t) (c, ((p >>= f : Task S E B), s)) :=
  Meets.swap (Meets.left hs (h.mono fun _ _ ha s hs => (ha s hs).swap))

theorem Meets.rightLast {c : Config T A} {p : Task S E B} (hs : s.At v)
    (h : Does ⟨C, c.2.out, fun o => Rests D o c⟩
      (fun b v => ∀ s, s.At v → Meets D C (fun a t b s => Q b s a t) (c, (.ret (.ok b), s))) p v) :
    Meets D C (fun a t b s => Q b s a t) (c, (p, s)) :=
  Meets.swap (Meets.last hs (h.mono fun _ _ ha s hs => (ha s hs).swap))

end Does

end Proc
