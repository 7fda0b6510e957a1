import Qcp.Bare
/-!
# Proc — programs that talk over a byte stream, and what holds in all their runs

A program (`Prog`) sends messages, reads bytes, and asks its surroundings to do things, any of which may fail; `Step`
is one of its steps, and the trace of a state says everything it has done.  `All I Q` is the assertion that `I` holds
in every state a program passes through and `Q` where it ends: it is computed along the program, `All.of_steps` says
that it means that, and `All.bind` that it composes.  Two programs joined by streams that may be cut anywhere are a
`Pair`; `Pair.reach` says that each side of a reachable pair is a run of its own, having read what the other has
written.
-/
namespace Proc

open Bare (Bytes)

/-- What a program sends, how its stream can fail, and what its surroundings can be asked to do. -/
structure Sig where
  Msg : Type
  enc : Msg → Bytes
  Fault : Type
  Op : Type
  Ret : Op → Type
  World : Type
  sem : World → (op : Op) → Ret op → World → Prop

/-- A program: what it does next, and how it goes on from each outcome. -/
inductive Prog (S : Sig) (A : Type) where
  | ret (a : A)
  /-- Writes a message, or fails with part of it written. -/
  | send (m : S.Msg) (k : Except S.Fault Unit → Prog S A)
  | flush (k : Except S.Fault Unit → Prog S A)
  /-- Reads exactly so many bytes, or fails. -/
  | read (n : Nat) (k : Except S.Fault Bytes → Prog S A)
  /-- Reads some bytes, at most so many; none are had at the end of the stream. -/
  | fill (c : Nat) (k : Except S.Fault Bytes → Prog S A)
  /-- Keeps a message it has decoded. -/
  | note (m : S.Msg) (k : Prog S A)
  | call (op : S.Op) (k : S.Ret op → Prog S A)
  /-- A loop, of which some number of rounds is looked at. -/
  | rounds (k : Nat → Prog S A)
  /-- Never goes on. -/
  | hang

inductive Event (S : Sig) where
  | sent (m : S.Msg)
  /-- Only the front of a message was written. -/
  | cut (m : S.Msg) (front : Bytes)
  | took (bs : Bytes)
  | got (m : S.Msg)
  | did (op : S.Op) (r : S.Ret op)

namespace Event

variable {S : Sig}

/-- The bytes an event wrote. -/
def wrote : Event S → Bytes
  | sent m => S.enc m
  | cut _ front => front
  | _ => []

/-- The bytes an event read. -/
def read : Event S → Bytes
  | took bs => bs
  | _ => []

def sent? : Event S → Option S.Msg
  | sent m => some m
  | _ => none

/-- The message whose sending was begun. -/
def tried? : Event S → Option S.Msg
  | sent m => some m
  | cut m _ => some m
  | _ => none

def got? : Event S → Option S.Msg
  | got m => some m
  | _ => none

def done? : Event S → Option (Σ op, S.Ret op)
  | did op r => some ⟨op, r⟩
  | _ => none

end Event

/-- The state of a running program: its surroundings, whether either direction of its stream is lost, and its trace. -/
structure Local (S : Sig) where
  world : S.World
  sendLost : Bool
  recvLost : Bool
  trace : List (Event S)

namespace Local

variable {S : Sig}

def init (w : S.World) : Local S := ⟨w, false, false, []⟩

def push (s : Local S) (e : Event S) : Local S := { s with trace := s.trace ++ [e] }

def loseSend (s : Local S) : Local S := { s with sendLost := true }

def loseRecv (s : Local S) : Local S := { s with recvLost := true }

def inWorld (s : Local S) (w : S.World) : Local S := { s with world := w }

/-- All that was written, read, sent whole, begun, kept, and asked for. -/
def out (s : Local S) : Bytes := s.trace.flatMap Event.wrote

def taken (s : Local S) : Bytes := s.trace.flatMap Event.read

def sent (s : Local S) : List S.Msg := s.trace.filterMap Event.sent?

def tried (s : Local S) : List S.Msg := s.trace.filterMap Event.tried?

def got (s : Local S) : List S.Msg := s.trace.filterMap Event.got?

def done (s : Local S) : List (Σ op, S.Ret op) := s.trace.filterMap Event.done?

@[simp] theorem push_world (s : Local S) (e : Event S) : (s.push e).world = s.world := rfl
@[simp] theorem push_trace (s : Local S) (e : Event S) : (s.push e).trace = s.trace ++ [e] := rfl
@[simp] theorem push_sendLost (s : Local S) (e : Event S) : (s.push e).sendLost = s.sendLost := rfl
@[simp] theorem push_recvLost (s : Local S) (e : Event S) : (s.push e).recvLost = s.recvLost := rfl
@[simp] theorem loseSend_world (s : Local S) : s.loseSend.world = s.world := rfl
@[simp] theorem loseSend_trace (s : Local S) : s.loseSend.trace = s.trace := rfl
@[simp] theorem loseSend_sendLost (s : Local S) : s.loseSend.sendLost = true := rfl
@[simp] theorem loseSend_recvLost (s : Local S) : s.loseSend.recvLost = s.recvLost := rfl
@[simp] theorem loseRecv_world (s : Local S) : s.loseRecv.world = s.world := rfl
@[simp] theorem loseRecv_trace (s : Local S) : s.loseRecv.trace = s.trace := rfl
@[simp] theorem loseRecv_sendLost (s : Local S) : s.loseRecv.sendLost = s.sendLost := rfl
@[simp] theorem loseRecv_recvLost (s : Local S) : s.loseRecv.recvLost = true := rfl
@[simp] theorem inWorld_world (s : Local S) (w : S.World) : (s.inWorld w).world = w := rfl
@[simp] theorem inWorld_trace (s : Local S) (w : S.World) : (s.inWorld w).trace = s.trace := rfl
@[simp] theorem inWorld_sendLost (s : Local S) (w : S.World) : (s.inWorld w).sendLost = s.sendLost := rfl
@[simp] theorem inWorld_recvLost (s : Local S) (w : S.World) : (s.inWorld w).recvLost = s.recvLost := rfl

theorem filterMap_push {β : Type} (f : Event S → Option β) (s : Local S) (e : Event S) :
    (s.push e).trace.filterMap f = s.trace.filterMap f ++ (f e).toList := by
  rw [push_trace, List.filterMap_append]
  cases h : f e <;> simp [h]

@[simp] theorem out_push (s : Local S) (e : Event S) : (s.push e).out = s.out ++ e.wrote := by simp [out]
@[simp] theorem taken_push (s : Local S) (e : Event S) : (s.push e).taken = s.taken ++ e.read := by simp [taken]
@[simp] theorem sent_push (s : Local S) (e : Event S) : (s.push e).sent = s.sent ++ e.sent?.toList :=
    filterMap_push _ s e
@[simp] theorem tried_push (s : Local S) (e : Event S) : (s.push e).tried = s.tried ++ e.tried?.toList :=
    filterMap_push _ s e
@[simp] theorem got_push (s : Local S) (e : Event S) : (s.push e).got = s.got ++ e.got?.toList := filterMap_push _ s e
@[simp] theorem done_push (s : Local S) (e : Event S) : (s.push e).done = s.done ++ e.done?.toList :=
    filterMap_push _ s e
@[simp] theorem out_init (w : S.World) : (init w : Local S).out = [] := rfl
@[simp] theorem taken_init (w : S.World) : (init w : Local S).taken = [] := rfl
@[simp] theorem sent_init (w : S.World) : (init w : Local S).sent = [] := rfl
@[simp] theorem tried_init (w : S.World) : (init w : Local S).tried = [] := rfl
@[simp] theorem got_init (w : S.World) : (init w : Local S).got = [] := rfl
@[simp] theorem done_init (w : S.World) : (init w : Local S).done = [] := rfl
@[simp] theorem out_loseSend (s : Local S) : s.loseSend.out = s.out := rfl
@[simp] theorem out_loseRecv (s : Local S) : s.loseRecv.out = s.out := rfl
@[simp] theorem out_inWorld (s : Local S) (w : S.World) : (s.inWorld w).out = s.out := rfl
@[simp] theorem taken_loseSend (s : Local S) : s.loseSend.taken = s.taken := rfl
@[simp] theorem taken_loseRecv (s : Local S) : s.loseRecv.taken = s.taken := rfl
@[simp] theorem taken_inWorld (s : Local S) (w : S.World) : (s.inWorld w).taken = s.taken := rfl
@[simp] theorem sent_loseSend (s : Local S) : s.loseSend.sent = s.sent := rfl
@[simp] theorem sent_loseRecv (s : Local S) : s.loseRecv.sent = s.sent := rfl
@[simp] theorem sent_inWorld (s : Local S) (w : S.World) : (s.inWorld w).sent = s.sent := rfl
@[simp] theorem tried_loseSend (s : Local S) : s.loseSend.tried = s.tried := rfl
@[simp] theorem tried_loseRecv (s : Local S) : s.loseRecv.tried = s.tried := rfl
@[simp] theorem tried_inWorld (s : Local S) (w : S.World) : (s.inWorld w).tried = s.tried := rfl
@[simp] theorem got_loseSend (s : Local S) : s.loseSend.got = s.got := rfl
@[simp] theorem got_loseRecv (s : Local S) : s.loseRecv.got = s.got := rfl
@[simp] theorem got_inWorld (s : Local S) (w : S.World) : (s.inWorld w).got = s.got := rfl
@[simp] theorem done_loseSend (s : Local S) : s.loseSend.done = s.done := rfl
@[simp] theorem done_loseRecv (s : Local S) : s.loseRecv.done = s.done := rfl
@[simp] theorem done_inWorld (s : Local S) (w : S.World) : (s.inWorld w).done = s.done := rfl

section Longer

variable {s s' : Local S} (h : s.trace <+: s'.trace)

include h

theorem out_of_trace : s.out <+: s'.out := h.flatMap _

theorem taken_of_trace : s.taken <+: s'.taken := h.flatMap _

theorem sent_of_trace : s.sent <+: s'.sent := h.filterMap _

theorem got_of_trace : s.got <+: s'.got := h.filterMap _

theorem done_of_trace : s.done <+: s'.done := h.filterMap _

end Longer

end Local

/-! ## Steps -/

/-- A program and the state it is in. -/
abbrev Config (S : Sig) (A : Type) := Prog S A × Local S

/-- **One step.**  A message is written whole, or only a part of it that is not all; a lost direction stays lost. -/
inductive Step {S : Sig} {A : Type} : Config S A → Config S A → Prop where
  | sent (m : S.Msg) (k : Except S.Fault Unit → Prog S A) (s : Local S) (h : s.sendLost = false) :
      Step (.send m k, s) (k (.ok ()), s.push (.sent m))
  | cut (m : S.Msg) (k : Except S.Fault Unit → Prog S A) (s : Local S) (f : S.Fault) (front : Bytes)
      (h : front <+: S.enc m) (hl : front.length < (S.enc m).length) (hs : s.sendLost = true → front = []) :
      Step (.send m k, s) (k (.error f), (s.push (.cut m front)).loseSend)
  | flush (k : Except S.Fault Unit → Prog S A) (s : Local S) (r : Except S.Fault Unit) : Step (.flush k, s) (k r, s)
  | read (n : Nat) (k : Except S.Fault Bytes → Prog S A) (s : Local S) (bs : Bytes) (h : s.recvLost = false)
      (hl : bs.length = n) : Step (.read n k, s) (k (.ok bs), s.push (.took bs))
  | short (n : Nat) (k : Except S.Fault Bytes → Prog S A) (s : Local S) (f : S.Fault) (bs : Bytes) (hl : bs.length < n)
      (hs : s.recvLost = true → bs = []) : Step (.read n k, s) (k (.error f), (s.push (.took bs)).loseRecv)
  | fill (c : Nat) (k : Except S.Fault Bytes → Prog S A) (s : Local S) (bs : Bytes) (h : s.recvLost = false)
      (hn : bs ≠ []) (hl : bs.length ≤ c) : Step (.fill c k, s) (k (.ok bs), s.push (.took bs))
  | atEnd (c : Nat) (k : Except S.Fault Bytes → Prog S A) (s : Local S) : Step (.fill c k, s) (k (.ok []), s.loseRecv)
  | noRoom (k : Except S.Fault Bytes → Prog S A) (s : Local S) : Step (.fill 0 k, s) (k (.ok []), s)
  | fillError (c : Nat) (k : Except S.Fault Bytes → Prog S A) (s : Local S) (f : S.Fault) :
      Step (.fill c k, s) (k (.error f), s.loseRecv)
  | note (m : S.Msg) (k : Prog S A) (s : Local S) : Step (.note m k, s) (k, s.push (.got m))
  | call (op : S.Op) (k : S.Ret op → Prog S A) (s : Local S) (r : S.Ret op) (w : S.World)
      (h : S.sem s.world op r w) : Step (.call op k, s) (k r, (s.inWorld w).push (.did op r))
  | rounds (k : Nat → Prog S A) (s : Local S) (n : Nat) : Step (.rounds k, s) (k n, s)

def Steps {S : Sig} {A : Type} : Config S A → Config S A → Prop := Relation.ReflTransGen Step

/-! ## Assertions -/

section All

variable {S : Sig} {A B : Type}

/-- **`I` in every state passed through, `Q` where the program ends.** -/
def All (I : Local S → Prop) (Q : A → Local S → Prop) : Prog S A → Local S → Prop
  | .ret a, s => I s ∧ Q a s
  | .send m k, s => I s ∧ (s.sendLost = false → All I Q (k (.ok ())) (s.push (.sent m))) ∧
      ∀ f front, front <+: S.enc m → front.length < (S.enc m).length → (s.sendLost = true → front = []) →
        All I Q (k (.error f)) (s.push (.cut m front)).loseSend
  | .flush k, s => I s ∧ ∀ r, All I Q (k r) s
  | .read n k, s => I s ∧ (s.recvLost = false → ∀ bs, bs.length = n → All I Q (k (.ok bs)) (s.push (.took bs))) ∧
      ∀ f bs, bs.length < n → (s.recvLost = true → bs = []) → All I Q (k (.error f)) (s.push (.took bs)).loseRecv
  | .fill c k, s => I s ∧
      (s.recvLost = false → ∀ bs, bs ≠ [] → bs.length ≤ c → All I Q (k (.ok bs)) (s.push (.took bs))) ∧
      All I Q (k (.ok [])) s.loseRecv ∧ (c = 0 → All I Q (k (.ok [])) s) ∧ ∀ f, All I Q (k (.error f)) s.loseRecv
  | .note m k, s => I s ∧ All I Q k (s.push (.got m))
  | .call op k, s => I s ∧ ∀ r w, S.sem s.world op r w → All I Q (k r) ((s.inWorld w).push (.did op r))
  | .rounds k, s => I s ∧ ∀ n, All I Q (k n) s
  | .hang, s => I s

variable {I J : Local S → Prop} {Q R : A → Local S → Prop}

theorem All.now : ∀ {p : Prog S A} {s : Local S}, All I Q p s → I s
  | .ret _, _, h => h.1
  | .send _ _, _, h => h.1
  | .flush _, _, h => h.1
  | .read _ _, _, h => h.1
  | .fill _ _, _, h => h.1
  | .note _ _, _, h => h.1
  | .call _ _, _, h => h.1
  | .rounds _, _, h => h.1
  | .hang, _, h => h

theorem All.step {c c' : Config S A} (h : All I Q c.1 c.2) (hs : Step c c') : All I Q c'.1 c'.2 := by
  cases hs with
  | sent m k s hl => exact h.2.1 hl
  | cut m k s f front hp hl hs => exact h.2.2 f front hp hl hs
  | flush k s r => exact h.2 r
  | read n k s bs hr hl => exact h.2.1 hr bs hl
  | short n k s f bs hl hs => exact h.2.2 f bs hl hs
  | fill c k s bs hr hn hl => exact h.2.1 hr bs hn hl
  | atEnd c k s => exact h.2.2.1
  | noRoom k s => exact h.2.2.2.1 rfl
  | fillError c k s f => exact h.2.2.2.2 f
  | note m k s => exact h.2
  | call op k s r w hw => exact h.2 r w hw
  | rounds k s n => exact h.2 n

/-- **What `All` asserts holds in every run.** -/
theorem All.of_steps {c c' : Config S A} (h : All I Q c.1 c.2) (hs : Steps c c') : All I Q c'.1 c'.2 := by
  induction hs with
  | refl => exact h
  | tail _ hstep ih => exact ih.step hstep

theorem All.inv {p p' : Prog S A} {s s' : Local S} (h : All I Q p s) (hs : Steps (p, s) (p', s')) : I s' :=
  (h.of_steps hs).now

theorem All.result {p : Prog S A} {s s' : Local S} {a : A} (h : All I Q p s) (hs : Steps (p, s) (.ret a, s')) :
    Q a s' := (h.of_steps hs).2

theorem All.mono (hI : ∀ s, I s → J s) (hQ : ∀ a s, I s → Q a s → R a s) : ∀ {p : Prog S A} {s : Local S},
    All I Q p s → All J R p s
  | .ret a, s, h => ⟨hI s h.1, hQ a s h.1 h.2⟩
  | .send _ _, s, h => ⟨hI s h.1, fun hl => All.mono hI hQ (h.2.1 hl),
      fun f front hp hl hs => All.mono hI hQ (h.2.2 f front hp hl hs)⟩
  | .flush _, s, h => ⟨hI s h.1, fun r => All.mono hI hQ (h.2 r)⟩
  | .read _ _, s, h => ⟨hI s h.1, fun hr bs hl => All.mono hI hQ (h.2.1 hr bs hl),
      fun f bs hl hs => All.mono hI hQ (h.2.2 f bs hl hs)⟩
  | .fill _ _, s, h => ⟨hI s h.1, fun hr bs hn hl => All.mono hI hQ (h.2.1 hr bs hn hl), All.mono hI hQ h.2.2.1,
      fun hc => All.mono hI hQ (h.2.2.2.1 hc), fun f => All.mono hI hQ (h.2.2.2.2 f)⟩
  | .note _ _, s, h => ⟨hI s h.1, All.mono hI hQ h.2⟩
  | .call _ _, s, h => ⟨hI s h.1, fun r w hw => All.mono hI hQ (h.2 r w hw)⟩
  | .rounds _, s, h => ⟨hI s h.1, fun n => All.mono hI hQ (h.2 n)⟩
  | .hang, s, h => hI s h

theorem All.and {R : A → Local S → Prop} : ∀ {p : Prog S A} {s : Local S}, All I Q p s → All J R p s →
    All (fun s => I s ∧ J s) (fun a s => Q a s ∧ R a s) p s
  | .ret _, _, h, g => ⟨⟨h.1, g.1⟩, h.2, g.2⟩
  | .send _ _, _, h, g => ⟨⟨h.1, g.1⟩, fun hl => All.and (h.2.1 hl) (g.2.1 hl),
      fun f front hp hl hs => All.and (h.2.2 f front hp hl hs) (g.2.2 f front hp hl hs)⟩
  | .flush _, _, h, g => ⟨⟨h.1, g.1⟩, fun r => All.and (h.2 r) (g.2 r)⟩
  | .read _ _, _, h, g => ⟨⟨h.1, g.1⟩, fun hr bs hl => All.and (h.2.1 hr bs hl) (g.2.1 hr bs hl),
      fun f bs hl hs => All.and (h.2.2 f bs hl hs) (g.2.2 f bs hl hs)⟩
  | .fill _ _, _, h, g => ⟨⟨h.1, g.1⟩, fun hr bs hn hl => All.and (h.2.1 hr bs hn hl) (g.2.1 hr bs hn hl),
      All.and h.2.2.1 g.2.2.1, fun hc => All.and (h.2.2.2.1 hc) (g.2.2.2.1 hc),
      fun f => All.and (h.2.2.2.2 f) (g.2.2.2.2 f)⟩
  | .note _ _, _, h, g => ⟨⟨h.1, g.1⟩, All.and h.2 g.2⟩
  | .call _ _, _, h, g => ⟨⟨h.1, g.1⟩, fun r w hw => All.and (h.2 r w hw) (g.2 r w hw)⟩
  | .rounds _, _, h, g => ⟨⟨h.1, g.1⟩, fun n => All.and (h.2 n) (g.2 n)⟩
  | .hang, _, h, g => ⟨h, g⟩

/-- What each step preserves, every run does. -/
theorem All.of_preserved (hstep : ∀ {A : Type} {c c' : Config S A}, I c.2 → Step c c' → I c'.2) :
    ∀ (p : Prog S A) (s : Local S), I s → All I (fun _ _ => True) p s
  | .ret _, _, h => ⟨h, trivial⟩
  | .send m k, s, h => ⟨h, fun hl => All.of_preserved hstep _ _ (hstep h (.sent m k s hl)),
      fun f front hp hl hs => All.of_preserved hstep _ _ (hstep h (.cut m k s f front hp hl hs))⟩
  | .flush k, s, h => ⟨h, fun r => All.of_preserved hstep _ _ (hstep h (.flush k s r))⟩
  | .read n k, s, h => ⟨h, fun hr bs hl => All.of_preserved hstep _ _ (hstep h (.read n k s bs hr hl)),
      fun f bs hl hs => All.of_preserved hstep _ _ (hstep h (.short n k s f bs hl hs))⟩
  | .fill c k, s, h => ⟨h, fun hr bs hn hl => All.of_preserved hstep _ _ (hstep h (.fill c k s bs hr hn hl)),
      All.of_preserved hstep _ _ (hstep h (.atEnd c k s)),
      fun hc => All.of_preserved hstep _ _ (by subst hc; exact hstep h (.noRoom k s)),
      fun f => All.of_preserved hstep _ _ (hstep h (.fillError c k s f))⟩
  | .note m k, s, h => ⟨h, All.of_preserved hstep _ _ (hstep h (.note m k s))⟩
  | .call op k, s, h => ⟨h, fun r w hw => All.of_preserved hstep _ _ (hstep h (.call op k s r w hw))⟩
  | .rounds k, s, h => ⟨h, fun n => All.of_preserved hstep _ _ (hstep h (.rounds k s n))⟩
  | .hang, _, h => h

/-- A step only adds to the trace. -/
theorem Step.trace_prefix {c c' : Config S A} (h : Step c c') : c.2.trace <+: c'.2.trace := by
  cases h <;> simp

/-- **The trace only grows**, so what it begins with may be assumed all along. -/
theorem All.grows {p : Prog S A} {s : Local S} (h : All I Q p s) :
    All (fun s' => I s' ∧ s.trace <+: s'.trace) (fun a s' => Q a s' ∧ s.trace <+: s'.trace) p s := by
  have hg := @All.of_preserved S A (fun s' : Local S => s.trace <+: s'.trace)
    (fun hp hs => hp.trans hs.trace_prefix) p s (List.prefix_refl _)
  exact (h.and hg).mono (fun _ h => h) fun _ _ hi hq => ⟨hq.1, hi.2⟩

end All

/-! ## Sequencing -/

namespace Prog

variable {S : Sig} {A B : Type}

def bind : Prog S A → (A → Prog S B) → Prog S B
  | ret a, f => f a
  | send m k, f => send m fun r => bind (k r) f
  | flush k, f => flush fun r => bind (k r) f
  | read n k, f => read n fun r => bind (k r) f
  | fill c k, f => fill c fun r => bind (k r) f
  | note m k, f => note m (bind k f)
  | call op k, f => call op fun r => bind (k r) f
  | rounds k, f => rounds fun n => bind (k n) f
  | hang, _ => hang

end Prog

theorem Prog.bind_assoc {S : Sig} {A B C : Type} (f : A → Prog S B) (g : B → Prog S C) : ∀ p : Prog S A,
    (p.bind f).bind g = p.bind fun a => (f a).bind g
  | .ret _ => rfl
  | .send m k => congrArg (Prog.send m) (funext fun r => Prog.bind_assoc f g (k r))
  | .flush k => congrArg Prog.flush (funext fun r => Prog.bind_assoc f g (k r))
  | .read n k => congrArg (Prog.read n) (funext fun r => Prog.bind_assoc f g (k r))
  | .fill c k => congrArg (Prog.fill c) (funext fun r => Prog.bind_assoc f g (k r))
  | .note m k => congrArg (Prog.note m) (Prog.bind_assoc f g k)
  | .call op k => congrArg (Prog.call op) (funext fun r => Prog.bind_assoc f g (k r))
  | .rounds k => congrArg Prog.rounds (funext fun n => Prog.bind_assoc f g (k n))
  | .hang => rfl

/-- A program that may fail. -/
def Task (S : Sig) (E A : Type) := Prog S (Except E A)

namespace Task

variable {S : Sig} {E A B : Type}

def bind (p : Task S E A) (f : A → Task S E B) : Task S E B :=
  Prog.bind p fun
    | .ok a => f a
    | .error e => .ret (.error e)

instance : Monad (Task S E) where
  pure a := Prog.ret (.ok a)
  bind := bind

theorem bind_assoc {C : Type} (p : Task S E A) (f : A → Task S E B) (g : B → Task S E C) :
    (p >>= f >>= g : Task S E C) = (p >>= fun a => f a >>= g) := by
  refine (Prog.bind_assoc _ _ p).trans (congrArg (Prog.bind p) (funext fun r => ?_))
  cases r <;> rfl

/-- Gives up. -/
def fail (e : E) : Task S E A := Prog.ret (.error e)

def send (m : S.Msg) : Task S E (Except S.Fault Unit) := Prog.send m fun r => .ret (.ok r)

def flush : Task S E (Except S.Fault Unit) := Prog.flush fun r => .ret (.ok r)

def read (n : Nat) : Task S E (Except S.Fault Bytes) := Prog.read n fun r => .ret (.ok r)

def fill (c : Nat) : Task S E (Except S.Fault Bytes) := Prog.fill c fun r => .ret (.ok r)

def note (m : S.Msg) : Task S E Unit := Prog.note m (.ret (.ok ()))

def call (op : S.Op) : Task S E (S.Ret op) := Prog.call op fun r => .ret (.ok r)

/-- Never ends. -/
def hang : Task S E A := Prog.hang

/-- So many rounds of a loop: each ends with what the next starts with, or with the outcome. -/
def repeated {σ : Type} (body : σ → Task S E (σ ⊕ A)) : Nat → σ → Task S E A
  | 0, _ => hang
  | n + 1, x => do
    match ← body x with
    | .inl y => repeated body n y
    | .inr a => pure a

/-- A loop. -/
def loop {σ : Type} (body : σ → Task S E (σ ⊕ A)) (x : σ) : Task S E A := Prog.rounds fun n => repeated body n x

/-- The outcome of a task, whichever it is. -/
def attempt (p : Task S E A) : Task S E (Except E A) := Prog.bind p fun r => Prog.ret (.ok r)

end Task

section Sequencing

variable {S : Sig} {E A B : Type} {I : Local S → Prop}

/-- **A program after another**: what the first ends with is where the second starts. -/
theorem All.bind {Q : B → Local S → Prop} {f : A → Prog S B} : ∀ {p : Prog S A} {s : Local S},
    All I (fun a s => All I Q (f a) s) p s → All I Q (p.bind f) s
  | .ret _, _, h => h.2
  | .send _ _, _, h => ⟨h.1, fun hl => All.bind (h.2.1 hl), fun f front hp hl hs => All.bind (h.2.2 f front hp hl hs)⟩
  | .flush _, _, h => ⟨h.1, fun r => All.bind (h.2 r)⟩
  | .read _ _, _, h => ⟨h.1, fun hr bs hl => All.bind (h.2.1 hr bs hl), fun f bs hl hs => All.bind (h.2.2 f bs hl hs)⟩
  | .fill _ _, _, h => ⟨h.1, fun hr bs hn hl => All.bind (h.2.1 hr bs hn hl), All.bind h.2.2.1,
      fun hc => All.bind (h.2.2.2.1 hc), fun f => All.bind (h.2.2.2.2 f)⟩
  | .note _ _, _, h => ⟨h.1, All.bind h.2⟩
  | .call _ _, _, h => ⟨h.1, fun r w hw => All.bind (h.2 r w hw)⟩
  | .rounds _, _, h => ⟨h.1, fun n => All.bind (h.2 n)⟩
  | .hang, _, h => h

/-- What a task followed by another is to establish: the second goes on from a value, an error is the outcome. -/
def Next (I : Local S → Prop) (Q : Except E B → Local S → Prop) (f : A → Task S E B) (r : Except E A) (s : Local S) :
    Prop :=
  match r with
  | .ok a => All I Q (f a) s
  | .error e => Q (.error e) s

/-- **A task after another.** -/
theorem All.then {Q : Except E B → Local S → Prop} {p : Task S E A} {f : A → Task S E B} {s : Local S}
    (h : All I (Next I Q f) p s) : All I Q (p >>= f : Task S E B) s := by
  refine All.bind (h.mono (fun _ h => h) ?_)
  intro r s' hi hn
  cases r with
  | ok a => exact hn
  | error e => exact ⟨hi, hn⟩

/-- **A loop**: `J` holds before every round. -/
theorem All.loop {σ : Type} {Q : Except E A → Local S → Prop} {body : σ → Task S E (σ ⊕ A)}
    (J : σ → Local S → Prop) (hI : ∀ x s, J x s → I s)
    (hbody : ∀ x s, J x s → All I (fun r s' => match r with
      | .ok (.inl y) => J y s'
      | .ok (.inr a) => Q (.ok a) s'
      | .error e => Q (.error e) s') (body x) s)
    (x : σ) (s : Local S) (h : J x s) : All I Q (Task.loop body x) s := by
  refine ⟨hI x s h, fun n => ?_⟩
  induction n generalizing x s with
  | zero => exact hI x s h
  | succ n ih =>
    refine All.then ((hbody x s h).mono (fun _ h => h) fun r s' hi hq => ?_)
    rcases r with e | y | a
    · exact hq
    · exact ih y s' hq
    · exact ⟨hi, hq⟩

theorem All.attempt {Q : Except E (Except E A) → Local S → Prop} {p : Task S E A} {s : Local S}
    (h : All I (fun r s => Q (.ok r) s) p s) : All I Q p.attempt s :=
  All.bind (h.mono (fun _ h => h) fun _ _ hi hq => ⟨hi, hq⟩)

theorem All.pure {Q : Except E A → Local S → Prop} {a : A} {s : Local S} (hi : I s) (hq : Q (.ok a) s) :
    All I Q (pure a : Task S E A) s := ⟨hi, hq⟩

theorem All.fail {Q : Except E A → Local S → Prop} {e : E} {s : Local S} (hi : I s) (hq : Q (.error e) s) :
    All I Q (Task.fail e : Task S E A) s := ⟨hi, hq⟩

end Sequencing

/-! ## What is written -/

section Written

variable {S : Sig} {A : Type}

/-- The messages begun were written whole one after another, and then perhaps the front of one more. -/
structure Written (s : Local S) (tail : Bytes) : Prop where
  out : s.out = s.sent.flatMap S.enc ++ tail
  sent : s.sent <+: s.tried
  whole : s.sendLost = false → tail = [] ∧ s.sent = s.tried
  front : tail = [] ∨ ∃ m, s.sent ++ [m] <+: s.tried ∧ tail <+: S.enc m ∧ tail.length < (S.enc m).length

/-- Reading and the like write nothing. -/
theorem Written.quiet {s s' : Local S} {tail : Bytes} (h : Written s tail) (ho : s'.out = s.out) (hs : s'.sent = s.sent)
    (ht : s'.tried = s.tried) (hl : s'.sendLost = s.sendLost) : Written s' tail :=
  ⟨by rw [ho, hs]; exact h.out, by rw [hs, ht]; exact h.sent, by rw [hs, ht, hl]; exact h.whole,
    by rw [hs, ht]; exact h.front⟩

theorem Written.step {c c' : Config S A} (h : ∃ tail, Written c.2 tail) (hs : Step c c') :
    ∃ tail, Written c'.2 tail := by
  obtain ⟨tail, hw⟩ := h
  cases hs with
  | sent m k s hsl =>
    obtain ⟨h0, heq⟩ := hw.whole hsl
    have ho := hw.out
    simp only at ho heq
    refine ⟨[], ?_, ?_, fun _ => ⟨rfl, ?_⟩, Or.inl rfl⟩
    · simp [ho, h0, Event.wrote, Event.sent?]
    · simp [heq, Event.sent?, Event.tried?]
    · simp [heq, Event.sent?, Event.tried?]
  | cut m k s f front hp hlen hs =>
    have ho := hw.out
    have hpre := hw.sent
    simp only at ho hpre
    cases hlost : s.sendLost with
    | true =>
      refine ⟨tail, ?_, ?_, nofun, hw.front.imp id ?_⟩
      · simp [ho, Event.wrote, Event.sent?, hs hlost]
      · simpa [Event.sent?, Event.tried?] using hpre.trans (List.prefix_append _ _)
      · rintro ⟨m', hm, hf⟩
        exact ⟨m', by simpa [Event.sent?, Event.tried?] using hm.trans (List.prefix_append _ _), hf⟩
    | false =>
      obtain ⟨h0, heq⟩ := hw.whole hlost
      simp only at heq
      refine ⟨front, ?_, ?_, nofun, Or.inr ⟨m, ?_, hp, hlen⟩⟩
      · simp [ho, Event.wrote, Event.sent?, h0]
      · simp [heq, Event.sent?, Event.tried?]
      · simp [heq, Event.sent?, Event.tried?]
  | flush k s r => exact ⟨tail, hw⟩
  | read n k s bs hr hlen =>
    exact ⟨tail, hw.quiet (by simp [Event.wrote]) (by simp [Event.sent?]) (by simp [Event.tried?]) rfl⟩
  | short n k s f bs hlen hs =>
    exact ⟨tail, hw.quiet (by simp [Event.wrote]) (by simp [Event.sent?]) (by simp [Event.tried?]) rfl⟩
  | fill c k s bs hr hn hlen =>
    exact ⟨tail, hw.quiet (by simp [Event.wrote]) (by simp [Event.sent?]) (by simp [Event.tried?]) rfl⟩
  | atEnd c k s => exact ⟨tail, hw.quiet rfl rfl rfl rfl⟩
  | noRoom k s => exact ⟨tail, hw⟩
  | fillError c k s f => exact ⟨tail, hw.quiet rfl rfl rfl rfl⟩
  | note m k s =>
    exact ⟨tail, hw.quiet (by simp [Event.wrote]) (by simp [Event.sent?]) (by simp [Event.tried?]) rfl⟩
  | call op k s r w hw' =>
    exact ⟨tail, hw.quiet (by simp [Event.wrote]) (by simp [Event.sent?]) (by simp [Event.tried?]) rfl⟩
  | rounds k s n => exact ⟨tail, hw⟩

/-- **In every run the messages begun are written whole, and then perhaps the front of one more.** -/
theorem written_of_steps {p p' : Prog S A} {w : S.World} {s : Local S} (h : Steps (p, Local.init w) (p', s)) :
    ∃ tail, Written s tail :=
  have h0 : ∃ tail, Written (Local.init w : Local S) tail :=
    ⟨[], rfl, List.prefix_refl _, fun _ => ⟨rfl, rfl⟩, Or.inl rfl⟩
  (@All.of_preserved S A (fun s => ∃ tail, Written s tail) Written.step p (Local.init w) h0).inv h

/-- What was written is the front of the messages begun. -/
theorem Written.out_prefix {s : Local S} {tail : Bytes} (h : Written s tail) : s.out <+: s.tried.flatMap S.enc := by
  rw [h.out]
  rcases h.front with rfl | ⟨m, hm, hf, -⟩
  · rw [List.append_nil]
    obtain ⟨t, ht⟩ := h.sent
    rw [← ht, List.flatMap_append]
    exact List.prefix_append _ _
  · obtain ⟨t, ht⟩ := hm
    rw [← ht, List.flatMap_append, List.flatMap_append, List.flatMap_cons, List.flatMap_nil, List.append_nil,
      List.append_assoc]
    exact (List.prefix_append_right_inj _).2 (hf.trans (List.prefix_append _ _))

/-- **Once all that was begun has been written, all was sent whole.** -/
theorem Written.sent_eq {s : Local S} {tail : Bytes} (h : Written s tail) {ms : List S.Msg} {m : S.Msg}
    (ht : s.tried = ms ++ [m]) (hm : S.enc m ≠ []) (hall : s.tried.flatMap S.enc <+: s.out) : s.sent = s.tried := by
  obtain ⟨rest, hrest⟩ := h.sent
  have hlen := hall.length_le
  rw [h.out, ← hrest, List.flatMap_append, List.length_append, List.length_append] at hlen
  cases hr : rest with
  | nil => rw [← hrest, hr, List.append_nil]
  | cons x xs =>
    exfalso
    rcases h.front with rfl | ⟨y, hy, -, hl⟩
    · -- the last message is one of the rest
      have hlast : m ∈ rest := by
        have hne : rest ≠ [] := by rw [hr]; exact nofun
        have := List.getLast?_append_of_ne_nil s.sent hne
        rw [hrest, ht, List.getLast?_append_of_ne_nil _ (by exact nofun)] at this
        exact List.mem_of_getLast? this.symm
      have hpos : 0 < (S.enc m).length := List.length_pos_iff.2 hm
      have hle : (S.enc m).length ≤ (rest.flatMap S.enc).length := by
        obtain ⟨a, b, rfl⟩ := List.append_of_mem hlast
        rw [List.flatMap_append, List.flatMap_cons, List.length_append, List.length_append]
        omega
      rw [List.length_nil] at hlen
      omega
    · rw [← hrest, hr] at hy
      obtain ⟨rfl, -⟩ := List.cons_prefix_cons.1 ((List.prefix_append_right_inj _).1 hy)
      rw [hr, List.flatMap_cons, List.length_append] at hlen
      omega

end Written

/-! ## Two programs -/

section Pair

variable {S T : Sig} {A B : Type}

/-- Two programs, the streams between them, and their own surroundings. -/
abbrev Pair (S T : Sig) (A B : Type) := Config S A × Config T B

/-- **One step of either side**, which reads no more than the other has written. -/
inductive Pair.Step : Pair S T A B → Pair S T A B → Prop where
  | left (c c' : Config S A) (d : Config T B) (h : Proc.Step c c') (hr : c'.2.taken <+: d.2.out) :
      Pair.Step (c, d) (c', d)
  | right (c : Config S A) (d d' : Config T B) (h : Proc.Step d d') (hr : d'.2.taken <+: c.2.out) :
      Pair.Step (c, d) (c, d')

/-- The pairs that two programs, started together, can get to. -/
def Pair.Reach (p : Prog S A) (q : Prog T B) (v : S.World) (w : T.World) : Pair S T A B → Prop :=
  Relation.ReflTransGen Pair.Step ((p, Local.init v), (q, Local.init w))

theorem out_prefix_of_step {c c' : Config S A} (h : Proc.Step c c') : c.2.out <+: c'.2.out :=
  Local.out_of_trace h.trace_prefix

/-- **Each side of a reachable pair is a run of its own**, and has read a part of what the other wrote. -/
theorem Pair.reach {p : Prog S A} {q : Prog T B} {v : S.World} {w : T.World} {x : Pair S T A B}
    (h : Pair.Reach p q v w x) : Steps (p, Local.init v) x.1 ∧ Steps (q, Local.init w) x.2 ∧
      x.1.2.taken <+: x.2.2.out ∧ x.2.2.taken <+: x.1.2.out := by
  induction h with
  | refl => exact ⟨.refl, .refl, List.prefix_refl _, List.prefix_refl _⟩
  | tail _ hs ih =>
    obtain ⟨h1, h2, h3, h4⟩ := ih
    cases hs with
    | left c c' d h hr => exact ⟨h1.tail h, h2, hr, h4.trans (out_prefix_of_step h)⟩
    | right c d d' h hr => exact ⟨h1, h2.tail h, h3.trans (out_prefix_of_step h), hr⟩

/-- What one side has read is the front of what the other began to send. -/
theorem Pair.taken_left {p : Prog S A} {q : Prog T B} {v : S.World} {w : T.World} {x : Pair S T A B}
    (h : Pair.Reach p q v w x) : x.1.2.taken <+: x.2.2.tried.flatMap T.enc := by
  obtain ⟨-, h2, h3, -⟩ := Pair.reach h
  obtain ⟨tail, hw⟩ := written_of_steps h2
  exact h3.trans hw.out_prefix

theorem Pair.taken_right {p : Prog S A} {q : Prog T B} {v : S.World} {w : T.World} {x : Pair S T A B}
    (h : Pair.Reach p q v w x) : x.2.2.taken <+: x.1.2.tried.flatMap S.enc := by
  obtain ⟨h1, -, -, h4⟩ := Pair.reach h
  obtain ⟨tail, hw⟩ := written_of_steps h1
  exact h4.trans hw.out_prefix

end Pair
end Proc
