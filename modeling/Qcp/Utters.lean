import Qcp.Avoids
/-!
# Utters — programs that say only some things

`Utters good p` says that every message `p` begins to send is `good`.  Like `Avoids` it composes along programs; a step
keeps it (`Utters.step`), and so in all runs what was begun is good (`Utters.run`).
-/
namespace Proc

open Bare (Bytes)

section Utters

variable {S : Sig} {A B : Type} {good : S.Msg → Prop}

/-- **A program that says only good things.** -/
def Utters (good : S.Msg → Prop) : Prog S A → Prop
  | .ret _ => True
  | .send m k => good m ∧ ∀ r, Utters good (k r)
  | .flush k => ∀ r, Utters good (k r)
  | .read _ k => ∀ r, Utters good (k r)
  | .fill _ k => ∀ r, Utters good (k r)
  | .note _ k => Utters good k
  | .call _ k => ∀ r, Utters good (k r)
  | .rounds k => ∀ n, Utters good (k n)
  | .hang => True

theorem Utters.bind {f : A → Prog S B} (hf : ∀ a, Utters good (f a)) : ∀ {p : Prog S A}, Utters good p →
    Utters good (p.bind f)
  | .ret a, _ => hf a
  | .send _ _, h => ⟨h.1, fun r => Utters.bind hf (h.2 r)⟩
  | .flush _, h => fun r => Utters.bind hf (h r)
  | .read _ _, h => fun r => Utters.bind hf (h r)
  | .fill _ _, h => fun r => Utters.bind hf (h r)
  | .note _ k, h => Utters.bind (p := k) hf h
  | .call _ _, h => fun r => Utters.bind hf (h r)
  | .rounds _, h => fun n => Utters.bind hf (h n)
  | .hang, _ => trivial

theorem Local.mem_tried_push {s : Local S} {e : Event S} {m : S.Msg} (h : m ∈ (s.push e).tried) :
    m ∈ s.tried ∨ e.tried? = some m := by
  rw [Local.tried_push, List.mem_append] at h
  simpa using h

/-- **A step keeps to what is good**, in what is still to be said and in what was. -/
theorem Utters.step {c c' : Config S A} (h : Utters good c.1 ∧ ∀ m ∈ c.2.tried, good m) (hs : Step c c') :
    Utters good c'.1 ∧ ∀ m ∈ c'.2.tried, good m := by
  have other : ∀ {s : Local S} {e : Event S}, e.tried? = none → (∀ m ∈ s.tried, good m) →
      ∀ m ∈ (s.push e).tried, good m := by
    intro s e he hall m hm
    rcases Local.mem_tried_push hm with hm | hm
    · exact hall m hm
    · rw [he] at hm
      cases hm
  have begun : ∀ {s : Local S} {e : Event S} {m : S.Msg}, e.tried? = some m → good m → (∀ m ∈ s.tried, good m) →
      ∀ m ∈ (s.push e).tried, good m := by
    intro s e m he hg hall m' hm
    rcases Local.mem_tried_push hm with hm | hm
    · exact hall m' hm
    · rw [he] at hm
      cases hm
      exact hg
  obtain ⟨hp, ht⟩ := h
  cases hs with
  | sent m k s hl => exact ⟨hp.2 _, begun rfl hp.1 ht⟩
  | cut m k s f front hpre hlen hs => exact ⟨hp.2 _, begun rfl hp.1 ht⟩
  | flush k s r => exact ⟨hp r, ht⟩
  | read n k s bs hr hl => exact ⟨hp _, other rfl ht⟩
  | short n k s f bs hl hs => exact ⟨hp _, other rfl ht⟩
  | fill c k s bs hr hn hl => exact ⟨hp _, other rfl ht⟩
  | atEnd c k s => exact ⟨hp _, ht⟩
  | noRoom k s => exact ⟨hp _, ht⟩
  | fillError c k s f => exact ⟨hp _, ht⟩
  | note m k s => exact ⟨hp, other rfl ht⟩
  | call op k s r w hw => exact ⟨hp r, other rfl ht⟩
  | rounds k s n => exact ⟨hp n, ht⟩

/-- **In every state of every run, all that was begun is good.** -/
theorem Utters.run {p : Prog S A} {w : S.World} {c : Config S A} (hp : Utters good p)
    (hs : Steps (p, Local.init w) c) : ∀ m ∈ c.2.tried, good m := by
  have hinv : Utters good c.1 ∧ ∀ m ∈ c.2.tried, good m := by
    induction hs with
    | refl => exact ⟨hp, fun m hm => by cases hm⟩
    | tail _ h ih => exact Utters.step ih h
  exact hinv.2

end Utters

section Tasks

variable {S : Sig} {E A B : Type} {good : S.Msg → Prop}

theorem Utters.pure (a : A) : Utters good (pure a : Task S E A) := trivial

theorem Utters.fail (e : E) : Utters good (Task.fail e : Task S E A) := trivial

theorem Utters.then {p : Task S E A} {f : A → Task S E B} (hp : Utters good p) (hf : ∀ a, Utters good (f a)) :
    Utters good (p >>= f : Task S E B) := by
  apply Utters.bind _ hp
  intro r
  cases r with
  | ok a => exact hf a
  | error e => exact trivial

theorem Utters.send {m : S.Msg} (h : good m) : Utters good (Task.send m : Task S E (Except S.Fault Unit)) :=
  ⟨h, fun _ => trivial⟩

theorem Utters.flush : Utters good (Task.flush : Task S E (Except S.Fault Unit)) := fun _ => trivial

theorem Utters.read (n : Nat) : Utters good (Task.read n : Task S E (Except S.Fault Bytes)) := fun _ => trivial

theorem Utters.fill (n : Nat) : Utters good (Task.fill n : Task S E (Except S.Fault Bytes)) := fun _ => trivial

theorem Utters.note (m : S.Msg) : Utters good (Task.note m : Task S E Unit) := trivial

theorem Utters.call (op : S.Op) : Utters good (Task.call op : Task S E (S.Ret op)) := fun _ => trivial

theorem Utters.loop {σ : Type} {body : σ → Task S E (σ ⊕ A)} (h : ∀ x, Utters good (body x)) (x : σ) :
    Utters good (Task.loop body x) := by
  intro n
  induction n generalizing x with
  | zero => exact trivial
  | succ n ih =>
    apply Utters.then (h x)
    intro r
    cases r with
    | inl y => exact ih y
    | inr a => exact trivial

end Tasks
end Proc
