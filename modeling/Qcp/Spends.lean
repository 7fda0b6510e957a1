import Qcp.Utters
/-!
# Spends — programs that have done what they do by the time they have said what they say

The first message that a program keeps gives it a number of messages to begin.  `Spends bad quota Q p o` says that
once it has begun as many it asks for nothing bad any more; `o` is how many are left, when that is known.
`Spends.run` says so of every run.
-/
namespace Proc

open Bare (Bytes)

section Spends

variable {S : Sig} {A B : Type} {bad : S.Op → Prop} {quota : S.Msg → Nat}

/-- **Nothing bad is asked for when no messages are left**, nor any begun before it is known how many there are. -/
def Spends (bad : S.Op → Prop) (quota : S.Msg → Nat) (Q : A → Option Nat → Prop) : Prog S A → Option Nat → Prop
  | .ret a, o => Q a o
  | .send _ k, o => o ≠ none ∧ ∀ r, Spends bad quota Q (k r) (o.map (· - 1))
  | .flush k, o => ∀ r, Spends bad quota Q (k r) o
  | .read _ k, o => ∀ r, Spends bad quota Q (k r) o
  | .fill _ k, o => ∀ r, Spends bad quota Q (k r) o
  | .note m k, o => Spends bad quota Q k (some (o.getD (quota m)))
  | .call op k, o => (o = some 0 → ¬ bad op) ∧ ∀ r, Spends bad quota Q (k r) o
  | .rounds k, o => ∀ n, Spends bad quota Q (k n) o
  | .hang, _ => True

variable {Q R : A → Option Nat → Prop}

theorem Spends.mono (h : ∀ a o, Q a o → R a o) : ∀ {p : Prog S A} {o : Option Nat}, Spends bad quota Q p o →
    Spends bad quota R p o
  | .ret a, o, hp => h a o hp
  | .send _ _, _, hp => ⟨hp.1, fun r => Spends.mono h (hp.2 r)⟩
  | .flush _, _, hp => fun r => Spends.mono h (hp r)
  | .read _ _, _, hp => fun r => Spends.mono h (hp r)
  | .fill _ _, _, hp => fun r => Spends.mono h (hp r)
  | .note _ k, _, hp => Spends.mono (p := k) h hp
  | .call _ _, _, hp => ⟨hp.1, fun r => Spends.mono h (hp.2 r)⟩
  | .rounds _, _, hp => fun n => Spends.mono h (hp n)
  | .hang, _, _ => trivial

theorem Spends.bind {Q : B → Option Nat → Prop} {f : A → Prog S B} : ∀ {p : Prog S A} {o : Option Nat},
    Spends bad quota (fun a o => Spends bad quota Q (f a) o) p o → Spends bad quota Q (p.bind f) o
  | .ret _, _, h => h
  | .send _ _, _, h => ⟨h.1, fun r => Spends.bind (h.2 r)⟩
  | .flush _, _, h => fun r => Spends.bind (h r)
  | .read _ _, _, h => fun r => Spends.bind (h r)
  | .fill _ _, _, h => fun r => Spends.bind (h r)
  | .note _ k, _, h => Spends.bind (p := k) h
  | .call _ _, _, h => ⟨h.1, fun r => Spends.bind (h.2 r)⟩
  | .rounds _, _, h => fun n => Spends.bind (h n)
  | .hang, _, _ => trivial

/-- What asks for nothing bad at all. -/
theorem Spends.of_avoids : ∀ {p : Prog S A} {n : Nat}, Avoids bad p → Spends bad quota (fun _ _ => True) p (some n)
  | .ret _, _, _ => trivial
  | .send _ _, _, h => ⟨nofun, fun r => Spends.of_avoids (h r)⟩
  | .flush _, _, h => fun r => Spends.of_avoids (h r)
  | .read _ _, _, h => fun r => Spends.of_avoids (h r)
  | .fill _ _, _, h => fun r => Spends.of_avoids (h r)
  | .note _ k, _, h => Spends.of_avoids (p := k) h
  | .call _ _, _, h => ⟨fun _ => h.1, fun r => Spends.of_avoids (h.2 r)⟩
  | .rounds _, _, h => fun n => Spends.of_avoids (h n)
  | .hang, _, _ => trivial

/-- With no messages left there is nothing bad. -/
theorem Spends.avoids : ∀ {p : Prog S A}, Spends bad quota Q p (some 0) → Avoids bad p
  | .ret _, _ => trivial
  | .send _ _, h => fun r => Spends.avoids (h.2 r)
  | .flush _, h => fun r => Spends.avoids (h r)
  | .read _ _, h => fun r => Spends.avoids (h r)
  | .fill _ _, h => fun r => Spends.avoids (h r)
  | .note _ k, h => Spends.avoids (p := k) h
  | .call _ _, h => ⟨h.1 rfl, fun r => Spends.avoids (h.2 r)⟩
  | .rounds _, h => fun n => Spends.avoids (h n)
  | .hang, _ => trivial

/-- **What says nothing leaves as many as there were.** -/
theorem Spends.silent : ∀ {p : Prog S A} {n : Nat}, Utters (fun _ => False) p →
    Spends bad quota (fun _ o => o = some (n + 1)) p (some (n + 1))
  | .ret _, _, _ => rfl
  | .send _ _, _, h => h.1.elim
  | .flush _, _, h => fun r => Spends.silent (h r)
  | .read _ _, _, h => fun r => Spends.silent (h r)
  | .fill _ _, _, h => fun r => Spends.silent (h r)
  | .note _ k, _, h => Spends.silent (p := k) h
  | .call _ _, _, h => ⟨nofun, fun r => Spends.silent (h r)⟩
  | .rounds _, _, h => fun n => Spends.silent (h n)
  | .hang, _, _ => trivial

/-- How many messages are left, in a state: as many as the first that was kept gave, less those that were begun. -/
def Leaves (quota : S.Msg → Nat) (s : Local S) : Option Nat → Prop
  | none => s.got = [] ∧ s.tried = []
  | some n => ∃ m, s.got.head? = some m ∧ n = quota m - s.tried.length

theorem Spends.step {c c' : Config S A} {o : Option Nat} (h : Spends bad quota Q c.1 o) (hl : Leaves quota c.2 o)
    (hs : Step c c') : ∃ o', Spends bad quota Q c'.1 o' ∧ Leaves quota c'.2 o' := by
  have same : ∀ {s s' : Local S} {o : Option Nat}, s'.got = s.got → s'.tried = s.tried → Leaves quota s o →
      Leaves quota s' o := by
    intro s s' o hg ht hl
    cases o with
    | none => exact ⟨hg.trans hl.1, ht.trans hl.2⟩
    | some n =>
      obtain ⟨m, hm, hn⟩ := hl
      exact ⟨m, by rw [hg, hm], by rw [ht, hn]⟩
  have begun : ∀ {s s' : Local S} {o : Option Nat} (m : S.Msg), o ≠ none → s'.got = s.got → s'.tried = s.tried ++ [m] →
      Leaves quota s o → Leaves quota s' (o.map (· - 1)) := by
    intro s s' o _ ho hg ht hl
    cases o with
    | none => exact absurd rfl ho
    | some n =>
      obtain ⟨m, hm, rfl⟩ := hl
      refine ⟨m, by rw [hg, hm], ?_⟩
      rw [ht, List.length_append, List.length_singleton]
      exact Nat.sub_sub ..
  cases hs with
  | sent m k s hlost => exact ⟨_, h.2 _, begun m h.1 (by simp [Event.got?]) (by simp [Event.tried?]) hl⟩
  | cut m k s f front hp hlen hs =>
    exact ⟨_, h.2 _, begun m h.1 (by simp [Event.got?]) (by simp [Event.tried?]) hl⟩
  | flush k s r => exact ⟨o, h r, hl⟩
  | read n k s bs hr hlen => exact ⟨o, h _, same (by simp [Event.got?]) (by simp [Event.tried?]) hl⟩
  | short n k s f bs hlen hs => exact ⟨o, h _, same (by simp [Event.got?]) (by simp [Event.tried?]) hl⟩
  | fill c k s bs hr hn hlen => exact ⟨o, h _, same (by simp [Event.got?]) (by simp [Event.tried?]) hl⟩
  | atEnd c k s => exact ⟨o, h _, hl⟩
  | noRoom k s => exact ⟨o, h _, hl⟩
  | fillError c k s f => exact ⟨o, h _, hl⟩
  | note m k s =>
    refine ⟨_, h, ?_⟩
    cases o with
    | none => exact ⟨m, by simp [Event.got?, hl.1], by simp [Event.tried?, hl.2]⟩
    | some n =>
      obtain ⟨m', hm', hn⟩ := hl
      exact ⟨m', by simp [Event.got?, hm'], by simpa [Event.tried?] using hn⟩
  | call op k s r w hw => exact ⟨o, h.2 r, same (by simp [Event.got?]) (by simp [Event.tried?]) hl⟩
  | rounds k s n => exact ⟨o, h n, hl⟩

/-- **A program that has begun all its messages** asks for nothing bad any more. -/
theorem Spends.run {p : Prog S A} {w : S.World} {c : Config S A} (hp : Spends bad quota Q p none)
    (hs : Steps (p, Local.init w) c) {m : S.Msg} (hm : c.2.got.head? = some m) (hall : quota m ≤ c.2.tried.length) :
    Avoids bad c.1 := by
  obtain ⟨o, ho, hl⟩ : ∃ o, Spends bad quota Q c.1 o ∧ Leaves quota c.2 o := by
    clear hm hall
    induction hs with
    | refl => exact ⟨none, hp, rfl, rfl⟩
    | tail _ h ih =>
      obtain ⟨o, ho, hl⟩ := ih
      exact ho.step hl h
  cases o with
  | none =>
    rw [hl.1] at hm
    cases hm
  | some n =>
    obtain ⟨m', hm', rfl⟩ := hl
    cases hm.symm.trans hm'
    rw [Nat.sub_eq_zero_of_le hall] at ho
    exact ho.avoids

/-- What asks for nothing bad goes on so. -/
theorem Avoids.step {c c' : Config S A} (h : Avoids bad c.1) (hs : Step c c') : Avoids bad c'.1 := by
  cases hs with
  | sent m k s hl => exact h _
  | cut m k s f front hp hl hs => exact h _
  | flush k s r => exact h r
  | read n k s bs hr hl => exact h _
  | short n k s f bs hl hs => exact h _
  | fill c k s bs hr hn hl => exact h _
  | atEnd c k s => exact h _
  | noRoom k s => exact h _
  | fillError c k s f => exact h _
  | note m k s => exact h
  | call op k s r w hw => exact h.2 r
  | rounds k s n => exact h n

end Spends

section Tasks

variable {S : Sig} {E A B : Type} {bad : S.Op → Prop} {quota : S.Msg → Nat}

/-- **A task after another**: an error of the first is the outcome. -/
theorem Spends.then {Q : Except E B → Option Nat → Prop} {R : Except E A → Option Nat → Prop} {p : Task S E A}
    {f : A → Task S E B} {o : Option Nat} (hp : Spends bad quota R p o)
    (hok : ∀ a o', R (.ok a) o' → Spends bad quota Q (f a) o') (herr : ∀ e o', R (.error e) o' → Q (.error e) o') :
    Spends bad quota Q (p >>= f : Task S E B) o := by
  refine Spends.bind (hp.mono fun r o' hr => ?_)
  cases r with
  | ok a => exact hok a o' hr
  | error e => exact herr e o' hr

/-- Behind a task that says nothing. -/
theorem Spends.behind {p : Task S E A} {f : A → Task S E B} {n : Nat} (hp : Utters (fun _ => False) p)
    (hf : ∀ a, Spends bad quota (fun _ _ => True) (f a) (some (n + 1))) :
    Spends bad quota (fun _ _ => True) (p >>= f : Task S E B) (some (n + 1)) := by
  refine Spends.then (Spends.silent hp) ?_ fun _ _ _ => trivial
  rintro a _ rfl
  exact hf a

end Tasks
end Proc
