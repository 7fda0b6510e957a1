import Qcp.Avoids
/-!
# Crowd — programs side by side in one world

A `Crowd` is any number of programs that share their surroundings and have a stream each; they take their steps in any
order, and more may join.  `Amid` says what holds of what a program has read and asked for, whatever becomes of the
world between its steps: of the outcome of an operation it knows that it is one there `can` be.  `Crowd.each` says
that this holds of every program of a crowd; `Crowd.changed` that what is not as it was has been changed by one of
them.
-/
namespace Proc

open Bare (Bytes)

/-! ## Whatever the others do -/

/-- What a program has kept of what it read, and what it has asked for. -/
structure Record (S : Sig) where
  got : List S.Msg
  done : List (Σ op, S.Ret op)

section Amid

variable {S : Sig} {A B : Type}

def Record.empty : Record S := ⟨[], []⟩

def Record.keep (k : Record S) (m : S.Msg) : Record S := { k with got := k.got ++ [m] }

def Record.did (k : Record S) (e : Σ op, S.Ret op) : Record S := { k with done := k.done ++ [e] }

def Local.record (s : Local S) : Record S := ⟨s.got, s.done⟩

/-- **`I` all along and `Q` where the program ends**, if the outcome of every operation is one that can be. -/
def AllAmid (can : (op : S.Op) → S.Ret op → Prop) (I : Record S → Prop) (Q : A → Record S → Prop) :
    Prog S A → Record S → Prop
  | .ret a, k => I k ∧ Q a k
  | .send _ g, k => I k ∧ ∀ r, AllAmid can I Q (g r) k
  | .flush g, k => I k ∧ ∀ r, AllAmid can I Q (g r) k
  | .read _ g, k => I k ∧ ∀ r, AllAmid can I Q (g r) k
  | .fill _ g, k => I k ∧ ∀ r, AllAmid can I Q (g r) k
  | .note m p, k => I k ∧ AllAmid can I Q p (k.keep m)
  | .call op g, k => I k ∧ ∀ r, can op r → AllAmid can I Q (g r) (k.did ⟨op, r⟩)
  | .rounds g, k => I k ∧ ∀ n, AllAmid can I Q (g n) k
  | .hang, k => I k

variable {can : (op : S.Op) → S.Ret op → Prop} {I J : Record S → Prop} {Q R : A → Record S → Prop}

theorem AllAmid.now : ∀ {p : Prog S A} {k : Record S}, AllAmid can I Q p k → I k
  | .ret _, _, h => h.1
  | .send _ _, _, h => h.1
  | .flush _, _, h => h.1
  | .read _ _, _, h => h.1
  | .fill _ _, _, h => h.1
  | .note _ _, _, h => h.1
  | .call _ _, _, h => h.1
  | .rounds _, _, h => h.1
  | .hang, _, h => h

/-- A step in a world, of the operations of which this is known. -/
theorem AllAmid.step {c c' : Config S A} (h : AllAmid can I Q c.1 c.2.record)
    (hcan : ∀ op r w, S.sem c.2.world op r w → can op r) (hs : Step c c') : AllAmid can I Q c'.1 c'.2.record := by
  cases hs with
  | sent m g s hl => simpa [Local.record, Event.got?, Event.done?] using h.2 (.ok ())
  | cut m g s f front hp hl hs => simpa [Local.record, Event.got?, Event.done?] using h.2 (.error f)
  | flush g s r => exact h.2 r
  | read n g s bs hr hl => simpa [Local.record, Event.got?, Event.done?] using h.2 (.ok bs)
  | short n g s f bs hl hs => simpa [Local.record, Event.got?, Event.done?] using h.2 (.error f)
  | fill c g s bs hr hn hl => simpa [Local.record, Event.got?, Event.done?] using h.2 (.ok bs)
  | atEnd c g s => exact h.2 (.ok [])
  | noRoom g s => exact h.2 (.ok [])
  | fillError c g s f => exact h.2 (.error f)
  | note m g s => simpa [Local.record, Record.keep, Event.got?, Event.done?] using h.2
  | call op g s r w hw => simpa [Local.record, Record.did, Event.got?, Event.done?] using h.2 r (hcan op r w hw)
  | rounds g s n => exact h.2 n

theorem AllAmid.mono (hI : ∀ k, I k → J k) (hQ : ∀ a k, I k → Q a k → R a k) : ∀ {p : Prog S A} {k : Record S},
    AllAmid can I Q p k → AllAmid can J R p k
  | .ret a, k, h => ⟨hI k h.1, hQ a k h.1 h.2⟩
  | .send _ _, k, h => ⟨hI k h.1, fun r => AllAmid.mono hI hQ (h.2 r)⟩
  | .flush _, k, h => ⟨hI k h.1, fun r => AllAmid.mono hI hQ (h.2 r)⟩
  | .read _ _, k, h => ⟨hI k h.1, fun r => AllAmid.mono hI hQ (h.2 r)⟩
  | .fill _ _, k, h => ⟨hI k h.1, fun r => AllAmid.mono hI hQ (h.2 r)⟩
  | .note _ _, k, h => ⟨hI k h.1, AllAmid.mono hI hQ h.2⟩
  | .call _ _, k, h => ⟨hI k h.1, fun r hr => AllAmid.mono hI hQ (h.2 r hr)⟩
  | .rounds _, k, h => ⟨hI k h.1, fun n => AllAmid.mono hI hQ (h.2 n)⟩
  | .hang, k, h => hI k h

theorem AllAmid.bind {Q : B → Record S → Prop} {f : A → Prog S B} : ∀ {p : Prog S A} {k : Record S},
    AllAmid can I (fun a k => AllAmid can I Q (f a) k) p k → AllAmid can I Q (p.bind f) k
  | .ret _, _, h => h.2
  | .send _ _, _, h => ⟨h.1, fun r => AllAmid.bind (h.2 r)⟩
  | .flush _, _, h => ⟨h.1, fun r => AllAmid.bind (h.2 r)⟩
  | .read _ _, _, h => ⟨h.1, fun r => AllAmid.bind (h.2 r)⟩
  | .fill _ _, _, h => ⟨h.1, fun r => AllAmid.bind (h.2 r)⟩
  | .note _ _, _, h => ⟨h.1, AllAmid.bind h.2⟩
  | .call _ _, _, h => ⟨h.1, fun r hr => AllAmid.bind (h.2 r hr)⟩
  | .rounds _, _, h => ⟨h.1, fun n => AllAmid.bind (h.2 n)⟩
  | .hang, _, h => h

/-- **A program that asks for nothing bad**: what the rest preserves holds all along. -/
theorem AllAmid.of_avoids {bad : S.Op → Prop} (hkeep : ∀ k m, I k → I (k.keep m))
    (hdid : ∀ k op r, ¬ bad op → I k → I (k.did ⟨op, r⟩)) : ∀ {p : Prog S A} {k : Record S}, Avoids bad p → I k →
    AllAmid can I (fun _ _ => True) p k
  | .ret _, _, _, h => ⟨h, trivial⟩
  | .send _ _, _, hp, h => ⟨h, fun r => AllAmid.of_avoids hkeep hdid (hp r) h⟩
  | .flush _, _, hp, h => ⟨h, fun r => AllAmid.of_avoids hkeep hdid (hp r) h⟩
  | .read _ _, _, hp, h => ⟨h, fun r => AllAmid.of_avoids hkeep hdid (hp r) h⟩
  | .fill _ _, _, hp, h => ⟨h, fun r => AllAmid.of_avoids hkeep hdid (hp r) h⟩
  | .note m p, k, hp, h => ⟨h, AllAmid.of_avoids (p := p) hkeep hdid hp (hkeep k m h)⟩
  | .call op _, k, hp, h => ⟨h, fun r _ => AllAmid.of_avoids hkeep hdid (hp.2 r) (hdid k op r hp.1 h)⟩
  | .rounds _, _, hp, h => ⟨h, fun n => AllAmid.of_avoids hkeep hdid (hp n) h⟩
  | .hang, _, _, h => h

end Amid

/-! ## Tasks -/

section Tasks

variable {S : Sig} {E A B : Type} {can : (op : S.Op) → S.Ret op → Prop} {I : Record S → Prop} {k : Record S}

/-- **What a task establishes when it succeeds**, whatever becomes of the world meanwhile. -/
def Amid (can : (op : S.Op) → S.Ret op → Prop) (I : Record S → Prop) (Q : A → Record S → Prop) (p : Task S E A)
    (k : Record S) : Prop := AllAmid can I (fun r k => ∀ a, r = .ok a → Q a k) p k

theorem Amid.mono {J : Record S → Prop} {Q R : A → Record S → Prop} {p : Task S E A} (h : Amid can I Q p k)
    (hI : ∀ k, I k → J k) (hQ : ∀ a k, I k → Q a k → R a k) : Amid can J R p k :=
  AllAmid.mono hI (fun _ _ hi hq a ha => hQ a _ hi (hq a ha)) h

theorem Amid.pure {Q : A → Record S → Prop} {a : A} (hi : I k) (hq : Q a k) : Amid can I Q (pure a : Task S E A) k :=
  ⟨hi, fun b hb => by cases hb; exact hq⟩

theorem Amid.fail {Q : A → Record S → Prop} {e : E} (hi : I k) : Amid can I Q (Task.fail e : Task S E A) k :=
  ⟨hi, nofun⟩

theorem Amid.then {Q : B → Record S → Prop} {p : Task S E A} {f : A → Task S E B}
    (h : Amid can I (fun a k => Amid can I Q (f a) k) p k) : Amid can I Q (p >>= f : Task S E B) k := by
  refine AllAmid.bind (AllAmid.mono (fun _ h => h) (fun r k' hi hq => ?_) h)
  cases r with
  | ok a => exact hq a rfl
  | error e => exact ⟨hi, nofun⟩

theorem Amid.attempt {Q : A → Record S → Prop} {R : Except E A → Record S → Prop} {p : Task S E A}
    (h : Amid can I Q p k)
    (hok : ∀ a k, I k → Q a k → R (.ok a) k) (herr : ∀ e k, I k → R (.error e) k) : Amid can I R p.attempt k := by
  refine AllAmid.bind (AllAmid.mono (fun _ h => h) (fun r k' hi hq => ⟨hi, ?_⟩) h)
  rintro _ ⟨⟩
  cases r with
  | ok a => exact hok a k' hi (hq a rfl)
  | error e => exact herr e k' hi

theorem Amid.read {Q : Except S.Fault Bytes → Record S → Prop} {n : Nat} (hi : I k) (h : ∀ r, Q r k) :
    Amid can I Q (Task.read n : Task S E (Except S.Fault Bytes)) k := ⟨hi, fun r => Amid.pure hi (h r)⟩

theorem Amid.fill {Q : Except S.Fault Bytes → Record S → Prop} {c : Nat} (hi : I k) (h : ∀ r, Q r k) :
    Amid can I Q (Task.fill c : Task S E (Except S.Fault Bytes)) k := ⟨hi, fun r => Amid.pure hi (h r)⟩

theorem Amid.note {Q : Unit → Record S → Prop} {m : S.Msg} (hi : I k) (hi' : I (k.keep m)) (h : Q () (k.keep m)) :
    Amid can I Q (Task.note m : Task S E Unit) k := ⟨hi, Amid.pure hi' h⟩

theorem Amid.call {op : S.Op} {Q : S.Ret op → Record S → Prop} (hi : I k) (hi' : ∀ r, can op r → I (k.did ⟨op, r⟩))
    (h : ∀ r, can op r → Q r (k.did ⟨op, r⟩)) : Amid can I Q (Task.call op : Task S E (S.Ret op)) k :=
  ⟨hi, fun r hr => Amid.pure (hi' r hr) (h r hr)⟩

theorem Amid.of_avoids {bad : S.Op → Prop} {p : Task S E A} (hp : Avoids bad p) (hkeep : ∀ k m, I k → I (k.keep m))
    (hdid : ∀ k op r, ¬ bad op → I k → I (k.did ⟨op, r⟩)) (hi : I k) : Amid can I (fun _ _ => True) p k :=
  AllAmid.mono (fun _ h => h) (fun _ _ _ _ _ _ => trivial) (AllAmid.of_avoids hkeep hdid hp hi)

end Tasks

/-! ## Crowds -/

/-- Programs, with a stream each, in one world. -/
structure Crowd (S : Sig) (A : Type) where
  world : S.World
  members : List (Config S A)

/-- **One of them takes a step**, in the world as it is. -/
inductive Crowd.Move {S : Sig} {A : Type} : Crowd S A → Crowd S A → Prop where
  | turn (w : S.World) (front : List (Config S A)) (c c' : Config S A) (back : List (Config S A))
      (h : Proc.Step (c.1, c.2.inWorld w) c') : Move ⟨w, front ++ c :: back⟩ ⟨c'.2.world, front ++ c' :: back⟩

/-- One more, that sets out with the program. -/
def Crowd.join {S : Sig} {A : Type} (p : Prog S A) (x : Crowd S A) : Crowd S A :=
  { x with members := x.members ++ [(p, Local.init x.world)] }

inductive Crowd.Step {S : Sig} {A : Type} (p : Prog S A) : Crowd S A → Crowd S A → Prop where
  | joins (x : Crowd S A) : Step p x (x.join p)
  | moves {x y : Crowd S A} (h : Crowd.Move x y) : Step p x y

def Crowd.Reach {S : Sig} {A : Type} (p : Prog S A) (w : S.World) : Crowd S A → Prop :=
  Relation.ReflTransGen (Crowd.Step p) ⟨w, []⟩

section Crowds

variable {S : Sig} {A : Type} {p : Prog S A} {w : S.World} {x : Crowd S A}

theorem mem_replaced {α : Type} {front back : List α} {c c' d : α} (h : d ∈ front ++ c' :: back) :
    d = c' ∨ d ∈ front ++ c :: back := by
  rcases List.mem_append.1 h with h | h
  · exact Or.inr (List.mem_append_left _ h)
  · exact (List.mem_cons.1 h).imp id fun h => List.mem_append_right _ (List.mem_cons_of_mem _ h)

/-- A step leaves the world as it is, or is an operation. -/
theorem world_of_step {c c' : Config S A} (h : Proc.Step c c') :
    c'.2.world = c.2.world ∨ ∃ op r, S.sem c.2.world op r c'.2.world ∧ ⟨op, r⟩ ∈ c'.2.done := by
  cases h with
  | call op g s r v hsem => exact Or.inr ⟨op, r, hsem, by simp [Event.done?]⟩
  | _ => exact Or.inl rfl

/-- The world of a crowd is one that operations lead to. -/
theorem Crowd.world_of_reach {P : S.World → Prop} (hw : P w) (hP : ∀ v op r v', P v → S.sem v op r v' → P v')
    (hr : Crowd.Reach p w x) : P x.world := by
  induction hr with
  | refl => exact hw
  | tail _ hs ih =>
    cases hs with
    | joins => exact ih
    | moves h =>
      obtain ⟨v, front, c, c', back, h⟩ := h
      rcases world_of_step h with hsame | ⟨op, r, hsem, -⟩
      · exact hsame ▸ ih
      · exact hP _ op r _ ih hsem

/-- **What holds of the program whatever the others do, holds of each in a crowd.** -/
theorem Crowd.each {can : (op : S.Op) → S.Ret op → Prop} {I : Record S → Prop} {Q : A → Record S → Prop}
    {P : S.World → Prop} (hw : P w) (hP : ∀ v op r v', P v → S.sem v op r v' → P v')
    (hcan : ∀ v op r v', P v → S.sem v op r v' → can op r) (hp : AllAmid can I Q p .empty) (hr : Crowd.Reach p w x) :
    ∀ c ∈ x.members, AllAmid can I Q c.1 c.2.record := by
  induction hr with
  | refl => exact fun c hc => absurd hc List.not_mem_nil
  | tail hreach hs ih =>
    have hworld := Crowd.world_of_reach hw hP hreach
    cases hs with
    | joins =>
      intro c hc
      rcases List.mem_append.1 hc with hc | hc
      · exact ih c hc
      · rw [List.mem_singleton.1 hc]
        exact hp
    | moves h =>
      obtain ⟨v, front, c, c', back, h⟩ := h
      intro d hd
      rcases mem_replaced (c := c) hd with rfl | hd
      · exact AllAmid.step (c := (c.1, c.2.inWorld v)) (ih c (List.mem_append_right _ List.mem_cons_self))
          (fun op r v' hsem => hcan v op r v' hworld hsem) h
      · exact ih d hd

/-- What one has asked for it has asked for, whatever comes next. -/
theorem done_prefix_of_step {c c' : Config S A} (h : Proc.Step c c') : c.2.done <+: c'.2.done :=
  Local.done_of_trace h.trace_prefix

/-- **What is not as it was, one of them has changed.** -/
theorem Crowd.changed {ι β : Type} (look : S.World → ι → β) (alters : (Σ op, S.Ret op) → ι → Prop)
    (hframe : ∀ v op r v' i, S.sem v op r v' → ¬ alters ⟨op, r⟩ i → look v' i = look v i)
    (hr : Crowd.Reach p w x) {i : ι}
    (hi : look x.world i ≠ look w i) : ∃ c ∈ x.members, ∃ e ∈ c.2.done, alters e i := by
  induction hr with
  | refl => exact absurd rfl hi
  | tail _ hs ih =>
    cases hs with
    | joins =>
      obtain ⟨c, hc, he⟩ := ih hi
      exact ⟨c, List.mem_append_left _ hc, he⟩
    | moves h =>
      obtain ⟨v, front, c, c', back, h⟩ := h
      by_cases hsame : look c'.2.world i = look v i
      · obtain ⟨d, hd, e, he, ha⟩ := ih (by rwa [← hsame])
        by_cases hdc : d = c
        · subst hdc
          exact ⟨c', List.mem_append_right _ List.mem_cons_self, e, (done_prefix_of_step h).subset he, ha⟩
        · refine ⟨d, ?_, e, he, ha⟩
          rcases List.mem_append.1 hd with hd | hd
          · exact List.mem_append_left _ hd
          · exact List.mem_append_right _ (List.mem_cons_of_mem _ ((List.mem_cons.1 hd).resolve_left hdc))
      · rcases world_of_step h with hw | ⟨op, r, hsem, hdone⟩
        · exact absurd (congrArg (look · i) hw) hsame
        · exact ⟨c', List.mem_append_right _ List.mem_cons_self, ⟨op, r⟩, hdone,
            by_contra fun hn => hsame (hframe v op r _ i hsem hn)⟩

end Crowds
end Proc
