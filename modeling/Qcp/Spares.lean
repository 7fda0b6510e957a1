import Qcp.Proc
/-!
# Spares — tasks that do not fail in some ways

`Spares bad p` says that the task `p` does not fail with an error that is `bad`, whatever it is told by its streams
and its surroundings, and composes along tasks.  `Bears P bad g p` says less, of a task that has got the messages `g`:
it does not fail so in a run in which what it gets is such that `P` (`Bears.run`).  What it notes counts
(`Bears.note`), and a task that has got what it should not may fail as it likes (`Bears.of_not`).
-/
namespace Proc

/-- Whatever a program is told, it comes to nothing but this. -/
def Returns {S : Sig} {A : Type} (P : A → Prop) : Prog S A → Prop
  | .ret a => P a
  | .send _ k => ∀ r, Returns P (k r)
  | .flush k => ∀ r, Returns P (k r)
  | .read _ k => ∀ r, Returns P (k r)
  | .fill _ k => ∀ r, Returns P (k r)
  | .note _ k => Returns P k
  | .call _ k => ∀ r, Returns P (k r)
  | .rounds k => ∀ n, Returns P (k n)
  | .hang => True

section Returns

variable {S : Sig} {A B : Type} {P : A → Prop}

theorem Returns.bind {Q : B → Prop} {f : A → Prog S B} : ∀ {p : Prog S A}, Returns (fun a => Returns Q (f a)) p →
    Returns Q (p.bind f)
  | .ret _, h => h
  | .send _ _, h => fun r => Returns.bind (h r)
  | .flush _, h => fun r => Returns.bind (h r)
  | .read _ _, h => fun r => Returns.bind (h r)
  | .fill _ _, h => fun r => Returns.bind (h r)
  | .note _ k, h => Returns.bind (p := k) h
  | .call _ _, h => fun r => Returns.bind (h r)
  | .rounds _, h => fun n => Returns.bind (h n)
  | .hang, _ => trivial

theorem Returns.mono {Q : A → Prop} (hQ : ∀ a, P a → Q a) : ∀ {p : Prog S A}, Returns P p → Returns Q p
  | .ret a, h => hQ a h
  | .send _ _, h => fun r => Returns.mono hQ (h r)
  | .flush _, h => fun r => Returns.mono hQ (h r)
  | .read _ _, h => fun r => Returns.mono hQ (h r)
  | .fill _ _, h => fun r => Returns.mono hQ (h r)
  | .note _ k, h => Returns.mono (p := k) hQ h
  | .call _ _, h => fun r => Returns.mono hQ (h r)
  | .rounds _, h => fun n => Returns.mono hQ (h n)
  | .hang, _ => trivial

theorem Returns.all : ∀ {p : Prog S A} {s : Local S}, Returns P p → All (fun _ => True) (fun a _ => P a) p s
  | .ret _, _, h => ⟨trivial, h⟩
  | .send _ _, _, h => ⟨trivial, fun _ => Returns.all (h _), fun _ _ _ _ _ => Returns.all (h _)⟩
  | .flush _, _, h => ⟨trivial, fun r => Returns.all (h r)⟩
  | .read _ _, _, h => ⟨trivial, fun _ _ _ => Returns.all (h _), fun _ _ _ _ => Returns.all (h _)⟩
  | .fill _ _, _, h => ⟨trivial, fun _ _ _ _ => Returns.all (h _), Returns.all (h _), fun _ => Returns.all (h _),
      fun _ => Returns.all (h _)⟩
  | .note _ k, _, h => ⟨trivial, Returns.all (p := k) h⟩
  | .call _ _, _, h => ⟨trivial, fun r _ _ => Returns.all (h r)⟩
  | .rounds _, _, h => ⟨trivial, fun n => Returns.all (h n)⟩
  | .hang, _, _ => trivial

end Returns

section Spares

variable {S : Sig} {E A B : Type} {bad : E → Prop}

/-- **A task that does not fail so.** -/
def Spares (bad : E → Prop) (p : Task S E A) : Prop := Returns (fun r => ∀ e, r = .error e → ¬ bad e) p

theorem Spares.pure (a : A) : Spares bad (pure a : Task S E A) := nofun

theorem Spares.fail {e : E} (h : ¬ bad e) : Spares bad (Task.fail e : Task S E A) := by
  intro e' he
  cases he
  exact h

theorem Spares.then {p : Task S E A} {f : A → Task S E B} (hp : Spares bad p) (hf : ∀ a, Spares bad (f a)) :
    Spares bad (p >>= f : Task S E B) := by
  refine Returns.bind (Returns.mono (fun r hr => ?_) hp)
  cases r with
  | ok a => exact hf a
  | error e =>
    intro e' he
    cases he
    exact hr e rfl

theorem Spares.send (m : S.Msg) : Spares bad (Task.send m : Task S E (Except S.Fault Unit)) := fun _ => nofun

theorem Spares.flush : Spares bad (Task.flush : Task S E (Except S.Fault Unit)) := fun _ => nofun

theorem Spares.read (n : Nat) : Spares bad (Task.read n : Task S E (Except S.Fault Bare.Bytes)) := fun _ => nofun

theorem Spares.fill (n : Nat) : Spares bad (Task.fill n : Task S E (Except S.Fault Bare.Bytes)) := fun _ => nofun

theorem Spares.note (m : S.Msg) : Spares bad (Task.note m : Task S E Unit) := nofun

theorem Spares.call (op : S.Op) : Spares bad (Task.call op : Task S E (S.Ret op)) := fun _ => nofun

theorem Spares.loop {σ : Type} {body : σ → Task S E (σ ⊕ A)} (h : ∀ x, Spares bad (body x)) (x : σ) :
    Spares bad (Task.loop body x) := by
  intro n
  induction n generalizing x with
  | zero => exact trivial
  | succ n ih =>
    refine Spares.then (h x) fun r => ?_
    cases r with
    | inl y => exact ih y
    | inr a => exact Spares.pure a

end Spares

/-! ## With what was got -/

section Bears

variable {S : Sig} {E A B : Type} {bad : E → Prop} {P : List S.Msg → Prop} {g : List S.Msg}

/-- **A task that has got this, and does not fail so** if all that it gets is as it should be. -/
def Bears (P : List S.Msg → Prop) (bad : E → Prop) (g : List S.Msg) (p : Task S E A) : Prop :=
  ∀ s : Local S, (∀ m ∈ g, m ∈ s.got) →
    All (fun s' => ∀ m ∈ g, m ∈ s'.got) (fun r s' => P s'.got → ∀ e, r = .error e → ¬ bad e) p s

/-- What was got stays got. -/
theorem All.got (p : Prog S A) {s : Local S} (h : ∀ m ∈ g, m ∈ s.got) :
    All (fun s' => ∀ m ∈ g, m ∈ s'.got) (fun _ _ => True) p s := by
  refine All.of_preserved (fun {_ c c'} hg hs m hm => ?_) p s h
  exact (Local.got_of_trace hs.trace_prefix).subset (hg m hm)

theorem Bears.of_spares {p : Task S E A} (h : Spares bad p) : Bears P bad g p :=
  fun _ hg => (All.and (All.got p hg) (Returns.all h)).mono (fun _ hi => hi.1) fun _ _ _ hr _ => hr.2

theorem Bears.of_not {p : Task S E A} (h : ∀ got, (∀ m ∈ g, m ∈ got) → ¬ P got) : Bears P bad g p :=
  fun _ hg => (All.got p hg).mono (fun _ hi => hi) fun _ s' hi _ hP => absurd hP (h s'.got hi)

theorem Bears.then {p : Task S E A} {f : A → Task S E B} (hp : Bears P bad g p) (hf : ∀ a, Bears P bad g (f a)) :
    Bears P bad g (p >>= f : Task S E B) := by
  refine fun s hg => All.then ((hp s hg).mono (fun _ hi => hi) fun r s' hi hr => ?_)
  cases r with
  | ok a => exact hf a s' hi
  | error e =>
    intro hP e' he
    cases he
    exact hr hP e rfl

/-- **What is noted counts.** -/
theorem Bears.note {m : S.Msg} {f : Unit → Task S E B} (hf : Bears P bad (m :: g) (f ())) :
    Bears P bad g (Task.note m >>= f : Task S E B) := by
  intro s hg
  refine ⟨hg, (hf _ fun x hx => ?_).mono (fun _ hi x hx => hi x (List.mem_cons_of_mem m hx)) fun _ _ _ hr => hr⟩
  rcases List.mem_cons.1 hx with rfl | hx
  · simp [Event.got?]
  · simpa [Event.got?] using .inl (hg x hx)

/-- **So it is in every run.** -/
theorem Bears.run {p : Task S E A} {w : S.World} {s : Local S} {r : Except E A} (h : Bears P bad [] p)
    (hs : Steps (p, Local.init w) (.ret r, s)) (hP : P s.got) : ∀ e, r = .error e → ¬ bad e :=
  All.result (h _ fun _ hm => absurd hm List.not_mem_nil) hs hP

end Bears

end Proc
