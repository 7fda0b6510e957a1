import Qcp.Ends
/-!
# Avoids — programs that never ask for some things

`Avoids bad p` says that nothing `p` asks its surroundings for is `bad`.  It composes along programs, and what only such
requests could change stays as it was (`Ends.avoids`).
-/
namespace Proc

open Bare (Bytes)

section Avoids

variable {S : Sig} {A B : Type} {bad : S.Op → Prop}

/-- **A program that asks for none of these.** -/
def Avoids (bad : S.Op → Prop) : Prog S A → Prop
  | .ret _ => True
  | .send _ k => ∀ r, Avoids bad (k r)
  | .flush k => ∀ r, Avoids bad (k r)
  | .read _ k => ∀ r, Avoids bad (k r)
  | .fill _ k => ∀ r, Avoids bad (k r)
  | .note _ k => Avoids bad k
  | .call op k => ¬ bad op ∧ ∀ r, Avoids bad (k r)
  | .rounds k => ∀ n, Avoids bad (k n)
  | .hang => True

theorem Avoids.bind {f : A → Prog S B} (hf : ∀ a, Avoids bad (f a)) : ∀ {p : Prog S A}, Avoids bad p →
    Avoids bad (p.bind f)
  | .ret a, _ => hf a
  | .send _ _, h => fun r => Avoids.bind hf (h r)
  | .flush _, h => fun r => Avoids.bind hf (h r)
  | .read _ _, h => fun r => Avoids.bind hf (h r)
  | .fill _ _, h => fun r => Avoids.bind hf (h r)
  | .note _ k, h => Avoids.bind (p := k) hf h
  | .call _ _, h => ⟨h.1, fun r => Avoids.bind hf (h.2 r)⟩
  | .rounds _, h => fun n => Avoids.bind hf (h n)
  | .hang, _ => trivial

theorem Avoids.mono {worse : S.Op → Prop} (h : ∀ op, worse op → bad op) :
    ∀ {p : Prog S A}, Avoids bad p → Avoids worse p
  | .ret _, _ => trivial
  | .send _ _, hp => fun r => Avoids.mono h (hp r)
  | .flush _, hp => fun r => Avoids.mono h (hp r)
  | .read _ _, hp => fun r => Avoids.mono h (hp r)
  | .fill _ _, hp => fun r => Avoids.mono h (hp r)
  | .note _ k, hp => Avoids.mono (p := k) h hp
  | .call _ _, hp => ⟨fun hw => hp.1 (h _ hw), fun r => Avoids.mono h (hp.2 r)⟩
  | .rounds _, hp => fun n => Avoids.mono h (hp n)
  | .hang, _ => trivial

/-- **What other requests leave as it is stays so.** -/
theorem Avoids.final {W : Prop} {P : List (Σ op, S.Ret op) → Prop}
    (hP : ∀ d op r, ¬ bad op → P d → P (d ++ [⟨op, r⟩])) : ∀ {p : Prog S A} {s : Local S}, Avoids bad p → P s.done →
    Final W (fun _ s => P s.done) p s
  | .ret _, _, _, h => h
  | .send _ _, _, hp, h => ⟨fun _ => Avoids.final hP (hp _) (by simpa [Event.done?] using h),
      fun _ f front _ _ _ => Avoids.final hP (hp _) (by simpa [Event.done?] using h)⟩
  | .flush _, _, hp, h => ⟨Avoids.final hP (hp _) h, fun _ f => Avoids.final hP (hp _) h⟩
  | .read _ _, _, hp, h => ⟨fun _ bs _ => Avoids.final hP (hp _) (by simpa [Event.done?] using h),
      fun f bs _ _ => Avoids.final hP (hp _) (by simpa [Event.done?] using h)⟩
  | .fill _ _, _, hp, h => ⟨fun _ bs _ _ => Avoids.final hP (hp _) (by simpa [Event.done?] using h),
      Avoids.final hP (hp _) h, fun _ => Avoids.final hP (hp _) h, fun f => Avoids.final hP (hp _) h⟩
  | .note m k, s, hp, h => Avoids.final (p := k) (s := s.push (.got m)) hP hp (by simpa [Event.done?] using h)
  | .call op k, s, hp, h => fun r w _ => Avoids.final hP (hp.2 r) (by
      rw [Local.done_push, Local.done_inWorld]
      exact hP _ op r hp.1 h)
  | .rounds _, _, hp, h => fun n => Avoids.final hP (hp n) h
  | .hang, _, _, _ => trivial

/-- It stays so all along. -/
theorem Avoids.all {P : List (Σ op, S.Ret op) → Prop} (hP : ∀ d op r, ¬ bad op → P d → P (d ++ [⟨op, r⟩])) :
    ∀ {p : Prog S A} {s : Local S}, Avoids bad p → P s.done → All (fun s => P s.done) (fun _ _ => True) p s
  | .ret _, _, _, h => ⟨h, trivial⟩
  | .send _ _, _, hp, h => ⟨h, fun _ => Avoids.all hP (hp _) (by simpa [Event.done?] using h),
      fun _ front _ _ _ => Avoids.all hP (hp _) (by simpa [Event.done?] using h)⟩
  | .flush _, _, hp, h => ⟨h, fun r => Avoids.all hP (hp r) h⟩
  | .read _ _, _, hp, h => ⟨h, fun _ bs _ => Avoids.all hP (hp _) (by simpa [Event.done?] using h),
      fun f bs _ _ => Avoids.all hP (hp _) (by simpa [Event.done?] using h)⟩
  | .fill _ _, _, hp, h => ⟨h, fun _ bs _ _ => Avoids.all hP (hp _) (by simpa [Event.done?] using h),
      Avoids.all hP (hp _) h, fun _ => Avoids.all hP (hp _) h, fun f => Avoids.all hP (hp _) h⟩
  | .note m k, s, hp, h => ⟨h, Avoids.all (p := k) (s := s.push (.got m)) hP hp (by simpa [Event.done?] using h)⟩
  | .call op k, s, hp, h => ⟨h, fun r w _ => Avoids.all hP (hp.2 r) (by
      rw [Local.done_push, Local.done_inWorld]
      exact hP _ op r hp.1 h)⟩
  | .rounds _, _, hp, h => ⟨h, fun n => Avoids.all hP (hp n) h⟩
  | .hang, _, _, h => h

/-- **What other requests leave of the surroundings stays so all along.** -/
theorem Avoids.allWorld {P : S.World → Prop} (hP : ∀ w op r w', ¬ bad op → S.sem w op r w' → P w → P w') :
    ∀ {p : Prog S A} {s : Local S}, Avoids bad p → P s.world → All (fun s => P s.world) (fun _ _ => True) p s
  | .ret _, _, _, h => ⟨h, trivial⟩
  | .send _ _, _, hp, h => ⟨h, fun _ => Avoids.allWorld hP (hp _) h, fun _ _ _ _ _ => Avoids.allWorld hP (hp _) h⟩
  | .flush _, _, hp, h => ⟨h, fun r => Avoids.allWorld hP (hp r) h⟩
  | .read _ _, _, hp, h => ⟨h, fun _ _ _ => Avoids.allWorld hP (hp _) h, fun _ _ _ _ => Avoids.allWorld hP (hp _) h⟩
  | .fill _ _, _, hp, h => ⟨h, fun _ _ _ _ => Avoids.allWorld hP (hp _) h, Avoids.allWorld hP (hp _) h,
      fun _ => Avoids.allWorld hP (hp _) h, fun _ => Avoids.allWorld hP (hp _) h⟩
  | .note m k, s, hp, h => ⟨h, Avoids.allWorld (p := k) (s := s.push (.got m)) hP hp h⟩
  | .call op _, s, hp, h => ⟨h, fun r w hw => Avoids.allWorld hP (hp.2 r) (hP s.world op r w hp.1 hw h)⟩
  | .rounds _, _, hp, h => ⟨h, fun n => Avoids.allWorld hP (hp n) h⟩
  | .hang, _, _, h => h

/-- **In no state of a run was any of this asked for.** -/
theorem Avoids.run {p : Prog S A} {w : S.World} {c : Config S A} (hp : Avoids bad p) (hs : Steps (p, Local.init w) c) :
    ∀ e ∈ c.2.done, ¬ bad e.1 := by
  have hall := Avoids.all (P := fun d => ∀ e ∈ d, ¬ bad e.1) (fun d op r hop hd e he => ?_) hp
    (s := Local.init w) fun e he => absurd he List.not_mem_nil
  · exact hall.inv hs
  · rcases List.mem_append.1 he with he | he
    · exact hd e he
    · rw [List.mem_singleton.1 he]
      exact hop

end Avoids

section Tasks

variable {S : Sig} {E A B : Type} {bad : S.Op → Prop}

theorem Avoids.pure (a : A) : Avoids bad (pure a : Task S E A) := trivial

theorem Avoids.fail (e : E) : Avoids bad (Task.fail e : Task S E A) := trivial

theorem Avoids.then {p : Task S E A} {f : A → Task S E B} (hp : Avoids bad p) (hf : ∀ a, Avoids bad (f a)) :
    Avoids bad (p >>= f : Task S E B) :=
  Avoids.bind (fun r => match r with
    | .ok a => hf a
    | .error _ => trivial) hp

theorem Avoids.attempt {p : Task S E A} (hp : Avoids bad p) : Avoids bad p.attempt := by
  unfold Task.attempt
  refine Avoids.bind (fun r => ?_) hp
  exact trivial

theorem Avoids.send (m : S.Msg) : Avoids bad (Task.send m : Task S E (Except S.Fault Unit)) := fun _ => trivial

theorem Avoids.flush : Avoids bad (Task.flush : Task S E (Except S.Fault Unit)) := fun _ => trivial

theorem Avoids.read (n : Nat) : Avoids bad (Task.read n : Task S E (Except S.Fault Bytes)) := fun _ => trivial

theorem Avoids.fill (n : Nat) : Avoids bad (Task.fill n : Task S E (Except S.Fault Bytes)) := fun _ => trivial

theorem Avoids.note (m : S.Msg) : Avoids bad (Task.note m : Task S E Unit) := trivial

theorem Avoids.call {op : S.Op} (h : ¬ bad op) : Avoids bad (Task.call op : Task S E (S.Ret op)) :=
  ⟨h, fun _ => trivial⟩

theorem Avoids.loop {σ : Type} {body : σ → Task S E (σ ⊕ A)} (h : ∀ x, Avoids bad (body x)) (x : σ) :
    Avoids bad (Task.loop body x) := by
  intro n
  induction n generalizing x with
  | zero => exact trivial
  | succ n ih =>
    refine Avoids.then (h x) fun r => ?_
    cases r with
    | inl y => exact ih y
    | inr a => exact trivial

theorem Ends.avoids {W : Prop} {P : List (Σ op, S.Ret op) → Prop} {p : Task S E A} {v : View S} (hp : Avoids bad p)
    (hP : ∀ d op r, ¬ bad op → P d → P (d ++ [⟨op, r⟩])) (h : P v.done) : Ends W (fun _ v => P v.done) p v := by
  rintro s rfl
  exact Avoids.final hP hp h

/-- What only such requests could change is known to be as it was where the task succeeds. -/
theorem Ok.avoids {I : View S → Prop} {Q : A → View S → Prop} {P : List (Σ op, S.Ret op) → Prop} {p : Task S E A}
    {v : View S} (hp : Avoids bad p) (hP : ∀ d op r, ¬ bad op → P d → P (d ++ [⟨op, r⟩])) (hv : P v.done)
    (h : Ok I (fun a v' => P v'.done → Q a v') p v) : Ok I Q p v := by
  rintro s rfl
  have hall := Avoids.all (P := P) hP hp hv
  exact ((h s rfl).and hall).mono (fun _ h => h.1) fun r s' hi hq a ha => hq.1 a ha hi.2

end Tasks
end Proc
