import Qcp.Tasks
/-!
# Ends — how a task ends, whether it succeeds or fails

`Runs W` are the runs of a program, with `W` those in which nothing that is written is lost.  `Ends W Q p v` says how
the task `p` ends in such runs from a state that looks like `v`: unlike `Ok`, it says so of a failure too.  There is
one rule for each thing a task does, `Ends.said` is for what was sent and stays sent, and `Ends.run` says what they
were proved for.
-/
namespace Proc

open Bare (Bytes)

section Runs

variable {S : Sig} {A B : Type}

/-- A step; with `W`, one in which nothing that is written is lost. -/
def Within (W : Prop) (c c' : Config S A) : Prop :=
  Step c c' ∧ (W → c'.2.sendLost = false ∧ ∀ k, c.1 = .flush k → c'.1 = k (.ok ()))

def Runs (W : Prop) : Config S A → Config S A → Prop := Relation.ReflTransGen (Within W)

theorem Steps.runs {c c' : Config S A} (h : Steps c c') : Runs False c c' := by
  induction h with
  | refl => exact .refl
  | tail _ hs ih => exact ih.tail ⟨hs, False.elim⟩

theorem Runs.steps {W : Prop} {c c' : Config S A} (h : Runs W c c') : Steps c c' := by
  induction h with
  | refl => exact .refl
  | tail _ hs ih => exact ih.tail hs.1

/-- **`Q` where the program ends.** -/
def Final (W : Prop) (Q : A → Local S → Prop) : Prog S A → Local S → Prop
  | .ret a, s => Q a s
  | .send m k, s => (s.sendLost = false → Final W Q (k (.ok ())) (s.push (.sent m))) ∧
      (¬ W → ∀ f front, front <+: S.enc m → front.length < (S.enc m).length → (s.sendLost = true → front = []) →
        Final W Q (k (.error f)) (s.push (.cut m front)).loseSend)
  | .flush k, s => Final W Q (k (.ok ())) s ∧ (¬ W → ∀ f, Final W Q (k (.error f)) s)
  | .read n k, s => (s.recvLost = false → ∀ bs, bs.length = n → Final W Q (k (.ok bs)) (s.push (.took bs))) ∧
      ∀ f bs, bs.length < n → (s.recvLost = true → bs = []) → Final W Q (k (.error f)) (s.push (.took bs)).loseRecv
  | .fill c k, s =>
      (s.recvLost = false → ∀ bs, bs ≠ [] → bs.length ≤ c → Final W Q (k (.ok bs)) (s.push (.took bs))) ∧
      Final W Q (k (.ok [])) s.loseRecv ∧ (c = 0 → Final W Q (k (.ok [])) s) ∧
      ∀ f, Final W Q (k (.error f)) s.loseRecv
  | .note m k, s => Final W Q k (s.push (.got m))
  | .call op k, s => ∀ r w, S.sem s.world op r w → Final W Q (k r) ((s.inWorld w).push (.did op r))
  | .rounds k, s => ∀ n, Final W Q (k n) s
  | .hang, _ => True

variable {W : Prop} {I : Local S → Prop} {Q R : A → Local S → Prop}

theorem Final.step {c c' : Config S A} (h : Final W Q c.1 c.2) (hs : Within W c c') : Final W Q c'.1 c'.2 := by
  obtain ⟨hs, hw⟩ := hs
  cases hs with
  | sent m k s hl => exact h.1 hl
  | cut m k s f front hp hl hs => exact h.2 (fun w => Bool.noConfusion (hw w).1) f front hp hl hs
  | flush k s r =>
    cases r with
    | ok u => exact h.1
    | error f =>
      by_cases w : W
      · have hk : k (.error f) = k (.ok ()) := (hw w).2 k rfl
        show Final W Q (k (.error f)) s
        rw [hk]
        exact h.1
      · exact h.2 w f
  | read n k s bs hr hl => exact h.1 hr bs hl
  | short n k s f bs hl hs => exact h.2 f bs hl hs
  | fill c k s bs hr hn hl => exact h.1 hr bs hn hl
  | atEnd c k s => exact h.2.1
  | noRoom k s => exact h.2.2.1 rfl
  | fillError c k s f => exact h.2.2.2 f
  | note m k s => exact h
  | call op k s r w hsem => exact h r w hsem
  | rounds k s n => exact h n

/-- **It holds at the end of every such run.** -/
theorem Final.of_runs {c c' : Config S A} (h : Final W Q c.1 c.2) (hs : Runs W c c') : Final W Q c'.1 c'.2 := by
  induction hs with
  | refl => exact h
  | tail _ hstep ih => exact ih.step hstep

theorem Final.mono (hQ : ∀ a s, Q a s → R a s) : ∀ {p : Prog S A} {s : Local S}, Final W Q p s → Final W R p s
  | .ret a, s, h => hQ a s h
  | .send _ _, _, h => ⟨fun hl => Final.mono hQ (h.1 hl),
      fun w f front hp hl hs => Final.mono hQ (h.2 w f front hp hl hs)⟩
  | .flush _, _, h => ⟨Final.mono hQ h.1, fun w f => Final.mono hQ (h.2 w f)⟩
  | .read _ _, _, h => ⟨fun hr bs hl => Final.mono hQ (h.1 hr bs hl), fun f bs hl hs => Final.mono hQ (h.2 f bs hl hs)⟩
  | .fill _ _, _, h => ⟨fun hr bs hn hl => Final.mono hQ (h.1 hr bs hn hl), Final.mono hQ h.2.1,
      fun hc => Final.mono hQ (h.2.2.1 hc), fun f => Final.mono hQ (h.2.2.2 f)⟩
  | .note _ k, s, h => Final.mono (p := k) (s := s.push _) hQ h
  | .call _ _, _, h => fun r w hw => Final.mono hQ (h r w hw)
  | .rounds _, _, h => fun n => Final.mono hQ (h n)
  | .hang, _, _ => trivial

theorem Final.bind {Q : B → Local S → Prop} {f : A → Prog S B} : ∀ {p : Prog S A} {s : Local S},
    Final W (fun a s => Final W Q (f a) s) p s → Final W Q (p.bind f) s
  | .ret _, _, h => h
  | .send _ _, _, h => ⟨fun hl => Final.bind (h.1 hl), fun w f front hp hl hs => Final.bind (h.2 w f front hp hl hs)⟩
  | .flush _, _, h => ⟨Final.bind h.1, fun w f => Final.bind (h.2 w f)⟩
  | .read _ _, _, h => ⟨fun hr bs hl => Final.bind (h.1 hr bs hl), fun f bs hl hs => Final.bind (h.2 f bs hl hs)⟩
  | .fill _ _, _, h => ⟨fun hr bs hn hl => Final.bind (h.1 hr bs hn hl), Final.bind h.2.1,
      fun hc => Final.bind (h.2.2.1 hc), fun f => Final.bind (h.2.2.2 f)⟩
  | .note _ k, s, h => Final.bind (p := k) (s := s.push _) h
  | .call _ _, _, h => fun r w hw => Final.bind (h r w hw)
  | .rounds _, _, h => fun n => Final.bind (h n)
  | .hang, _, _ => trivial

/-- What holds all along holds at the end. -/
theorem All.final : ∀ {p : Prog S A} {s : Local S}, All I Q p s → Final W (fun a s => I s ∧ Q a s) p s
  | .ret _, _, h => h
  | .send _ _, _, h => ⟨fun hl => All.final (h.2.1 hl), fun _ f front hp hl hs => All.final (h.2.2 f front hp hl hs)⟩
  | .flush _, _, h => ⟨All.final (h.2 _), fun _ _ => All.final (h.2 _)⟩
  | .read _ _, _, h => ⟨fun hr bs hl => All.final (h.2.1 hr bs hl), fun f bs hl hs => All.final (h.2.2 f bs hl hs)⟩
  | .fill _ _, _, h => ⟨fun hr bs hn hl => All.final (h.2.1 hr bs hn hl), All.final h.2.2.1,
      fun hc => All.final (h.2.2.2.1 hc), fun f => All.final (h.2.2.2.2 f)⟩
  | .note _ k, s, h => All.final (p := k) (s := s.push _) h.2
  | .call _ _, _, h => fun r w hw => All.final (h.2 r w hw)
  | .rounds _, _, h => fun n => All.final (h.2 n)
  | .hang, _, _ => trivial

end Runs

section Rules

variable {S : Sig} {E A B : Type} {W : Prop} {v : View S}

/-- **How a task ends.** -/
def Ends (W : Prop) (Q : Except E A → View S → Prop) (p : Task S E A) (v : View S) : Prop :=
  ∀ s : Local S, s.view = v → Final W (fun r s => Q r s.view) p s

/-- **So it does in every run.** -/
theorem Ends.run {Q : Except E A → View S → Prop} {p : Task S E A} {w : S.World} {s : Local S} {r : Except E A}
    (h : Ends W Q p (View.init w)) (hs : Runs W (p, Local.init w) (.ret r, s)) : Q r s.view :=
  Final.of_runs (c := (p, Local.init w)) (h _ (view_init w)) hs

theorem Ends.mono {Q R : Except E A → View S → Prop} {p : Task S E A} (h : Ends W Q p v) (hQ : ∀ r v, Q r v → R r v) :
    Ends W R p v := fun s hs => (h s hs).mono fun _ _ => hQ _ _

theorem Ends.pure {Q : Except E A → View S → Prop} {a : A} (h : Q (.ok a) v) : Ends W Q (pure a : Task S E A) v := by
  rintro s rfl
  exact h

theorem Ends.fail {Q : Except E A → View S → Prop} {e : E} (h : Q (.error e) v) :
    Ends W Q (Task.fail e : Task S E A) v := by
  rintro s rfl
  exact h

/-- What the first of two tasks is to end with: a value the second goes on from, or an error that is the outcome. -/
def Onwards (W : Prop) (Q : Except E B → View S → Prop) (f : A → Task S E B) : Except E A → View S → Prop
  | .ok a, v => Ends W Q (f a) v
  | .error e, v => Q (.error e) v

/-- **One task after another.** -/
theorem Ends.then {Q : Except E B → View S → Prop} {p : Task S E A} {f : A → Task S E B}
    (h : Ends W (Onwards W Q f) p v) : Ends W Q (p >>= f : Task S E B) v := by
  rintro s hs
  refine Final.bind ((h s hs).mono fun r s' hq => ?_)
  cases r with
  | ok a => exact hq s' rfl
  | error e => exact hq

theorem Ends.attempt {Q : Except E (Except E A) → View S → Prop} {p : Task S E A}
    (h : Ends W (fun r v => Q (.ok r) v) p v) : Ends W Q p.attempt v := fun s hs => Final.bind (h s hs)

theorem Ends.send {Q : Except E (Except S.Fault Unit) → View S → Prop} {m : S.Msg}
    (h : Q (.ok (.ok ())) { v with tried := v.tried ++ [m], sent := v.sent ++ [m] })
    (hf : ¬ W → ∀ f, Q (.ok (.error f)) { v with tried := v.tried ++ [m] }) :
    Ends W Q (Task.send m : Task S E (Except S.Fault Unit)) v := by
  rintro s rfl
  refine ⟨fun _ => ?_, fun w f front _ _ _ => ?_⟩
  · exact Ends.pure (W := W) h _ (view_sent s m)
  · exact Ends.pure (W := W) (hf w f) _ (view_cut s m front)

theorem Ends.flush {Q : Except E (Except S.Fault Unit) → View S → Prop} (h : Q (.ok (.ok ())) v)
    (hf : ¬ W → ∀ f, Q (.ok (.error f)) v) : Ends W Q (Task.flush : Task S E (Except S.Fault Unit)) v := by
  rintro s rfl
  exact ⟨h, hf⟩

theorem Ends.read {Q : Except E (Except S.Fault Bytes) → View S → Prop} {n : Nat}
    (h : ∀ bs, v.lost = false → bs.length = n → Q (.ok (.ok bs)) { v with taken := v.taken ++ bs })
    (hshort : ∀ f bs, bs.length < n → Q (.ok (.error f)) { v with taken := v.taken ++ bs, lost := true }) :
    Ends W Q (Task.read n : Task S E (Except S.Fault Bytes)) v := by
  rintro s rfl
  refine ⟨fun hl bs hb => ?_, fun f bs hb _ => ?_⟩
  · exact Ends.pure (W := W) (h bs hl hb) _ (view_took s bs)
  · exact Ends.pure (W := W) (hshort f bs hb) _ (by rw [view_loseRecv, view_took])

theorem Ends.fill {Q : Except E (Except S.Fault Bytes) → View S → Prop} {c : Nat}
    (h : ∀ bs, v.lost = false → bs ≠ [] → bs.length ≤ c → Q (.ok (.ok bs)) { v with taken := v.taken ++ bs })
    (hend : Q (.ok (.ok [])) { v with lost := true }) (hroom : c = 0 → Q (.ok (.ok [])) v)
    (herr : ∀ f, Q (.ok (.error f)) { v with lost := true }) :
    Ends W Q (Task.fill c : Task S E (Except S.Fault Bytes)) v := by
  rintro s rfl
  refine ⟨fun hl bs hn hb => ?_, ?_, hroom, fun f => ?_⟩
  · exact Ends.pure (W := W) (h bs hl hn hb) _ (view_took s bs)
  · exact Ends.pure (W := W) hend _ (view_loseRecv s)
  · exact Ends.pure (W := W) (herr f) _ (view_loseRecv s)

theorem Ends.note {Q : Except E Unit → View S → Prop} {m : S.Msg} (h : Q (.ok ()) { v with got := v.got ++ [m] }) :
    Ends W Q (Task.note m : Task S E Unit) v := by
  rintro s rfl
  exact Ends.pure (W := W) h _ (view_got s m)

theorem Ends.call {op : S.Op} {Q : Except E (S.Ret op) → View S → Prop}
    (h : ∀ r w, S.sem v.world op r w → Q (.ok r) { v with world := w, done := v.done ++ [⟨op, r⟩] }) :
    Ends W Q (Task.call op : Task S E (S.Ret op)) v := by
  rintro s rfl
  exact fun r w hw => Ends.pure (W := W) (h r w hw) _ (view_did s w op r)

/-- A task that never ends. -/
theorem Ends.hang {Q : Except E A → View S → Prop} : Ends W Q (Task.hang : Task S E A) v := fun _ _ => trivial

/-- What a step preserves still holds at the end. -/
theorem Ends.of_preserved {p : Task S E A} {P : View S → Prop}
    (hstep : ∀ {A : Type} {c c' : Config S A}, P c.2.view → Step c c' → P c'.2.view) (h : P v) :
    Ends W (fun _ v => P v) p v := by
  rintro s rfl
  exact (All.of_preserved (I := fun s => P s.view) hstep p s h).final.mono fun _ _ h => h.1

/-- **What was sent stays sent.** -/
theorem Ends.said {p : Task S E A} {P : S.Msg → Prop} (h : ∃ m ∈ v.sent, P m) :
    Ends W (fun _ v => ∃ m ∈ v.sent, P m) p v := by
  refine Ends.of_preserved (P := fun v => ∃ m ∈ v.sent, P m) (fun {_ c c'} hc hs => ?_) h
  obtain ⟨m, hm, hP⟩ := hc
  exact ⟨m, (Local.sent_of_trace hs.trace_prefix).subset hm, hP⟩

end Rules
end Proc
