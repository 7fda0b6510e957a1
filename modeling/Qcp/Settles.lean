import Qcp.Runs
/-!
# Settles — programs every run of which comes to an end

`Settles P c` says that no run from `c` goes on for ever, that none gets stuck, and that where one ends `P` holds of
the result.  `Settles.result` says so of a run; there is one rule for each thing a task does that has it wait for its
stream, and `Settles.then` for sequences.
-/
namespace Proc

open Bare (Bytes)

section Settles

variable {S : Sig} {A B : Type}

/-- **Every run ends**, and with a result of which `P` holds. -/
inductive Settles (P : A → Local S → Prop) : Config S A → Prop where
  | ends (a : A) (s : Local S) (h : P a s) : Settles P (.ret a, s)
  | goes (c : Config S A) (h : ∃ c', Step c c') (ih : ∀ c', Step c c' → Settles P c') : Settles P c

variable {P Q : A → Local S → Prop} {c c' : Config S A}

theorem Settles.onwards (h : Settles P c) (hs : Steps c c') : Settles P c' := by
  induction hs with
  | refl => exact h
  | tail _ hstep ih =>
    cases ih with
    | ends a s h => cases hstep
    | goes c _ hall => exact hall _ hstep

/-- **So it is wherever a run ends.** -/
theorem Settles.result {a : A} {s : Local S} (h : Settles P c) (hs : Steps c (.ret a, s)) : P a s := by
  cases h.onwards hs with
  | ends a s h => exact h
  | goes c hgo _ =>
    obtain ⟨c', hc'⟩ := hgo
    cases hc'

theorem Settles.mono (h : Settles P c) (hQ : ∀ a s, P a s → Q a s) : Settles Q c := by
  induction h with
  | ends a s h => exact .ends a s (hQ a s h)
  | goes c hgo _ ih => exact .goes c hgo ih

/-- What every step preserves holds at the end as well. -/
theorem Settles.and_preserved {I : Local S → Prop} (h : Settles P c) (hI : I c.2)
    (hstep : ∀ {c c' : Config S A}, I c.2 → Step c c' → I c'.2) : Settles (fun a s => P a s ∧ I s) c := by
  induction h with
  | ends a s h => exact .ends a s ⟨h, hI⟩
  | goes c hgo _ ih => exact .goes c hgo fun c' hc' => ih c' hc' (hstep hI hc')

/-- A step of one program and then another is one of the first, until that has ended. -/
theorem Step.of_bind {f : A → Prog S B} : ∀ {p : Prog S A} {s : Local S} {d : Config S B},
    (∃ c', Step (p, s) c') → Step (p.bind f, s) d → ∃ c', Step (p, s) c' ∧ d = (c'.1.bind f, c'.2)
  | .ret _, _, _, ⟨_, h⟩, _ => nomatch h
  | .send m k, s, _, _, h => by
    cases h with
    | sent _ _ _ hl => exact ⟨_, .sent m k s hl, rfl⟩
    | cut _ _ _ e front hp hl hs => exact ⟨_, .cut m k s e front hp hl hs, rfl⟩
  | .flush k, s, _, _, h => by
    cases h with
    | flush _ _ r => exact ⟨_, .flush k s r, rfl⟩
  | .read n k, s, _, _, h => by
    cases h with
    | read _ _ _ bs hr hl => exact ⟨_, .read n k s bs hr hl, rfl⟩
    | short _ _ _ e bs hl hs => exact ⟨_, .short n k s e bs hl hs, rfl⟩
  | .fill n k, s, _, _, h => by
    cases h with
    | fill _ _ _ bs hr hn hl => exact ⟨_, .fill n k s bs hr hn hl, rfl⟩
    | atEnd => exact ⟨_, .atEnd n k s, rfl⟩
    | noRoom => exact ⟨_, .noRoom k s, rfl⟩
    | fillError _ _ _ e => exact ⟨_, .fillError n k s e, rfl⟩
  | .note m k, s, _, _, h => by
    cases h with
    | note => exact ⟨_, .note m k s, rfl⟩
  | .call op k, s, _, _, h => by
    cases h with
    | call _ _ _ r w hw => exact ⟨_, .call op k s r w hw, rfl⟩
  | .rounds k, s, _, _, h => by
    cases h with
    | rounds _ _ n => exact ⟨_, .rounds k s n, rfl⟩

theorem Settles.bind {P : B → Local S → Prop} {f : A → Prog S B} (h : Settles (fun a s => Settles P (f a, s)) c) :
    Settles P (c.1.bind f, c.2) := by
  induction h with
  | ends a s h => exact h
  | goes c hgo _ ih =>
    refine .goes _ (hgo.imp' _ fun _ hc' => hc'.bind f) fun d hd => ?_
    obtain ⟨c', hc', rfl⟩ := Step.of_bind hgo hd
    exact ih c' hc'

end Settles

section Rules

variable {S : Sig} {E A B : Type} {s : Local S}

theorem Settles.pure {P : Except E A → Local S → Prop} {a : A} (h : P (.ok a) s) :
    Settles P ((pure a : Task S E A), s) := .ends _ s h

theorem Settles.fail {P : Except E A → Local S → Prop} {e : E} (h : P (.error e) s) :
    Settles P ((Task.fail e : Task S E A), s) := .ends _ s h

/-- What the first of two tasks comes to: a value the second goes on from, or an error that is the outcome. -/
def Leads (P : Except E B → Local S → Prop) (f : A → Task S E B) : Except E A → Local S → Prop
  | .ok a, s => Settles P (f a, s)
  | .error e, s => P (.error e) s

/-- **One task after another.** -/
theorem Settles.then {P : Except E B → Local S → Prop} {p : Task S E A} {f : A → Task S E B}
    (h : Settles (Leads P f) (p, s)) : Settles P ((p >>= f : Task S E B), s) := by
  refine Settles.bind (c := (p, s)) (h.mono fun r s' hr => ?_)
  cases r with
  | ok a => exact hr
  | error e => exact .ends _ _ hr

theorem Settles.attempt {P : Except E (Except E A) → Local S → Prop} {p : Task S E A}
    (h : Settles (fun r s => P (.ok r) s) (p, s)) : Settles P (p.attempt, s) :=
  Settles.bind (c := (p, s)) (h.mono fun _ _ hr => .ends _ _ hr)

theorem Settles.send {P : Except E (Except S.Fault Unit) → Local S → Prop} [Inhabited S.Fault] {m : S.Msg}
    (hm : S.enc m ≠ []) (h : ∀ r s', P (.ok r) s') : Settles P ((Task.send m : Task S E (Except S.Fault Unit)), s) := by
  refine .goes _ ⟨_, .cut m _ s default [] List.nil_prefix (List.length_pos_iff.2 hm) fun _ => rfl⟩ fun c' hc' => ?_
  cases hc' with
  | sent => exact .ends _ _ (h _ _)
  | cut => exact .ends _ _ (h _ _)

theorem Settles.flush {P : Except E (Except S.Fault Unit) → Local S → Prop} (h : ∀ r, P (.ok r) s) :
    Settles P ((Task.flush : Task S E (Except S.Fault Unit)), s) := by
  refine .goes _ ⟨_, .flush _ s (.ok ())⟩ fun c' hc' => ?_
  cases hc' with
  | flush _ _ r => exact .ends _ _ (h r)

theorem Settles.note {P : Except E Unit → Local S → Prop} {m : S.Msg} (h : P (.ok ()) (s.push (.got m))) :
    Settles P ((Task.note m : Task S E Unit), s) := by
  refine .goes _ ⟨_, .note m _ s⟩ fun c' hc' => ?_
  cases hc' with
  | note => exact .ends _ _ h

theorem Settles.read {P : Except E (Except S.Fault Bytes) → Local S → Prop} [Inhabited S.Fault] {n : Nat}
    (hn : 0 < n ∨ s.recvLost = false)
    (h : ∀ bs, s.recvLost = false → bs.length = n → P (.ok (.ok bs)) (s.push (.took bs)))
    (hshort : ∀ f bs, bs.length < n → P (.ok (.error f)) (s.push (.took bs)).loseRecv) :
    Settles P ((Task.read n : Task S E (Except S.Fault Bytes)), s) := by
  refine .goes _ ?_ fun c' hc' => ?_
  · rcases hn with hn | hn
    · exact ⟨_, .short n _ s default [] hn fun _ => rfl⟩
    · exact ⟨_, .read n _ s (List.replicate n 0) hn List.length_replicate⟩
  · cases hc' with
    | read _ _ _ bs hr hl => exact .ends _ _ (h bs hr hl)
    | short _ _ _ f bs hl => exact .ends _ _ (hshort f bs hl)

theorem Settles.fill {P : Except E (Except S.Fault Bytes) → Local S → Prop} {n : Nat} (h : ∀ r s', P (.ok r) s') :
    Settles P ((Task.fill n : Task S E (Except S.Fault Bytes)), s) := by
  refine .goes _ ⟨_, .atEnd n _ s⟩ fun c' hc' => ?_
  cases hc' with
  | fill => exact .ends _ _ (h _ _)
  | atEnd => exact .ends _ _ (h _ _)
  | noRoom => exact .ends _ _ (h _ _)
  | fillError => exact .ends _ _ (h _ _)

/-- **Reading a frame comes to an end**, whatever is there to be read. -/
theorem Settles.recv {α : Type} {P : Except E α → Local S → Prop} [Inhabited S.Fault]
    {err : Frame.RecvError S.Fault → E}
    {w : Frame.Wire α} (hok : ∀ a s', P (.ok a) s') (herr : ∀ e s', P (.error (err e)) s') :
    Settles P (Frame.recv err w, s) := by
  refine Settles.then (Settles.read (Or.inl (by decide)) (fun hdr hr _ => ?_) fun f bs _ => Settles.fail (herr _ _))
  simp only [Leads]
  split
  · exact Settles.then (Settles.fill fun r s' => Settles.fail (herr _ _))
  · refine Settles.then (Settles.read (Or.inr hr) (fun bs _ _ => ?_) fun f bs _ => Settles.fail (herr _ _))
    simp only [Leads]
    cases w.codec.decode bs with
    | none => exact Settles.fail (herr _ _)
    | some a => exact Settles.pure (hok _ _)

end Rules
end Proc
