import Qcp.Proc
/-!
# Tasks — what a program establishes when it succeeds

`Ok I Q p v` says that the task `p`, from any state that looks like `v`, passes only through states that look like `I`
and, where it succeeds, has made `Q` true.  A `View` is all that a state shows but the order of its trace.  There is
one rule for each thing a task does (`Ok.send`, `Ok.read`, `Ok.call`, …), `Ok.then` for sequences and `Ok.loop` for
loops, and `Ok.run` says what they were proved for.
-/
namespace Proc

open Bare (Bytes)

/-- What a state shows: its surroundings, the messages begun, sent whole and kept, the bytes read, what was asked for,
and whether anything more can be read. -/
structure View (S : Sig) where
  world : S.World
  tried : List S.Msg
  sent : List S.Msg
  got : List S.Msg
  taken : Bytes
  done : List (Σ op, S.Ret op)
  lost : Bool

section Views

variable {S : Sig}

def Local.view (s : Local S) : View S := ⟨s.world, s.tried, s.sent, s.got, s.taken, s.done, s.recvLost⟩

def View.init (w : S.World) : View S := ⟨w, [], [], [], [], [], false⟩

theorem view_init (w : S.World) : (Local.init w).view = View.init w := rfl

theorem view_sent (s : Local S) (m : S.Msg) : (s.push (.sent m)).view =
    { s.view with tried := s.view.tried ++ [m], sent := s.view.sent ++ [m] } := by
  simp [Local.view, Event.tried?, Event.sent?, Event.got?, Event.read, Event.done?]

theorem view_cut (s : Local S) (m : S.Msg) (front : Bytes) : (s.push (.cut m front)).loseSend.view =
    { s.view with tried := s.view.tried ++ [m] } := by
  simp [Local.view, Event.tried?, Event.sent?, Event.got?, Event.read, Event.done?]

theorem view_took (s : Local S) (bs : Bytes) : (s.push (.took bs)).view =
    { s.view with taken := s.view.taken ++ bs } := by
  simp [Local.view, Event.tried?, Event.sent?, Event.got?, Event.read, Event.done?]

theorem view_got (s : Local S) (m : S.Msg) : (s.push (.got m)).view = { s.view with got := s.view.got ++ [m] } := by
  simp [Local.view, Event.tried?, Event.sent?, Event.got?, Event.read, Event.done?]

theorem view_did (s : Local S) (w : S.World) (op : S.Op) (r : S.Ret op) : ((s.inWorld w).push (.did op r)).view =
    { s.view with world := w, done := s.view.done ++ [⟨op, r⟩] } := by
  simp [Local.view, Event.tried?, Event.sent?, Event.got?, Event.read, Event.done?]

theorem view_loseRecv (s : Local S) : s.loseRecv.view = { s.view with lost := true } := rfl

end Views

section Rules

variable {S : Sig} {E A B : Type} {I : View S → Prop} {v : View S}

/-- **What a task establishes when it succeeds.** -/
def Ok (I : View S → Prop) (Q : A → View S → Prop) (p : Task S E A) (v : View S) : Prop :=
  ∀ s : Local S, s.view = v → All (fun s => I s.view) (fun r s => ∀ a, r = .ok a → Q a s.view) p s

/-- **It is established in every run.** -/
theorem Ok.run {Q : A → View S → Prop} {p : Task S E A} {w : S.World} {p' : Task S E A} {s : Local S}
    (h : Ok I Q p (View.init w)) (hs : Steps (p, Local.init w) (p', s)) : I s.view := (h _ (view_init w)).inv hs

theorem Ok.run_ok {Q : A → View S → Prop} {p : Task S E A} {w : S.World} {s : Local S} {a : A}
    (h : Ok I Q p (View.init w)) (hs : Steps (p, Local.init w) (.ret (.ok a), s)) : Q a s.view :=
  (h _ (view_init w)).result hs a rfl

theorem Ok.mono {J : View S → Prop} {Q R : A → View S → Prop} {p : Task S E A} (h : Ok I Q p v) (hI : ∀ v, I v → J v)
    (hQ : ∀ a v, I v → Q a v → R a v) : Ok J R p v := fun s hs =>
  (h s hs).mono (fun _ hi => hI _ hi) fun _ _ hi hq a ha => hQ a _ hi (hq a ha)

/-- What was read stays read. -/
theorem Ok.grows {Q : A → View S → Prop} {p : Task S E A} (h : Ok I Q p v) :
    Ok (fun v' => I v' ∧ v.taken <+: v'.taken) Q p v := by
  rintro s rfl
  exact (h s rfl).grows.mono (fun s' hi => ⟨hi.1, Local.taken_of_trace hi.2⟩) fun _ _ _ hq => hq.1

theorem Ok.pure {Q : A → View S → Prop} {a : A} (hi : I v) (hq : Q a v) : Ok I Q (pure a : Task S E A) v := by
  rintro s rfl
  exact ⟨hi, fun b hb => by cases hb; exact hq⟩

theorem Ok.fail {Q : A → View S → Prop} {e : E} (hi : I v) : Ok I Q (Task.fail e : Task S E A) v := by
  rintro s rfl
  exact ⟨hi, nofun⟩

/-- **One task after another.** -/
theorem Ok.then {Q : B → View S → Prop} {p : Task S E A} {f : A → Task S E B}
    (h : Ok I (fun a v' => Ok I Q (f a) v') p v) : Ok I Q (p >>= f : Task S E B) v := by
  rintro s hs
  refine All.then ((h s hs).mono (fun _ h => h) fun r s' hi hq => ?_)
  cases r with
  | ok a => exact hq a rfl s' rfl
  | error e => exact fun a ha => nomatch ha

/-- The outcome of a task, whichever it is: of a failure no more is known than what held all along. -/
theorem Ok.attempt {J : View S → Prop} {Q : A → View S → Prop} {R : Except E A → View S → Prop} {p : Task S E A}
    (h : Ok J Q p v) (hI : ∀ v, J v → I v) (hok : ∀ a v, J v → Q a v → R (.ok a) v)
    (herr : ∀ e v, J v → R (.error e) v) : Ok I R p.attempt v := by
  rintro s hs
  refine All.attempt ((h s hs).mono (fun s hi => hI _ hi) fun r s' hi hq => ?_)
  rintro a ha
  cases ha
  cases r with
  | ok a => exact hok a _ hi (hq a rfl)
  | error e => exact herr e _ hi

/-- A message may be sent whole or not. -/
theorem Ok.send {Q : Except S.Fault Unit → View S → Prop} {m : S.Msg} (hi : I v)
    (hit : I { v with tried := v.tried ++ [m], sent := v.sent ++ [m] })
    (ht : Q (.ok ()) { v with tried := v.tried ++ [m], sent := v.sent ++ [m] })
    (hif : I { v with tried := v.tried ++ [m] }) (hf : ∀ f, Q (.error f) { v with tried := v.tried ++ [m] }) :
    Ok I Q (Task.send m : Task S E (Except S.Fault Unit)) v := by
  rintro s rfl
  refine ⟨hi, fun _ => ?_, fun f front _ _ _ => ?_⟩
  · exact Ok.pure hit ht _ (view_sent s m)
  · exact Ok.pure hif (hf f) _ (view_cut s m front)

theorem Ok.flush {Q : Except S.Fault Unit → View S → Prop} (hi : I v) (h : ∀ r, Q r v) :
    Ok I Q (Task.flush : Task S E (Except S.Fault Unit)) v := by
  rintro s rfl
  exact ⟨hi, fun r => Ok.pure hi (h r) s rfl⟩

theorem Ok.read {Q : Except S.Fault Bytes → View S → Prop} {n : Nat}
    (hi : ∀ bs l, I { v with taken := v.taken ++ bs, lost := l })
    (h : ∀ bs, v.lost = false → bs.length = n → Q (.ok bs) { v with taken := v.taken ++ bs })
    (hshort : ∀ f bs, Q (.error f) { v with taken := v.taken ++ bs, lost := true }) :
    Ok I Q (Task.read n : Task S E (Except S.Fault Bytes)) v := by
  rintro s rfl
  refine ⟨by simpa using hi [] s.view.lost, fun hl bs hb => ?_, fun f bs _ _ => ?_⟩
  · exact Ok.pure (hi bs s.view.lost) (h bs hl hb) _ (view_took s bs)
  · exact Ok.pure (hi bs true) (hshort f bs) _ (by rw [view_loseRecv, view_took])

theorem Ok.fill {Q : Except S.Fault Bytes → View S → Prop} {c : Nat}
    (hi : ∀ bs l, I { v with taken := v.taken ++ bs, lost := l })
    (h : ∀ bs, v.lost = false → bs ≠ [] → bs.length ≤ c → Q (.ok bs) { v with taken := v.taken ++ bs })
    (hend : Q (.ok []) { v with lost := true }) (hroom : c = 0 → Q (.ok []) v)
    (herr : ∀ f, Q (.error f) { v with lost := true }) :
    Ok I Q (Task.fill c : Task S E (Except S.Fault Bytes)) v := by
  rintro s rfl
  have hv : I s.view := by simpa using hi [] s.view.lost
  have hl : I { s.view with lost := true } := by simpa using hi [] true
  refine ⟨hv, fun hl bs hn hb => ?_, ?_, fun hc => ?_, fun f => ?_⟩
  · exact Ok.pure (hi bs s.view.lost) (h bs hl hn hb) _ (view_took s bs)
  · exact Ok.pure hl hend _ (view_loseRecv s)
  · exact Ok.pure hv (hroom hc) s rfl
  · exact Ok.pure hl (herr f) _ (view_loseRecv s)

theorem Ok.note {Q : Unit → View S → Prop} {m : S.Msg} (hi : I v) (hi' : I { v with got := v.got ++ [m] })
    (h : Q () { v with got := v.got ++ [m] }) : Ok I Q (Task.note m : Task S E Unit) v := by
  rintro s rfl
  exact ⟨hi, Ok.pure hi' h _ (view_got s m)⟩

theorem Ok.call {op : S.Op} {Q : S.Ret op → View S → Prop} (hi : I v)
    (hi' : ∀ r w, S.sem v.world op r w → I { v with world := w, done := v.done ++ [⟨op, r⟩] })
    (h : ∀ r w, S.sem v.world op r w → Q r { v with world := w, done := v.done ++ [⟨op, r⟩] }) :
    Ok I Q (Task.call op : Task S E (S.Ret op)) v := by
  rintro s rfl
  exact ⟨hi, fun r w hw => Ok.pure (hi' r w hw) (h r w hw) _ (view_did s w op r)⟩

theorem Ok.hang {Q : A → View S → Prop} (hi : I v) : Ok I Q (Task.hang : Task S E A) v := by
  rintro s rfl
  exact hi

/-- What a round of a loop is to establish: that the next may start, or the outcome. -/
def Round {σ : Type} (J : σ → View S → Prop) (Q : A → View S → Prop) : σ ⊕ A → View S → Prop
  | .inl y => J y
  | .inr a => Q a

/-- **A loop**: `J` holds before every round. -/
theorem Ok.loop {σ : Type} {Q : A → View S → Prop} {body : σ → Task S E (σ ⊕ A)} (J : σ → View S → Prop)
    (hI : ∀ x v, J x v → I v) (hbody : ∀ x v, J x v → Ok I (Round J Q) (body x) v) (x : σ) (h : J x v) :
    Ok I Q (Task.loop body x) v := by
  rintro s rfl
  refine All.loop (fun x s => J x s.view) (fun x s => hI x s.view) (fun x s hJ => ?_) x s h
  refine (hbody x s.view hJ s rfl).mono (fun _ h => h) fun r s' _ hq => ?_
  rcases r with e | y | a
  · exact nofun
  · exact hq _ rfl
  · rintro b hb
    cases hb
    exact hq _ rfl

end Rules
end Proc
