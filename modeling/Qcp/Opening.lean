import Qcp.Channel
import Qcp.Transfer
/-!
# Opening — how both sides greet, and the level each comes to

Until it sends its message a client only waits for the banner and greets (`clientOpening`); until it reads one a server
says its banner and greets (`serverOpening`).  Each reads the level the other advertises, and compares it with its own
build's, not with the one it advertised itself: `levels_agree_iff`.
-/
namespace Qcp

open Bare (Bytes Text Codec)
open Proc (Pair Steps Task View Local Ok Gives)
open Frame (frame)

namespace ControlChannel

variable {H : Host}

/-- The first two phases of `runClient`. -/
def clientOpening (remoteDebug : Bool) (forceCompat : Option Compatibility) :
    Act H (ServerGreeting × Compatibility) := do
  waitForBanner
  clientExchangeGreetings remoteDebug forceCompat

/-- The first two phases of `runServer`. -/
def serverOpening (forceCompat : Option Compatibility) : Act H (ClientGreeting × Compatibility) := do
  Act.ofExcept .io (← Task.send (.banner bannerText))
  serverExchangeGreetings forceCompat

theorem runClient_eq (E : EngRepr) (credentials : Credentials) (ct : ConnectionType) (manager : Manager)
    (remoteDebug remoteConfig : Bool) (direction : Direction) (forceCompat : Option Compatibility) :
    (runClient E credentials ct manager remoteDebug remoteConfig direction forceCompat : Act H _) = do
      let r ← clientOpening remoteDebug forceCompat
      clientSendMessage r.2 credentials ct remoteConfig (manager.preferences E) direction
      let message ← clientReadServerMessage
      return (r.2, message) := by
  unfold runClient clientOpening
  rw [Task.bind_assoc]

theorem runServer_eq (E : EngRepr) (P : Platform) (describe : NegotiateError → Text)
    (generate : Except Text Credentials)
    (setupTracing : Bool → Except Text Unit) (manager : Manager) (forceCompat : Option Compatibility) :
    (runServer E P describe generate setupTracing manager forceCompat : Act H _) = do
      let r ← serverOpening forceCompat
      Act.ofExcept .other (setupTracing r.1.debug)
      let config ← runServerInner E P describe generate r.2 manager
      return (r.2, config) := by
  unfold runServer serverOpening
  rw [Task.bind_assoc]
  refine congrArg _ (funext fun r => ?_)
  rw [Task.bind_assoc]

end ControlChannel

open ControlChannel

section Rules

variable {H : Host} {I : View H.sig → Prop} {v : View H.sig}

theorem Ok.channelSend {α : Type} {F : Form α} {a : α} {Q : Unit → View H.sig → Prop} (hi : I v)
    (hi' : ∀ sent, I { v with tried := v.tried ++ [F.msg a], sent := sent })
    (h : Q () { v with tried := v.tried ++ [F.msg a], sent := v.sent ++ [F.msg a] }) :
    Ok I Q (ControlChannel.send F a : Act H Unit) v :=
  Ok.then (Ok.writer hi (fun _ => hi') fun _ => Ok.flushed (hi' _) h)

/-- Waiting for the banner only reads. -/
theorem Ok.waitForBanner {Q : Unit → View H.sig → Prop} (hi : ∀ bs l, I { v with taken := v.taken ++ bs, lost := l })
    (h : ∀ bs, bs.length = bannerLen → Q () { v with taken := v.taken ++ bs }) :
    Ok I Q (ControlChannel.waitForBanner : Act H Unit) v := by
  refine Ok.then (Ok.read hi (fun first _ hf => ?_) fun f bs => Ok.then (Ok.ofExcept (hi bs true) nofun))
  refine Ok.then (Ok.ofExcept (hi first _) fun a ha => ?_)
  cases ha
  have hi' : ∀ bs l, I { v with taken := v.taken ++ first ++ bs, lost := l } := fun bs l => by
    rw [List.append_assoc]
    exact hi _ l
  refine Ok.then (Ok.read hi' (fun rest _ hr => ?_) fun f bs => Ok.then (Ok.ofExcept (hi' bs true) nofun))
  refine Ok.then (Ok.ofExcept (hi' rest _) fun a ha => ?_)
  cases ha
  split
  · exact Ok.fail (hi' rest _)
  · split
    · apply Ok.pure (hi' rest _)
      rw [List.append_assoc]
      apply h _
      rw [List.length_append, hf, hr]
      rfl
    · split
      · exact Ok.fail (hi' rest _)
      · split <;> exact Ok.fail (hi' rest _)

/-- A client that has greeted has read as much as a banner, and the server's greeting. -/
theorem Ok.clientOpening (remoteDebug : Bool) (forceCompat : Option Compatibility) (w : World) :
    Ok (fun v => v.tried <+: [Msg.clientGreeting ⟨advertised forceCompat, remoteDebug, 0⟩])
      (fun r v => r.2 = processCompatibilityLevels r.1.compatibility ∧
        ∃ bs gb, v.taken = bs ++ frame gb ∧ bs.length = bannerLen ∧ ServerGreeting.form.Reads gb r.1)
      (ControlChannel.clientOpening remoteDebug forceCompat : Act H _) (View.init w) := by
  refine Ok.then (Ok.waitForBanner (fun _ _ => List.nil_prefix) fun bs hbs => ?_)
  refine Ok.then (Ok.channelSend List.nil_prefix (fun _ => List.prefix_refl _) ?_)
  refine Ok.then (Ok.reader (fun _ _ => List.prefix_refl _) (fun _ _ _ _ _ => List.prefix_refl _)
    fun gb g _ hl hd => ?_)
  exact Ok.pure (List.prefix_refl _) ⟨rfl, bs, gb, rfl, hbs, hl, hd⟩

/-- A server that has greeted has read the client's greeting. -/
theorem Ok.serverOpening (forceCompat : Option Compatibility) (w : World) :
    Ok (fun v => v.tried <+: [Msg.banner bannerText, Msg.serverGreeting ⟨advertised forceCompat, 0⟩])
      (fun r v => r.2 = processCompatibilityLevels r.1.compatibility ∧
        ∃ gb, v.taken = frame gb ∧ ClientGreeting.form.Reads gb r.1)
      (ControlChannel.serverOpening forceCompat : Act H _) (View.init w) := by
  have h1 : [Msg.banner bannerText] <+: [.banner bannerText, .serverGreeting ⟨advertised forceCompat, 0⟩] := ⟨[_], rfl⟩
  refine Ok.then (Ok.send List.nil_prefix h1 ?_ h1 fun f => Ok.then (Ok.ofExcept h1 nofun))
  refine Ok.then (Ok.ofExcept h1 fun _ _ => ?_)
  refine Ok.then (Ok.channelSend h1 (fun _ => List.prefix_refl _) ?_)
  refine Ok.then (Ok.reader (fun _ _ => List.prefix_refl _) (fun _ _ _ _ _ => List.prefix_refl _)
    fun gb g _ hl hd => ?_)
  exact Ok.pure (List.prefix_refl _) ⟨rfl, gb, rfl, hl, hd⟩

end Rules

/-! ## What fits reads back -/

theorem ClientGreeting.readsBack (g : ClientGreeting) : form.ReadsBack g :=
  Form.readsBack_of_wf ⟨trivial, trivial, trivial⟩

theorem ServerGreeting.readsBack (g : ServerGreeting) : form.ReadsBack g := Form.readsBack_of_wf ⟨trivial, trivial⟩

theorem ClientGreeting.fits (g : ClientGreeting) : form.Fits g := by
  show (Codec.encLe 2 g.compatibility.toNat ++ ([if g.debug then 1 else 0] ++ [g.extension])).length ≤ 4096
  rw [List.length_append, Codec.encLe_length]
  exact Nat.le_of_ble_eq_true rfl

theorem ServerGreeting.fits (g : ServerGreeting) : form.Fits g := by
  show (Codec.encLe 2 g.compatibility.toNat ++ [g.extension]).length ≤ 4096
  rw [List.length_append, Codec.encLe_length]
  exact Nat.le_of_ble_eq_true rfl

/-! ## Both sides -/

section Both

variable {G H : Host}

/-- What either side may be made to advertise: nothing other than its own level, or any up to that. -/
def Forced (forceCompat : Option Compatibility) : Prop :=
  forceCompat = none ∨ ∃ l, forceCompat = some (.level l) ∧ l ≤ ourCompatibilityNumeric

theorem Forced.le {forceCompat : Option Compatibility} (h : Forced forceCompat) :
    advertised forceCompat ≤ ourCompatibilityNumeric := by
  rcases h with rfl | ⟨l, rfl, hl⟩
  · exact UInt16.le_refl _
  · exact hl

theorem min_uint16 (a b : UInt16) : min a b = if a ≤ b then a else b := rfl

/-- **The level a side selects is the lower of its own and the peer's.** -/
theorem processCompatibilityLevels_eq (theirs : UInt16) :
    processCompatibilityLevels theirs = .level (min ourCompatibilityNumeric theirs) := by
  unfold processCompatibilityLevels chooseCompatibilityLevel Compatibility.ofU16
  rw [min_uint16]
  by_cases h : theirs < ourCompatibilityNumeric
  · rw [if_pos h, if_neg (UInt16.not_lt.2 (UInt16.le_of_lt h)), if_neg (UInt16.not_le.2 h)]
  · rw [if_neg h, if_neg (UInt16.lt_irrefl _), if_pos (UInt16.not_lt.1 h)]

/-- Of levels up to its own a side selects the peer's. -/
theorem processCompatibilityLevels_of_le {theirs : UInt16} (h : theirs ≤ ourCompatibilityNumeric) :
    processCompatibilityLevels theirs = .level theirs := by
  rw [processCompatibilityLevels_eq, min_uint16]
  split
  · rename_i hle; rw [UInt16.le_antisymm hle h]
  · rfl

/-- A pair of sides that greet. -/
abbrev Greeting (G H : Host) :=
  Pair G.sig H.sig (Except Err (ServerGreeting × Compatibility)) (Except Err (ClientGreeting × Compatibility))

/-- Both have greeted, and come to these levels. -/
def Selected (x : Greeting G H) (client server : Compatibility) : Prop :=
  ∃ g g', x.1.1 = .ret (.ok (g, client)) ∧ x.2.1 = .ret (.ok (g', server))

/-- **Each side selects by the level the other advertises.** -/
theorem selected_eq {remoteDebug : Bool} {fc fs : Option Compatibility} {v w : World} {x : Greeting G H}
    (h : Pair.Reach (S := G.sig) (T := H.sig) (clientOpening remoteDebug fc) (serverOpening fs) v w x)
    {client server : Compatibility} (hs : Selected x client server) :
    client = processCompatibilityLevels (advertised fs) ∧ server = processCompatibilityLevels (advertised fc) := by
  obtain ⟨⟨c, s⟩, ⟨d, t⟩⟩ := x
  obtain ⟨g, g', hc, hd⟩ := hs
  simp only at hc hd
  subst hc hd
  obtain ⟨h1, h2, -, -⟩ := Pair.reach h
  obtain ⟨hlevel, bs, gb, htaken, hbs, hgb⟩ := (Ok.clientOpening (H := G) remoteDebug fc v).run_ok h1
  obtain ⟨hlevel', gb', htaken', hgb'⟩ := (Ok.serverOpening (H := H) fs w).run_ok h2
  have hl := (Pair.taken_left h).trans (((Ok.serverOpening (H := H) fs w).run h2).flatMap _)
  have hr := (Pair.taken_right h).trans (((Ok.clientOpening (H := G) remoteDebug fc v).run h1).flatMap _)
  have hs : s.taken = bs ++ frame gb := htaken
  have ht : t.taken = frame gb' := htaken'
  simp only at hl hr
  rw [hs, List.flatMap_cons] at hl
  rw [ht] at hr
  -- the banner is as long as what was read in its place
  obtain ⟨rest, hrest⟩ := hl
  rw [List.append_assoc] at hrest
  obtain ⟨-, hl⟩ := List.append_inj hrest hbs
  obtain ⟨rfl, -, -⟩ := hgb.of_sent (x := rest) (y := []) (ServerGreeting.fits _) (ServerGreeting.readsBack _)
    (by rw [hl]; exact List.prefix_refl _)
  obtain ⟨rfl, -, -⟩ := hgb'.of_sent (x := []) (y := []) (ClientGreeting.fits _) (ClientGreeting.readsBack _)
    (by rw [List.append_nil]; exact hr)
  exact ⟨hlevel, hlevel'⟩

/-- Both sides can greet. -/
theorem exists_selected (remoteDebug : Bool) (fc fs : Option Compatibility) (v w : World) :
    ∃ x : Greeting G H, Pair.Reach (S := G.sig) (T := H.sig) (clientOpening remoteDebug fc) (serverOpening fs) v w x ∧
      Selected x (processCompatibilityLevels (advertised fs)) (processCompatibilityLevels (advertised fc)) := by
  -- the server says its banner and greets
  let s1 : Local H.sig := ((Local.init w).push (.sent (Msg.banner bannerText))).push
    (.sent (Msg.serverGreeting ⟨advertised fs, 0⟩))
  let next : Act H (ClientGreeting × Compatibility) := do
    let reply ← fromReaderFramed ClientGreeting.form
    return (reply, processCompatibilityLevels reply.compatibility)
  have h1 : Steps ((serverOpening fs : Act H _), Local.init w) (next, s1) := by
    refine Gives.steps (Gives.send (S := H.sig) rfl) (Gives.steps (Gives.pure () _) ?_)
    exact Gives.steps (Gives.channelSend (ServerGreeting.fits _) rfl) .refl
  -- the client reads both, and greets in between
  let t0 : Local G.sig := (hearBanner (Local.init v)).push (.sent (Msg.clientGreeting ⟨advertised fc, remoteDebug, 0⟩))
  have h2 : Gives (clientOpening remoteDebug fc : Act G _) (Local.init v)
      (⟨advertised fs, 0⟩, processCompatibilityLevels (advertised fs))
        (hear ServerGreeting.form ⟨advertised fs, 0⟩ t0) := by
    refine Gives.then (Gives.waitForBanner rfl) (Gives.then (Gives.channelSend (ClientGreeting.fits _) rfl) ?_)
    exact Gives.then (Gives.reader (ServerGreeting.fits _) (ServerGreeting.readsBack _) rfl) (Gives.pure _ _)
  -- and the server reads the client's greeting
  have h3 : Gives next s1 (⟨advertised fc, remoteDebug, 0⟩, processCompatibilityLevels (advertised fc))
      (hear ClientGreeting.form ⟨advertised fc, remoteDebug, 0⟩ s1) :=
    Gives.then (Gives.reader (ClientGreeting.fits _) (ClientGreeting.readsBack _) rfl) (Gives.pure _ _)
  refine ⟨_, ((Pair.Reach.right .refl h1 ?_).left h2 ?_).right h3 ?_, _, _, rfl, rfl⟩
  · exact List.nil_prefix
  · rw [taken_hear]
    simp only [t0, s1, Local.taken_push, taken_hearBanner, Local.taken_init, Local.out_push, Local.out_init,
      Proc.Event.read, Proc.Event.wrote, List.nil_append, List.append_nil]
    exact List.prefix_refl _
  · rw [taken_hear, out_hear]
    simp only [t0, s1, Local.taken_push, Local.taken_init, Local.out_push, out_hearBanner, Local.out_init,
      Proc.Event.read, Proc.Event.wrote, List.nil_append, List.append_nil]
    exact List.prefix_refl _

/-- What is asked of both sides once they have greeted: one level, the lower of the two that were advertised. -/
def LevelsAgree (G H : Host) (remoteDebug : Bool) (fc fs : Option Compatibility) : Prop :=
  ∀ (v w : World) (x : Greeting G H),
    Pair.Reach (S := G.sig) (T := H.sig) (clientOpening remoteDebug fc) (serverOpening fs) v w x →
      ∀ client server, Selected x client server →
        client = server ∧ client = .level (min (advertised fc) (advertised fs))

/-- **Both sides come to one level exactly when they advertise the same.** -/
theorem levels_agree_iff (remoteDebug : Bool) (fc fs : Option Compatibility) (hc : Forced fc) (hs : Forced fs) :
    LevelsAgree G H remoteDebug fc fs ↔ advertised fc = advertised fs := by
  constructor
  · intro h
    obtain ⟨x, hx, hsel⟩ := exists_selected (G := G) (H := H) remoteDebug fc fs (fun _ => none) fun _ => none
    have heq := (h _ _ x hx _ _ hsel).1
    rw [processCompatibilityLevels_of_le hs.le, processCompatibilityLevels_of_le hc.le] at heq
    exact (Compatibility.level.inj heq).symm
  · intro h v w x hx client server hsel
    obtain ⟨rfl, rfl⟩ := selected_eq hx hsel
    rw [h, processCompatibilityLevels_of_le hs.le]
    refine ⟨rfl, congrArg Compatibility.level ?_⟩
    rw [min_uint16, if_pos (UInt16.le_refl _)]

end Both

/-- A machine for either side. -/
def anyHost : Host := ⟨fun _ => 0, 0⟩

theorem levels_agree_iff_default : LevelsAgree anyHost anyHost false none (some (.level 4)) ↔
    advertised none = advertised (some (.level 4)) :=
  levels_agree_iff false none (some (.level 4)) (Or.inl rfl) (Or.inr ⟨4, rfl, by decide⟩)

/-- A client that is made to advertise 3 and a server that is made to advertise 1 come to 1 and to 3. -/
theorem not_levels_agree : ¬ LevelsAgree anyHost anyHost false (some (.level 3)) (some (.level 1)) := by
  intro h
  obtain ⟨x, hx, hsel⟩ := exists_selected (G := anyHost) (H := anyHost) false (some (.level 3)) (some (.level 1))
    (fun _ => none) fun _ => none
  exact absurd (h _ _ x hx _ _ hsel).1 (by decide)

end Qcp
