import Qcp.Reply
import Qcp.Settles
/-!
# Robust — what the peer says does not bring a side down

Whatever bytes a side is given, and wherever they end, it is to come to a result or an error.  `Unpanicked` says so of
a task from any state, and composes along it.  The server's side is one until it has negotiated
(`unpanicked_serverNegotiates`), and behind that unless it is built to check what it shows (`unpanicked_runServer`);
so is the client's once it has its banner.  `robust_iff` says what is left: the text of an unknown banner is shown
short of its last byte, which need not be the whole of its last character.
-/
namespace Qcp

open Bare (Bytes Text Codec)
open Proc (Steps Task Local Settles Comes)

open ControlChannel

def Panicked {α : Type} (r : Except Err α) : Prop := ∃ t, r = .error (.panicked t)

instance : Inhabited IoError := ⟨⟨.other, []⟩⟩

theorem Msg.enc_ne_nil {α : Type} (F : Form α) (a : α) : (F.msg a).enc ≠ [] := by
  intro h
  have hl := congrArg List.length h
  rw [F.enc_msg, Frame.frame_length, List.length_nil] at hl
  omega

section Unpanicked

variable {H : Host} {α β : Type}

variable {W : Prop}

/-- **Every run of it comes to a result**, and none panics but for the reason `W`, whatever was said before. -/
def Unpanicked (W : Prop) (p : Act H α) : Prop := ∀ s : Local H.sig, Settles (fun r _ => Panicked r → W) (p, s)

theorem Unpanicked.pure (a : α) : Unpanicked W (pure a : Act H α) := fun _ => Settles.pure nofun

theorem Unpanicked.fail {e : Err} (he : ∀ t, e ≠ .panicked t) : Unpanicked W (Task.fail e : Act H α) := fun _ =>
  Settles.fail fun ⟨t, ht⟩ => absurd (Except.error.inj ht) (he t)

theorem Unpanicked.panic (t : Text) (h : W) : Unpanicked W (Task.fail (.panicked t) : Act H α) := fun _ =>
  Settles.fail fun _ => h

theorem Unpanicked.bind {p : Act H α} {f : α → Act H β} (hp : Unpanicked W p) (hf : ∀ a, Unpanicked W (f a)) :
    Unpanicked W (p >>= f : Act H β) := by
  intro s
  refine Settles.then ((hp s).mono fun r s' h => ?_)
  cases r with
  | ok a => exact hf a s'
  | error e =>
    rintro ⟨t, ht⟩
    exact h ⟨t, congrArg _ (Except.error.inj ht)⟩

theorem Unpanicked.attempt {p : Act H α} (hp : Unpanicked W p) : Unpanicked W p.attempt :=
  fun s => Settles.attempt ((hp s).mono fun _ _ _ => nofun)

theorem Unpanicked.ofExcept {ε : Type} {wrap : ε → Err} (r : Except ε α) (hw : ∀ e t, wrap e ≠ .panicked t) :
    Unpanicked W (Act.ofExcept wrap r : Act H α) := by
  cases r with
  | ok a => exact .pure a
  | error e => exact .fail (hw e)

theorem Unpanicked.flush : Unpanicked W (Act.flush : Act H Unit) :=
  .bind (fun _ => Settles.flush fun _ => nofun) fun _ => .ofExcept _ nofun

theorem Unpanicked.send {F : Form α} (a : α) : Unpanicked W (ControlChannel.send F a : Act H Unit) := by
  refine .bind ?_ fun _ => .flush
  unfold toWriterFramed
  split
  · exact .bind (fun _ => Settles.send (Msg.enc_ne_nil F a) fun _ _ => nofun) fun _ => .ofExcept _ nofun
  · exact .fail nofun

theorem Unpanicked.reader (F : Form α) : Unpanicked W (fromReaderFramed F : Act H α) :=
  .bind (fun _ => Settles.recv (fun _ _ => nofun) fun _ _ => nofun) fun _ =>
    .bind (fun _ => Settles.note nofun) fun _ => .pure _

theorem Unpanicked.giveUp (f : ServerFailure) {e : Err} (he : ∀ t, e ≠ .panicked t) :
    Unpanicked W (do sendError f; Task.fail e : Act H α) := .bind (.send _) fun _ => .fail he

end Unpanicked

/-! ## Until it has negotiated -/

namespace ControlChannel

variable {H : Host}

/-- What a server settles on, or refuses the client over. -/
def serverAgrees (E : EngRepr) (describe : NegotiateError → Text) (manager : Manager) (message : ClientMessageV2) :
    Act H Configuration :=
  match combineBandwidthConfigurations E manager message with
  | .error e => do
    sendError (.negotiationFailed (e.text describe))
    Task.fail (.other ("Config negotiation failed: ".toList ++ e.text describe))
  | .ok config => pure config

/-- `runServer`, until it has negotiated. -/
def serverNegotiates (E : EngRepr) (describe : NegotiateError → Text) (setupTracing : Bool → Except Text Unit)
    (manager : Manager) (forceCompat : Option Compatibility) :
    Act H (Compatibility × ClientMessageV2 × Configuration) := do
  let r ← serverOpening forceCompat
  Act.ofExcept .other (setupTracing r.1.debug)
  let message ← serverReadClientMessage
  let config ← serverAgrees E describe manager message
  return (r.2, message, config)

/-- And what is left of it. -/
def serverFinishes (P : Platform) (generate : Except Text Credentials)
    (r : Compatibility × ClientMessageV2 × Configuration) : Act H (Compatibility × Configuration) := do
  let credentials ← Act.ofExcept .other generate
  match createEndpoint P credentials r.2.1.credentials r.2.1.connectionType r.2.2 r.2.1.direction.serverMode r.1 with
  | .error (.error e) => do
    sendError (.endpointFailed e)
    Task.fail (.other ("failed to create server endpoint: ".toList ++ e))
  | .error (.panic t) => Task.fail (.panicked t)
  | .ok (port, warning) => do
    serverSendMessage r.1 port credentials r.2.2 (warning.getD [])
    return (r.1, r.2.2)

theorem runServer_eq_negotiates (E : EngRepr) (P : Platform) (describe : NegotiateError → Text)
    (generate : Except Text Credentials) (setupTracing : Bool → Except Text Unit) (manager : Manager)
    (forceCompat : Option Compatibility) :
    (runServer E P describe generate setupTracing manager forceCompat : Act H _) =
      serverNegotiates E describe setupTracing manager forceCompat >>= serverFinishes P generate := by
  rw [runServer_eq]
  unfold serverNegotiates
  simp only [Task.bind_assoc]
  refine congrArg _ (funext fun r => congrArg _ (funext fun _ => ?_))
  unfold runServerInner
  rw [Task.bind_assoc]
  refine congrArg _ (funext fun message => ?_)
  unfold serverReply serverAgrees serverFinishes
  cases combineBandwidthConfigurations E manager message with
  | error e =>
    simp only [Task.bind_assoc]
    rfl
  | ok config =>
    show ((Act.ofExcept .other generate >>= _) >>= _ : Act H _) = Act.ofExcept .other generate >>= _
    rw [Task.bind_assoc]
    refine congrArg _ (funext fun credentials => ?_)
    simp only
    rcases createEndpoint P credentials message.credentials message.connectionType config message.direction.serverMode
      r.2 with (_ | _) | p
    · exact Task.bind_assoc _ _ _
    · rfl
    · exact Task.bind_assoc _ _ _

end ControlChannel

/-! ## Either side -/

section Sides

variable {H : Host} {W : Prop} (E : EngRepr)

theorem unpanicked_clientSendMessage (compat : Compatibility) (credentials : Credentials) (ct : ConnectionType)
    (rc : Bool) (config : ConfigurationOptional) (direction : Direction) :
    Unpanicked W (clientSendMessage compat credentials ct rc config direction : Act H Unit) := by
  rw [clientSendMessage_eq]
  split
  · exact .send _
  · exact .fail nofun

theorem unpanicked_clientReadServerMessage : Unpanicked W (clientReadServerMessage : Act H _) := by
  refine .bind (.reader _) fun m => ?_
  cases m with
  | v1 m => exact .pure _
  | v2 m => exact .pure _
  | failure f => exact .fail nofun
  | toFollow => exact .fail nofun

/-- **Once it has its banner a client does not panic.** -/
theorem unpanicked_afterBanner (credentials : Credentials) (ct : ConnectionType) (manager : Manager)
    (remoteDebug remoteConfig : Bool) (direction : Direction) (forceCompat : Option Compatibility) :
    Unpanicked W (do
      let (_, compat) ← clientExchangeGreetings remoteDebug forceCompat
      clientSendMessage compat credentials ct remoteConfig (manager.preferences E) direction
      let message ← clientReadServerMessage
      return (compat, message) : Act H (Compatibility × ServerMessageV2)) := by
  refine .bind (.bind (.send _) fun _ => .bind (.reader _) fun _ => .pure _) fun r => ?_
  exact .bind (unpanicked_clientSendMessage _ _ _ _ _ _) fun _ =>
    .bind unpanicked_clientReadServerMessage fun _ => .pure _

theorem unpanicked_serverOpening (forceCompat : Option Compatibility) :
    Unpanicked W (serverOpening forceCompat : Act H _) := by
  have hne : (Msg.banner bannerText).enc ≠ [] := by decide
  refine .bind (fun _ => Settles.send hne fun _ _ => nofun) fun r => .bind (.ofExcept r nofun) fun _ => ?_
  exact .bind (.send _) fun _ => .bind (.reader _) fun _ => .pure _

theorem unpanicked_serverReadClientMessage : Unpanicked W (serverReadClientMessage : Act H _) := by
  refine .bind (.attempt (.reader _)) fun r => ?_
  split
  · exact .giveUp _ nofun
  · exact .giveUp _ nofun
  · exact .pure _
  · exact .pure _

/-- **No client brings a server down** before it has negotiated, -/
theorem unpanicked_serverNegotiates (describe : NegotiateError → Text) (setupTracing : Bool → Except Text Unit)
    (manager : Manager) (forceCompat : Option Compatibility) :
    Unpanicked W (serverNegotiates E describe setupTracing manager forceCompat : Act H _) := by
  refine .bind (unpanicked_serverOpening _) fun r => .bind (.ofExcept _ nofun) fun _ => ?_
  refine .bind unpanicked_serverReadClientMessage fun message => .bind ?_ fun _ => .pure _
  unfold serverAgrees
  split
  · exact .giveUp _ nofun
  · exact .pure _

theorem unpanicked_serverReply (P : Platform) (describe : NegotiateError → Text) (generate : Except Text Credentials)
    (compat : Compatibility) (manager : Manager) (message : ClientMessageV2) :
    Unpanicked (P.build.overflowChecks = true ∧ P.build.debugLog = true)
      (serverReply E P describe generate compat manager message : Act H _) := by
  rw [serverReply_eq]
  split
  · exact .giveUp _ nofun
  · exact .fail nofun
  · rename_i t hr
    obtain ⟨config, -, hshows⟩ := parts_of_panic hr
    exact .panic t ⟨by_contra fun h => hshows fun ho => absurd ho h, by_contra fun h => hshows fun _ hd => absurd hd h⟩
  · exact .bind (.bind (.send _) fun _ => .flush) fun _ => .pure _

/-- and one that does not check what it shows is not brought down at all. -/
theorem unpanicked_runServer (P : Platform) (describe : NegotiateError → Text) (generate : Except Text Credentials)
    (setupTracing : Bool → Except Text Unit) (manager : Manager) (forceCompat : Option Compatibility) :
    Unpanicked (P.build.overflowChecks = true ∧ P.build.debugLog = true)
      (runServer E P describe generate setupTracing manager forceCompat : Act H _) := by
  rw [runServer_eq]
  refine .bind (unpanicked_serverOpening _) fun _ => .bind (.ofExcept _ nofun) fun _ => .bind ?_ fun _ => .pure _
  exact .bind unpanicked_serverReadClientMessage fun m => unpanicked_serverReply E P describe generate _ manager m

end Sides

/-! ## The banner -/

theorem encText_injective {s t : Text} (h : Codec.encText s = Codec.encText t) : s = t := by
  have hs := Codec.decText_encText s _ (Nat.le_refl _)
  rw [h, Codec.decText_encText t _ (Nat.le_refl _)] at hs
  exact (Option.some.inj hs).symm

/-- **As long as a banner, and text whose last character takes more than one byte.** -/
def CutsCharacter (bs : Bytes) : Prop :=
  bs.length = bannerLen ∧ ∃ t c, bs = Codec.encText (t ++ [c]) ∧ c.utf8Size ≠ 1

theorem not_cutsCharacter_of_short {bs : Bytes} (h : bs.length < bannerLen) : ¬ CutsCharacter bs :=
  fun hc => Nat.ne_of_lt h hc.1

theorem not_cutsCharacter_of_none {bs : Bytes} (h : Codec.decText bannerLen bs = none) : ¬ CutsCharacter bs := by
  rintro ⟨hl, t, c, rfl, -⟩
  rw [Codec.decText_encText _ _ (Nat.le_of_eq hl)] at h
  cases h

theorem cutsCharacter_iff {bs : Bytes} {b : Text} (hl : bs.length = bannerLen)
    (h : Codec.decText bannerLen bs = some b) :
    CutsCharacter bs ↔ chopByte b = none := by
  have hb := Codec.encText_of_decText _ h
  unfold chopByte
  constructor
  · rintro ⟨-, t, c, hbs, hc⟩
    rw [← hb] at hbs
    rw [encText_injective hbs, List.getLast?_concat]
    exact if_neg hc
  · intro hn
    cases hlast : b.getLast? with
    | none =>
      rw [List.getLast?_eq_none_iff.1 hlast] at hb
      rw [← hb] at hl
      exact absurd hl (by decide)
    | some c =>
      rw [hlast] at hn
      refine ⟨hl, b.dropLast, c, ?_, fun hc => ?_⟩
      · rw [List.dropLast_append_getLast? c hlast, hb]
      · simp only [if_pos hc] at hn
        cases hn

theorem not_cutsCharacter_banner {bs : Bytes} (h : Codec.encText bannerText <+: bs) :
    ¬ CutsCharacter (bs.take bannerLen) := by
  obtain ⟨rest, rfl⟩ := h
  rw [bannerLen, List.take_left]
  intro hc
  exact absurd ((cutsCharacter_iff rfl bannerText_decodes).1 hc) (by decide)

/-- What waiting for the banner comes to with what was read. -/
structure BannerOutcome (r : Except Err Unit) (bs : Bytes) : Prop where
  length_le : bs.length ≤ bannerLen
  ok_iff : r = .ok () ↔ bs = Codec.encText bannerText
  panicked_iff : Panicked r ↔ CutsCharacter bs

theorem BannerOutcome.short {bs : Bytes} (h : bs.length < bannerLen) (e : IoError) :
    BannerOutcome (.error (.io e)) bs where
  length_le := Nat.le_of_lt h
  ok_iff := ⟨nofun, fun hb => by rw [hb] at h; exact absurd h (by decide)⟩
  panicked_iff := ⟨nofun, fun hc => absurd hc (not_cutsCharacter_of_short h)⟩

/-- What is made of the bytes of a banner. -/
def checkBanner (bs : Bytes) : Except Err Unit :=
  match Codec.decText bannerLen bs with
  | none => .error (.other "garbage server banner".toList)
  | some b =>
    if b = bannerText then .ok ()
    else if b = oldBanner then
      .error (.other "unsupported protocol version (upgrade server to qcp 0.3.0 or later)".toList)
    else
      match chopByte b with
      | none => .error (.panicked "byte index is not a char boundary".toList)
      | some shown => .error (.other ("unsupported protocol version (unrecognised server banner `".toList ++ shown ++
          "'; may be too new for me?)".toList))

theorem bannerOutcome_checkBanner {bs : Bytes} (hl : bs.length = bannerLen) : BannerOutcome (checkBanner bs) bs := by
  unfold checkBanner
  cases hd : Codec.decText bannerLen bs with
  | none =>
    refine ⟨Nat.le_of_eq hl, ⟨nofun, fun h => ?_⟩, ⟨nofun, fun h => absurd h (not_cutsCharacter_of_none hd)⟩⟩
    rw [h, bannerText_decodes] at hd
    cases hd
  | some b =>
    have hcut := cutsCharacter_iff hl hd
    have hb := Codec.encText_of_decText _ hd
    simp only
    by_cases hban : b = bannerText
    · subst hban
      rw [if_pos rfl]
      exact ⟨Nat.le_of_eq hl, ⟨fun _ => hb.symm, fun _ => rfl⟩, ⟨nofun, fun h => absurd (hcut.1 h) (by decide)⟩⟩
    · have hne : bs ≠ Codec.encText bannerText := fun h => hban (encText_injective (hb.trans h))
      rw [if_neg hban]
      by_cases hold : b = oldBanner
      · subst hold
        rw [if_pos rfl]
        exact ⟨Nat.le_of_eq hl, ⟨nofun, fun h => absurd h hne⟩, ⟨nofun, fun h => absurd (hcut.1 h) (by decide)⟩⟩
      · rw [if_neg hold]
        cases hchop : chopByte b with
        | none => exact ⟨Nat.le_of_eq hl, ⟨nofun, fun h => absurd h hne⟩, ⟨fun _ => hcut.2 hchop, fun _ => ⟨_, rfl⟩⟩⟩
        | some shown =>
          refine ⟨Nat.le_of_eq hl, ⟨nofun, fun h => absurd h hne⟩, ⟨nofun, fun h => ?_⟩⟩
          rw [hcut.1 h] at hchop
          cases hchop

section Banner

variable {H : Host}

theorem waitForBanner_eq : (ControlChannel.waitForBanner : Act H Unit) = (do
    let first ← Act.ofExcept .io (← Task.read 1)
    let rest ← Act.ofExcept .io (← Task.read (bannerLen - 1))
    Proc.Prog.ret (checkBanner (first ++ rest)) : Act H Unit) := by
  unfold ControlChannel.waitForBanner checkBanner
  refine congrArg _ (funext fun r => congrArg _ (funext fun first => congrArg _ (funext fun r' => congrArg _ (funext
    fun rest => ?_))))
  cases Codec.decText bannerLen (first ++ rest) with
  | none => rfl
  | some b =>
    simp only
    split
    · rfl
    · split
      · rfl
      · cases chopByte b <;> rfl

/-- **What waiting for the banner comes to.** -/
theorem settles_waitForBanner (w : World) :
    Settles (fun r s => BannerOutcome r s.taken) ((waitForBanner : Act H Unit), Local.init w) := by
  rw [waitForBanner_eq]
  refine Settles.then (Settles.read (Or.inl Nat.one_pos) (fun first hr hf => ?_) fun f bs hl => ?_)
  · refine Settles.then (Settles.pure ?_)
    refine Settles.then (Settles.read (Or.inl (Nat.zero_lt_succ 11)) (fun rest _ hr => ?_) fun f bs hl => ?_)
    · refine Settles.then (Settles.pure ?_)
      refine .ends _ _ ?_
      have htaken : (((Local.init w).push (.took first)).push (.took rest) : Local H.sig).taken = first ++ rest := by
        simp [Proc.Event.read]
      rw [htaken]
      apply bannerOutcome_checkBanner
      rw [List.length_append, hf, hr]
      rfl
    · refine Settles.then (Settles.fail ?_)
      refine .short ?_ f
      have : bannerLen = 13 := rfl
      simp [Proc.Event.read, hf]
      omega
  · refine Settles.then (Settles.fail ?_)
    refine .short ?_ f
    have : bannerLen = 13 := rfl
    simp [Proc.Event.read]
    omega

/-- **A client panics exactly over such a banner.** -/
theorem settles_runClient (E : EngRepr) (credentials : Credentials) (ct : ConnectionType) (manager : Manager)
    (remoteDebug remoteConfig : Bool) (direction : Direction) (forceCompat : Option Compatibility) (w : World) :
    Settles (fun r s => Panicked r ↔ CutsCharacter (s.taken.take bannerLen))
      ((runClient E credentials ct manager remoteDebug remoteConfig direction forceCompat : Act H _),
        Local.init w) := by
  refine Settles.then ((settles_waitForBanner w).mono fun r s h => ?_)
  cases r with
  | ok u =>
    have hban : Codec.encText bannerText <+: s.taken := by rw [h.ok_iff.1 rfl]
    refine ((unpanicked_afterBanner (W := False) E credentials ct manager remoteDebug remoteConfig direction
      forceCompat s).and_preserved
      (I := fun s => Codec.encText bannerText <+: s.taken) hban fun h hs => h.trans (Proc.taken_prefix_of_step hs)).mono
      fun r s' h => ?_
    exact ⟨fun hr => absurd hr h.1, fun hc => absurd hc (not_cutsCharacter_banner h.2)⟩
  | error e =>
    simp only [Proc.Leads]
    rw [List.take_of_length_le h.length_le, ← h.panicked_iff]
    constructor
    · rintro ⟨t, ht⟩
      exact ⟨t, congrArg _ (Except.error.inj ht)⟩
    · rintro ⟨t, ht⟩
      exact ⟨t, congrArg _ (Except.error.inj ht)⟩

end Banner

/-! ## Whether they are robust -/

section Robust

variable {G H : Host} {α β γ : Type}

/-- What is asked of both sides, whatever each is told by the other: they come to a result and do not panic, the
server until it has negotiated, and as a whole unless its build checks what it shows; and the client takes nothing but
the banner for the banner. -/
structure Robust (B : Build) (client : Act G α) (negotiates : Act H β) (server : Act H γ)
    (fromServer fromClient : Bytes) :
    Prop where
  client : ∀ w, Settles (fun r s => s.taken <+: fromServer → ¬ Panicked r) (client, Local.init w)
  negotiates : ∀ w, Settles (fun r s => s.taken <+: fromClient → ¬ Panicked r) (negotiates, Local.init w)
  server : ∀ w, Settles (fun r s => s.taken <+: fromClient → Panicked r →
    B.overflowChecks = true ∧ B.debugLog = true) (server, Local.init w)
  banner : ∀ w, Settles (fun r s => s.taken <+: fromServer → (r = .ok () ↔ s.taken = Codec.encText bannerText))
    ((waitForBanner : Act G Unit), Local.init w)

/-- A run in which such a banner is read. -/
theorem comes_panicked {client : Act G α} {f : Unit → Act G α} (hc : client = waitForBanner >>= f) {bs : Bytes}
    (h : CutsCharacter bs) (w : World) : ∃ r s, Steps (client, Local.init w) (.ret r, s) ∧ s.taken = bs ∧
    Panicked r := by
  subst hc
  obtain ⟨t, ht⟩ := (bannerOutcome_checkBanner h.1).panicked_iff.2 h
  have hl : bs.length = bannerLen := h.1
  have hrun : Comes False (waitForBanner : Act G Unit) (Local.init w) (checkBanner bs)
      (((Local.init w).push (.took (bs.take 1))).push (.took (bs.drop 1))) := by
    rw [waitForBanner_eq]
    have h1 : (bs.take 1).length = 1 := by rw [List.length_take, hl]; rfl
    have h2 : (bs.drop 1).length = bannerLen - 1 := by rw [List.length_drop, hl]
    refine Comes.then (Comes.read (S := G.sig) rfl rfl h1) (Comes.then (Comes.pure _ _) ?_)
    refine Comes.then (Comes.read (S := G.sig) rfl rfl h2) (Comes.then (Comes.pure _ _) ?_)
    rw [List.take_append_drop]
    exact .refl
  rw [ht] at hrun
  refine ⟨_, _, (hrun.stop f).steps, ?_, t, rfl⟩
  rw [Local.taken_push, Local.taken_push, Local.taken_init, List.nil_append]
  exact List.take_append_drop 1 bs

/-- **Both sides are robust exactly when the first bytes from the server do not end in the middle of a character.** -/
theorem robust_iff (E : EngRepr) (credentials : Credentials) (ct : ConnectionType) (manager : Manager)
    (remoteDebug remoteConfig : Bool) (direction : Direction) (forceCompat : Option Compatibility) (P : Platform)
    (describe : NegotiateError → Text) (generate : Except Text Credentials) (setupTracing : Bool → Except Text Unit)
    (serverManager : Manager) (serverForceCompat : Option Compatibility) (fromServer fromClient : Bytes) :
    Robust P.build (runClient E credentials ct manager remoteDebug remoteConfig direction forceCompat : Act G _)
      (serverNegotiates E describe setupTracing serverManager serverForceCompat : Act H _)
      (runServer E P describe generate setupTracing serverManager serverForceCompat : Act H _) fromServer fromClient ↔
      ¬ CutsCharacter (fromServer.take bannerLen) := by
  constructor
  · intro h hc
    obtain ⟨r, s, hs, ht, hp⟩ := comes_panicked (f := _) rfl hc fun _ => none
    exact (h.client _).result hs (by rw [ht]; exact List.take_prefix _ _) hp
  · refine fun hc => ⟨fun w => ?_, fun w => ?_, fun w => ?_, fun w => ?_⟩
    · refine (settles_runClient E credentials ct manager remoteDebug remoteConfig direction forceCompat w).mono
        fun r s h ht hp => hc ?_
      have hcut := h.1 hp
      obtain ⟨rest, rfl⟩ := ht
      have hl : bannerLen ≤ s.taken.length := by
        have := hcut.1
        rw [List.length_take] at this
        omega
      rwa [List.take_append_of_le_length hl]
    · exact (unpanicked_serverNegotiates E describe setupTracing serverManager serverForceCompat _).mono
        fun r s h _ => h
    · exact (unpanicked_runServer E P describe generate setupTracing serverManager serverForceCompat _).mono
        fun r s h _ => h
    · exact (settles_waitForBanner w).mono fun r s h _ => h.ok_iff

end Robust

/-- As long as the banner, and it ends in a letter of two bytes. -/
def accentedBanner : Bytes := Codec.encText "qcp-server-é".toList

theorem cutsCharacter_accentedBanner : CutsCharacter accentedBanner :=
  ⟨by decide, "qcp-server-".toList, 'é', rfl, by decide⟩

/-- **A server can bring a client down** before it has said anything else. -/
theorem not_robust : ¬ Robust releaseBuild
    (runClient EngRepr.decimal clientCredentials .ipv4 rawPublicKeyServer false false .both none : Act anyHost _)
    (serverNegotiates EngRepr.decimal tellPlainly (fun _ => .ok ()) rawPublicKeyServer none : Act anyHost _)
    (runServer EngRepr.decimal serverPlatform tellPlainly (.ok serverCredentials) (fun _ => .ok ())
    rawPublicKeyServer none :
      Act anyHost _) accentedBanner [] := by
  intro h
  obtain ⟨r, s, hs, ht, hp⟩ := comes_panicked (f := _) rfl cutsCharacter_accentedBanner fun _ => none
  exact (h.client _).result hs (by rw [ht]) hp

end Qcp
