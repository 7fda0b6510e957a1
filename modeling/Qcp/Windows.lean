import Qcp.Assembled
import Qcp.Agreement
/-!
# Windows — how far the sender and the receiver of either way may go

A server settles on rates and answers with them, and a client works with what it was told.  Each end makes the
transport of its endpoint of its own configuration and for its own way: `windows_matched` says that what it may send
before it hears anything is eight times what the other end holds for it, and what either can be kept from making its
transport by.
-/
namespace Qcp

open Bare (Text)

/-! ## What matches -/

/-- **Each way that data may go, the sender's window is eight times the receiver's**; the other way nothing is set, and
both start from the same round trip. -/
structure WindowsMatch (direction : Direction) (client server : TransportConfig) : Prop where
  initialRtt : client.initialRtt = server.initialRtt
  up : direction ≠ .serverToClient → ∃ s r, client.send = some s ∧ server.receive = some r ∧
    s.sendWindow.toNat = 8 * r.receiveWindow.toNat ∧ s.sendWindow.toNat = 8 * r.streamReceiveWindow.toNat
  down : direction ≠ .clientToServer → ∃ s r, server.send = some s ∧ client.receive = some r ∧
    s.sendWindow.toNat = 8 * r.receiveWindow.toNat ∧ s.sendWindow.toNat = 8 * r.streamReceiveWindow.toNat
  notUp : direction = .serverToClient → client.send = none ∧ server.receive = none
  notDown : direction = .clientToServer → server.send = none ∧ client.receive = none

/-- The rates of one end, as the other has them. -/
structure Mirrored (client server : Configuration) : Prop where
  up : client.getTx = server.getRx
  down : client.getRx = server.getTx
  rtt : client.rtt = server.rtt

theorem Mirrored.windowsMatch {client server : Configuration} {direction : Direction} {t t' : TransportConfig}
    (h : Mirrored client server) (hc : client.Makes direction.clientMode t)
    (hs : server.Makes direction.serverMode t') :
    WindowsMatch direction t t' := by
  refine ⟨by rw [hc.initialRtt, hs.initialRtt, h.rtt], fun hd => ?_, fun hd => ?_, ?_, ?_⟩
  · obtain ⟨s, hsome, hsw⟩ := hc.sends (by cases direction <;> simp_all [Direction.clientMode])
    obtain ⟨r, hsome', hrw, hsrw⟩ := hs.receives (by cases direction <;> simp_all [Direction.serverMode])
    have hval : s.sendWindow.toNat = 8 * r.streamReceiveWindow.toNat := by rw [hsw, hsrw, h.up, h.rtt]
    exact ⟨s, r, hsome, hsome', hrw ▸ hval, hval⟩
  · obtain ⟨s, hsome, hsw⟩ := hs.sends (by cases direction <;> simp_all [Direction.serverMode])
    obtain ⟨r, hsome', hrw, hsrw⟩ := hc.receives (by cases direction <;> simp_all [Direction.clientMode])
    have hval : s.sendWindow.toNat = 8 * r.streamReceiveWindow.toNat := by rw [hsw, hsrw, h.down, h.rtt]
    exact ⟨s, r, hsome, hsome', hrw ▸ hval, hval⟩
  · rintro rfl
    exact ⟨hc.silent rfl, hs.deaf rfl⟩
  · rintro rfl
    exact ⟨hs.silent rfl, hc.deaf rfl⟩

/-! ## What both ends have of the exchange -/

section Exchange

variable {E : EngRepr} {P : Platform} {describe : NegotiateError → Text} {generate : Except Text Credentials}
  {compat' : Compatibility} {manager' : Manager} {m2 : ClientMessageV2} {s : Configuration} {sm : ServerMessage}
  {sm2 : ServerMessageV2}

/-- What a server sends are its own rates, and they are valid. -/
theorem rates_of_answer (h : serverRespond E P describe generate compat' manager' m2 = .answer s sm)
    (hm : sm.toV2 = some sm2) : s.tryValidate = .ok () ∧ sm2.bandwidthToServer = s.getRx ∧
      sm2.bandwidthToClient = s.getTx ∧ sm2.rtt = s.rtt := by
  obtain ⟨hc, credentials, port, warning, -, -, hsm⟩ := parts_of_answer h
  obtain ⟨td, -, hnew⟩ := serverMessage_ok hsm
  refine ⟨valid_of_combine hc, ?_⟩
  unfold ServerMessage.new at hnew
  split at hnew
  · split at hnew
    · cases hnew; cases hm; exact ⟨rfl, rfl, rfl⟩
    · cases hnew; cases hm; exact ⟨rfl, rfl, rfl⟩
  · cases hnew

/-- What a client learns are the rates the server has for it. -/
theorem mirrored_of_learned {manager : Manager} {own c : Configuration}
    (hown : (manager.applySystemDefault E).get E = .ok own)
    (h : serverRespond E P describe generate compat' manager' m2 = .answer s sm) (hm : sm.toV2 = some sm2)
    (hc : sm2.learned E manager = .ok c) : Mirrored c s := by
  obtain ⟨hv, hup, hdown, hrtt⟩ := rates_of_answer h hm
  obtain ⟨hrx, htx, hcrtt, -⟩ := learned_fields hown hc
  have hsound := (s.tryValidate_iff.1 hv).1
  have hne : s.getRx ≠ 0 := fun h0 => by
    have := hsound.rx
    rw [h0] at this
    exact absurd this (by decide)
  refine ⟨?_, ?_, by rw [hcrtt, hrtt]⟩
  · unfold Configuration.getTx
    rw [htx, hup, if_neg hne]
  · show c.rx = s.getTx
    rw [hrx, hdown]

end Exchange

/-- **The windows of both ends match**, whatever they have settled on: a client with a valid configuration of its own
and the server that has answered it can both make their transport, unless for its controller or where their build
cannot show the rates, and then for the same way. -/
theorem windows_matched (E : EngRepr) (P : Platform) (describe : NegotiateError → Text)
    (generate : Except Text Credentials)
    (B B' : Build) (compat compat' : Compatibility) (manager manager' : Manager) (credentials : Credentials)
    (ct : ConnectionType) (remoteConfig : Bool) (direction : Direction) (m : ClientMessage) (m2 : ClientMessageV2)
    (own c s : Configuration) (sm : ServerMessage) (sm2 : ServerMessageV2)
    (hown : (manager.applySystemDefault E).get E = .ok own) (hvalid : own.tryValidate = .ok ())
    (hm : clientMessage compat credentials ct remoteConfig (manager.preferences E) direction = .ok m)
    (hm2 : m.toV2 = some m2) (hanswer : serverRespond E P describe generate compat' manager' m2 = .answer s sm)
    (hsm : sm.toV2 = some sm2) (hlearned : sm2.learned E manager = .ok c) :
    (∀ l, (c.createConfig B direction.clientMode l).isOk = true ↔
      (c.congestion = .newReno → l.supports .newReno = true) ∧ c.Shows B) ∧
    (∀ l, (s.createConfig B' m2.direction.serverMode l).isOk = true ↔
      (s.congestion = .newReno → l.supports .newReno = true) ∧ s.Shows B') ∧
    ∀ l l' t t', c.createConfig B direction.clientMode l = .ok t →
      s.createConfig B' m2.direction.serverMode l' = .ok t' → WindowsMatch direction t t' := by
  obtain ⟨cert, bs, hcert, hreceived⟩ :=
    received_of_clientMessage compat credentials ct remoteConfig direction _ m m2 hm hm2
  obtain ⟨-, -, hdirection⟩ := requests_received compat cert bs ct remoteConfig _ direction hcert m2 hreceived
  have hs := (rates_of_answer hanswer hsm).1
  have hc := (learned_valid_iff hown hvalid hlearned).2 (sound_of_answer hanswer hsm)
  refine ⟨c.createConfig_isOk_iff hc _, s.createConfig_isOk_iff hs _, fun l l' t t' ht ht' => ?_⟩
  rw [hdirection] at ht'
  exact (mirrored_of_learned hown hanswer hsm hlearned).windowsMatch (Configuration.makes_of_createConfig hc ht)
    (Configuration.makes_of_createConfig hs ht')

theorem exists_of_isOk {ε α : Type} {x : Except ε α} (h : x.isOk = true) : ∃ a, x = .ok a := by
  cases x with
  | error e => cases h
  | ok a => exact ⟨a, rfl⟩

/-- What the defaults of both ends come to, in a build that shows them. -/
theorem windows_matched_bare : ∃ t t', WindowsMatch .serverToClient t t' := by
  obtain ⟨m, m2, s, sm, sm2, c, hm, hm2, hanswer, hsm, hlearned, hc, hs⟩ : ∃ m m2 s sm sm2 c,
      clientMessage (.level 4) clientCredentials .ipv4 false (bareManager.preferences EngRepr.decimal) .serverToClient =
        .ok m ∧ m.toV2 = some m2 ∧
      serverRespond EngRepr.decimal serverPlatform tellPlainly (.ok serverCredentials) (.level 4) bareManager m2 =
        .answer s sm ∧ sm.toV2 = some sm2 ∧ sm2.learned EngRepr.decimal bareManager = .ok c ∧
      ((c.congestion = .newReno → (Compatibility.level 4).supports .newReno = true) ∧ c.Shows debugBuild) ∧
      (s.congestion = .newReno → (Compatibility.level 4).supports .newReno = true) ∧ s.Shows debugBuild :=
    ⟨_, _, _, _, _, _, rfl, rfl, rfl, rfl, rfl, ⟨fun _ => rfl, fun _ _ => ⟨by decide, by decide⟩⟩, fun _ => rfl,
      fun _ _ => ⟨by decide, by decide⟩⟩
  obtain ⟨hclient, hserver, hmatch⟩ :=
    windows_matched EngRepr.decimal serverPlatform tellPlainly (.ok serverCredentials)
    debugBuild debugBuild (.level 4) (.level 4) bareManager bareManager clientCredentials .ipv4 false
      .serverToClient m m2
    Configuration.systemDefault c s sm sm2 rfl (by decide) hm hm2 hanswer hsm hlearned
  obtain ⟨t, ht⟩ := exists_of_isOk ((hclient (.level 4)).2 hc)
  obtain ⟨t', ht'⟩ := exists_of_isOk ((hserver (.level 4)).2 hs)
  exact ⟨t, t', hmatch _ _ t t' ht ht'⟩

end Qcp
