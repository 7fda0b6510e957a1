import Qcp.ServerMsg
/-!
# ServerVersions — what a client learns from either version of the server message

The two versions of a server's message differ in two ways: version 2 leaves out the warning, and it leaves out a
congestion controller that is the default, so that a controller the client states of its own survives.
`server_versions_agree_iff` says that there is no other difference.
-/
namespace Qcp

open Bare (Bytes Text)
open Layers (Dict)

namespace Field

variable {α : Type}

/-- The field is absent or has a value that can be read. -/
def Readable (f : Field α) (look : Dict Key Value) : Prop := ∃ o, f.getOpt look = .ok o

/-- Over a default that can be read, a field has a value exactly when it is readable. -/
theorem get_or_iff_readable (f : Field α) (look dflt : Dict Key Value) (d : α) (hd : f.get dflt = .ok d) :
    (∃ a, f.get (fun k => (look k).or (dflt k)) = .ok a) ↔ f.Readable look := by
  constructor
  · rintro ⟨a, ha⟩
    unfold Readable getOpt
    unfold get at ha
    cases hl : look f.key with
    | none => exact ⟨none, rfl⟩
    | some v =>
      simp only [hl, Option.some_or] at ha ⊢
      cases hr : f.read v with
      | none => rw [hr] at ha; cases ha
      | some b => exact ⟨some b, rfl⟩
  · rintro ⟨o, ho⟩
    rw [f.get_or _ _ _ ho]
    cases o with
    | none => exact ⟨d, hd⟩
    | some a => exact ⟨a, rfl⟩

end Field

/-- The fields that neither version of the message states can be read from the client's layers. -/
structure RestReadable (E : EngRepr) (config : Configuration) (look : Dict Key Value) : Prop where
  initialCongestionWindow : config.initialCongestionWindow = 0 → (Field.initialCongestionWindow E).Readable look
  port : Field.port.Readable look
  timeout : config.timeout = 0 → Field.timeout.Readable look
  udpBuffer : (Field.udpBuffer E).Readable look
  initialMtu : Field.initialMtu.Readable look
  minMtu : Field.minMtu.Readable look
  maxMtu : Field.maxMtu.Readable look
  remotePort : Field.remotePort.Readable look
  tlsAuthType : Field.tlsAuthType.Readable look
  ioBufferSize : (Field.ioBufferSize E).Readable look

/-- The client's layers, readable otherwise, have no congestion controller but the default one. -/
def NoOtherController (E : EngRepr) (config : Configuration) (manager : Manager) : Prop :=
  ∀ l, manager.data = .ok l → RestReadable E config l.look →
    Field.congestion.getOpt l.look = .ok none ∨ Field.congestion.getOpt l.look = .ok (some .cubic)

/-- The dictionary of the message for a configuration that states the controller or leaves it out. -/
def messageDictOf (v2 : Bool) (config : Configuration) : Dict Key Value :=
  messageDict config.getRx config.getTx config.rtt (statedCongestion v2 config)
    (unlessDefault config.initialCongestionWindow 0) (unlessDefault config.timeout 0)

theorem messageDictOf_congr (config : Configuration) (k : Key) (hk : k ≠ .congestion) :
    messageDictOf true config k = messageDictOf false config k := by
  cases k <;> first | rfl | exact absurd rfl hk

theorem messageDictOf_eq (config : Configuration) (h : config.congestion ≠ .cubic) :
    messageDictOf true config = messageDictOf false config := by
  unfold messageDictOf statedCongestion unlessDefault
  simp only [ite_true, Bool.false_eq_true, ite_false, ne_eq, if_pos h]

theorem learnedLook_congr (E : EngRepr) (config : Configuration) (look : Dict Key Value) (k : Key)
    (hk : k ≠ .congestion) :
    learnedLook E (messageDictOf true config) look k = learnedLook E (messageDictOf false config) look k := by
  unfold learnedLook
  rw [messageDictOf_congr config k hk]

/-- What the client has for the controller after the older message. -/
theorem congestion_after_v1 (E : EngRepr) (config : Configuration) (look : Dict Key Value) :
    Field.congestion.get (learnedLook E (messageDictOf false config) look) = .ok config.congestion :=
  Field.get_of_look _ _ (congestionValue config.congestion) _ rfl (CongestionController.tryUnscribe_toString _)

/-- What it has after the newer one, when the server's controller is the default: its own, or else the default. -/
theorem congestion_after_v2 (E : EngRepr) (config : Configuration) (look : Dict Key Value)
    (h : config.congestion = .cubic) :
    Field.congestion.get (learnedLook E (messageDictOf true config) look) =
      Field.congestion.get (fun k => (look k).or (Configuration.systemDefault.toDict E k)) := by
  apply Field.get_congr _ _ _
  unfold learnedLook messageDictOf statedCongestion unlessDefault
  simp only [ite_true, h, ne_eq, not_true_eq_false, ite_false]
  rfl

section Reads

variable (E : EngRepr) (config : Configuration) (look : Dict Key Value)

/-- A field that no message states is what the client has itself. -/
theorem get_unstated {α : Type} (f : Field α) (v2 : Bool) (h : messageDictOf v2 config f.key = none) :
    f.get (learnedLook E (messageDictOf v2 config) look) =
      f.get (fun k => (look k).or (Configuration.systemDefault.toDict E k)) := by
  apply f.get_congr _ _
  unfold learnedLook
  rw [h, Option.none_or]

theorem unlessDefault_self {α : Type} [DecidableEq α] (a d : α) (h : a = d) : unlessDefault a d = none :=
  if_neg (not_not.2 h)

/-- What a client has read after a message leaves the rest readable. -/
theorem restReadable_of_reads (v2 : Bool) (c : Configuration)
    (h : Configuration.Reads E (learnedLook E (messageDictOf v2 config) look) c) : RestReadable E config look := by
  have hd := reads_systemDefault E
  have own := fun {α : Type} (f : Field α) (hn : messageDictOf v2 config f.key = none) (d : α)
      (hdf : f.get (Configuration.systemDefault.toDict E) = .ok d) (a : α)
      (ha : f.get (learnedLook E (messageDictOf v2 config) look) = .ok a) =>
    (f.get_or_iff_readable look _ d hdf).1 ⟨a, (get_unstated E config look f v2 hn).symm.trans ha⟩
  exact
    { initialCongestionWindow := fun h0 => own (Field.initialCongestionWindow E)
        (congrArg (Option.map Value.num) (unlessDefault_self _ _ h0)) _ hd.initialCongestionWindow _
        h.initialCongestionWindow
      port := own Field.port rfl _ hd.port _ h.port
      timeout := fun h0 => own Field.timeout (congrArg (Option.map u16Value) (unlessDefault_self _ _ h0)) _ hd.timeout _
        h.timeout
      udpBuffer := own (Field.udpBuffer E) rfl _ hd.udpBuffer _ h.udpBuffer
      initialMtu := own Field.initialMtu rfl _ hd.initialMtu _ h.initialMtu
      minMtu := own Field.minMtu rfl _ hd.minMtu _ h.minMtu
      maxMtu := own Field.maxMtu rfl _ hd.maxMtu _ h.maxMtu
      remotePort := own Field.remotePort rfl _ hd.remotePort _ h.remotePort
      tlsAuthType := own Field.tlsAuthType rfl _ hd.tlsAuthType _ h.tlsAuthType
      ioBufferSize := own (Field.ioBufferSize E) rfl _ hd.ioBufferSize _ h.ioBufferSize }

/-- Where the rest is readable, the older message leaves the client with a configuration. -/
theorem exists_reads_v1 (h : RestReadable E config look) :
    ∃ c, Configuration.Reads E (learnedLook E (messageDictOf false config) look) c := by
  have hd := reads_systemDefault E
  have own := fun {α : Type} (f : Field α) (hn : messageDictOf false config f.key = none) (d : α)
      (hdf : f.get (Configuration.systemDefault.toDict E) = .ok d) (hr : f.Readable look) =>
    show ∃ a, f.get (learnedLook E (messageDictOf false config) look) = .ok a by
      rw [get_unstated E config look f false hn]
      exact (f.get_or_iff_readable look _ d hdf).2 hr
  have hicw : ∃ a, (Field.initialCongestionWindow E).get (learnedLook E (messageDictOf false config) look) = .ok a := by
    by_cases h0 : config.initialCongestionWindow = 0
    · exact own _ (congrArg (Option.map Value.num) (unlessDefault_self _ _ h0)) _ hd.initialCongestionWindow
        (h.initialCongestionWindow h0)
    · refine ⟨config.initialCongestionWindow, Field.get_of_look _ _ (.num config.initialCongestionWindow) _ ?_ rfl⟩
      show ((Option.map Value.num (unlessDefault _ _)).or _).or _ = _
      rw [unlessDefault, if_pos h0]
      rfl
  have hto : ∃ a, Field.timeout.get (learnedLook E (messageDictOf false config) look) = .ok a := by
    by_cases h0 : config.timeout = 0
    · exact own _ (congrArg (Option.map u16Value) (unlessDefault_self _ _ h0)) _ hd.timeout (h.timeout h0)
    · refine ⟨config.timeout, Field.get_of_look _ _ (u16Value config.timeout) _ ?_ (Configuration.readU16_num _)⟩
      show ((Option.map u16Value (unlessDefault _ _)).or _).or _ = _
      rw [unlessDefault, if_pos h0]
      rfl
  obtain ⟨icw, e1⟩ := hicw
  obtain ⟨tmo, e2⟩ := hto
  obtain ⟨port, e3⟩ := own Field.port rfl _ hd.port h.port
  obtain ⟨udp, e4⟩ := own (Field.udpBuffer E) rfl _ hd.udpBuffer h.udpBuffer
  obtain ⟨im, e5⟩ := own Field.initialMtu rfl _ hd.initialMtu h.initialMtu
  obtain ⟨mi, e6⟩ := own Field.minMtu rfl _ hd.minMtu h.minMtu
  obtain ⟨ma, e7⟩ := own Field.maxMtu rfl _ hd.maxMtu h.maxMtu
  obtain ⟨rp, e8⟩ := own Field.remotePort rfl _ hd.remotePort h.remotePort
  obtain ⟨ta, e9⟩ := own Field.tlsAuthType rfl _ hd.tlsAuthType h.tlsAuthType
  obtain ⟨io, e10⟩ := own (Field.ioBufferSize E) rfl _ hd.ioBufferSize h.ioBufferSize
  exact ⟨⟨config.getTx, config.getRx, config.rtt, config.congestion, icw, port, tmo, udp, im, mi, ma, rp, ta, io⟩,
    Field.get_of_look _ _ (.num config.getTx) _ rfl rfl, Field.get_of_look _ _ (.num config.getRx) _ rfl rfl,
    Field.get_of_look _ _ (u16Value config.rtt) _ rfl (Configuration.readU16_num _), congestion_after_v1 E config look,
    e1, e3, e2, e4, e5, e6, e7, e8, e9, e10⟩

/-- Two dictionaries that differ at the controller only, and agree on what it is, hold the same configuration. -/
theorem reads_congr (a b : Dict Key Value) (h : ∀ k, k ≠ .congestion → a k = b k)
    (hc : Field.congestion.get a = Field.congestion.get b) (c : Configuration) (hr : Configuration.Reads E a c) :
    Configuration.Reads E b c := by
  have same := fun {α : Type} (f : Field α) (hk : f.key ≠ .congestion) (x : α) (hx : f.get a = .ok x) =>
    (f.get_congr _ _ (h f.key hk)).symm.trans hx
  exact ⟨same (Field.rx E) nofun _ hr.rx, same (Field.tx E) nofun _ hr.tx, same Field.rtt (by decide) _ hr.rtt,
    hc.symm.trans hr.congestion, same (Field.initialCongestionWindow E) nofun _ hr.initialCongestionWindow,
    same Field.port (by decide) _ hr.port, same Field.timeout (by decide) _ hr.timeout,
    same (Field.udpBuffer E) nofun _ hr.udpBuffer, same Field.initialMtu (by decide) _ hr.initialMtu,
    same Field.minMtu (by decide) _ hr.minMtu, same Field.maxMtu (by decide) _ hr.maxMtu,
    same Field.remotePort (by decide) _ hr.remotePort, same Field.tlsAuthType (by decide) _ hr.tlsAuthType,
    same (Field.ioBufferSize E) nofun _ hr.ioBufferSize⟩

end Reads

/-! ## The two versions against each other -/

/-- The warnings the user should see. -/
def warningsOf (warning : Text) : List Text := if warning ≠ [] then [warning] else []

/-- **A client learns the same from both messages.** -/
structure LearnsAlike (E : EngRepr) (manager : Manager) (warning : Text) (m1 m2 : ServerMessageV2) : Prop where
  port : m1.port = m2.port
  credentials : m1.credentials = m2.credentials
  commonName : m1.commonName = m2.commonName
  warnings1 : m1.warnings = warningsOf warning
  warnings2 : m2.warnings = warningsOf warning
  configuration : ∀ c, m1.learned E manager = .ok c ↔ m2.learned E manager = .ok c

/-- The message for a level, as the client works with it. -/
def answered (compat : Compatibility) (config : Configuration) (port : UInt16) (cert : Bytes)
    (commonName warning : Text) :
    Option ServerMessageV2 :=
  (ServerMessage.new compat config port ⟨CredentialsType.x509.toRepr, .bytes cert⟩ commonName warning).bind
    ServerMessage.toV2

/-- The client learns the same from the message for either level. -/
def ServerVersionsAgree (E : EngRepr) (old new : Compatibility) (config : Configuration) (port : UInt16) (cert : Bytes)
    (commonName warning : Text) (manager : Manager) : Prop :=
  ∀ m1 m2, answered old config port cert commonName warning = some m1 →
    answered new config port cert commonName warning = some m2 → LearnsAlike E manager warning m1 m2

/-- The configurations of a client whose layers can be looked up. -/
theorem learned_iff (E : EngRepr) (m : ServerMessageV2) (v2 : Bool) (config : Configuration)
    (hd : m.data = .ok (messageDictOf v2 config)) (l : Layers.Layered Key Value) (c : Configuration) :
    m.learned E ⟨.ok l⟩ = .ok c ↔ Configuration.Reads E (learnedLook E (messageDictOf v2 config) l.look) c :=
  learned_eq_ok_iff E m l _ hd c

theorem not_learned_of_error (E : EngRepr) (m : ServerMessageV2) (e : ConfigError) (c : Configuration) :
    m.learned E ⟨.error e⟩ ≠ .ok c := nofun

/-- The configurations agree exactly when the default controller meets no other. -/
theorem configuration_agrees_iff (E : EngRepr) (config : Configuration) (manager : Manager) (m1 m2 : ServerMessageV2)
    (h1 : m1.data = .ok (messageDictOf false config)) (h2 : m2.data = .ok (messageDictOf true config)) :
    (∀ c, m1.learned E manager = .ok c ↔ m2.learned E manager = .ok c) ↔
      (config.congestion ≠ .cubic ∨ NoOtherController E config manager) := by
  obtain ⟨data⟩ := manager
  cases data with
  | error e =>
    exact ⟨fun _ => Or.inr nofun, fun _ c =>
      ⟨fun h => absurd h (not_learned_of_error E m1 e c), fun h => absurd h (not_learned_of_error E m2 e c)⟩⟩
  | ok l =>
    simp only [learned_iff E m1 false config h1 l, learned_iff E m2 true config h2 l]
    constructor
    · intro h
      by_cases hc : config.congestion = .cubic
      · refine Or.inr fun l' hl hrest => ?_
        cases hl
        obtain ⟨c, hr⟩ := exists_reads_v1 E config l.look hrest
        have e1 := hr.congestion
        rw [congestion_after_v1] at e1
        have e2 := ((h c).1 hr).congestion
        rw [congestion_after_v2 E config l.look hc, ← e1, hc] at e2
        have hread := (Field.get_or_iff_readable Field.congestion l.look _ _
          (reads_systemDefault E).congestion).1 ⟨_, e2⟩
        obtain ⟨o, ho⟩ := hread
        rw [Field.get_or _ _ _ o ho] at e2
        cases o with
        | none => exact Or.inl ho
        | some a =>
          cases e2
          exact Or.inr ho
      · exact Or.inl hc
    · intro h c
      by_cases hc : config.congestion = .cubic
      · have key : RestReadable E config l.look →
            Field.congestion.get (learnedLook E (messageDictOf false config) l.look) =
              Field.congestion.get (learnedLook E (messageDictOf true config) l.look) := by
          intro hrest
          rw [congestion_after_v1, congestion_after_v2 E config l.look hc, hc]
          rcases (h.resolve_left (not_not.2 hc)) l rfl hrest with ho | ho <;> rw [Field.get_or _ _ _ _ ho]
          · exact (reads_systemDefault E).congestion.symm
          · rfl
        have same := fun k hk => (learnedLook_congr E config l.look k hk)
        exact ⟨fun hr => reads_congr E _ _ (fun k hk => (same k hk).symm)
            (key (restReadable_of_reads E config l.look false c hr)) c hr,
          fun hr => reads_congr E _ _ same (key (restReadable_of_reads E config l.look true c hr)).symm c hr⟩
      · rw [messageDictOf_eq config hc]

/-- **A client learns the same from both versions exactly when there is no warning to relay, and the server's controller
is not the default or the client states no other.** -/
theorem server_versions_agree_iff (E : EngRepr) (old new : Compatibility) (config : Configuration) (port : UInt16)
    (cert : Bytes) (commonName warning : Text) (manager : Manager) (hold : old.supports .cmsgSmsg2 = false)
    (hnew : new.supports .cmsgSmsg2 = true) :
    ServerVersionsAgree E old new config port cert commonName warning manager ↔
      warning = [] ∧ (config.congestion ≠ .cubic ∨ NoOtherController E config manager) := by
  obtain ⟨m1, h1, s1⟩ := says_new old config port commonName warning cert
  obtain ⟨m2, h2, s2⟩ := says_new new config port commonName warning cert
  rw [hold] at s1
  rw [hnew] at s2
  have hconf := configuration_agrees_iff E config manager m1 m2 s1.data s2.data
  constructor
  · intro h
    have ha := h m1 m2 h1 h2
    refine ⟨?_, hconf.1 ha.configuration⟩
    by_contra hw
    have hw1 := s2.warnings.symm.trans ha.warnings2
    unfold statedWarnings warningsOf at hw1
    rw [if_pos rfl, if_pos hw] at hw1
    cases hw1
  · rintro ⟨hw, hc⟩ x1 x2 hx1 hx2
    cases h1.symm.trans hx1
    cases h2.symm.trans hx2
    subst hw
    exact ⟨s1.port.trans s2.port.symm, s1.credentials.trans s2.credentials.symm,
      s1.commonName.trans s2.commonName.symm, s1.warnings, s2.warnings, hconf.2 hc⟩

theorem server_versions_agree_iff_default :
    ServerVersionsAgree EngRepr.decimal (.level 2) (.level 3) Configuration.systemDefault 60000 [] [] []
        (.ofOptional EngRepr.decimal .empty) ↔
      ([] : Text) = [] ∧ (Configuration.systemDefault.congestion ≠ .cubic ∨
        NoOtherController EngRepr.decimal Configuration.systemDefault (.ofOptional EngRepr.decimal .empty)) :=
  server_versions_agree_iff EngRepr.decimal (.level 2) (.level 3) Configuration.systemDefault 60000 [] [] []
    (.ofOptional EngRepr.decimal .empty) rfl rfl

/-- **The newer message loses the warning** that the older one relays. -/
theorem not_server_versions_agree_warning :
    ¬ ServerVersionsAgree EngRepr.decimal (.level 2) (.level 3) Configuration.systemDefault 60000 [] []
        "send buffer too small".toList (.ofOptional EngRepr.decimal .empty) := by
  intro h
  have hw := (h _ _ rfl rfl).warnings2
  cases hw

end Qcp
