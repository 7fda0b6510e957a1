import Qcp.Announced
/-!
# Brief — what a server has to say fits its frame

A server says what it has settled on, or why it has not.  Its own part of that is short: the ways a negotiation fails
are few (`combine_eq_error`), and a message is made of numbers besides its credentials and texts.  So if what it
quotes of others is short (`Succinct`), what it says of preferences it could read can be sent
(`Succinct.negotiation_fits`, `Succinct.message_fits`).
-/
namespace Qcp

open Bare (Bytes Text Codec)
open Layers (Dict)

/-! ## How a negotiation fails -/

theorem outcome_eq_error {α : Type} [DecidableEq α] {resolve : α → α → CombinationResponse α} {client server : Option α}
    {e : NegotiateError} (h : outcome resolve client server = .error e) : ∃ cc ss, resolve cc ss = .failure e := by
  unfold outcome at h
  cases client with
  | none => cases h
  | some cc =>
    cases server with
    | none => cases h
    | some ss =>
      simp only at h
      split at h
      · cases h
      · cases hr : resolve cc ss with
        | failure e' => rw [hr] at h; cases h; exact ⟨cc, ss, hr⟩
        | server => rw [hr] at h; cases h
        | client => rw [hr] at h; cases h
        | combined v => rw [hr] at h; cases h

theorem minIgnoringZero_ne_failure (cli srv : UInt64) (e : NegotiateError) : minIgnoringZero cli srv ≠ .failure e := by
  unfold minIgnoringZero
  split
  · nofun
  · split <;> nofun

/-- Only controllers and ports can be in conflict. -/
theorem negotiateAll_eq_error {client : Requests} {server : ConfigurationOptional} {e : NegotiateError}
    (h : negotiateAll client server = .error e) : e = .congestion ∨ ∃ theirs self, e = .port theirs self := by
  unfold negotiateAll at h
  simp only [negotiateV3_eq] at h
  cases h1 : outcome minIgnoringZero client.rx server.rx with
  | error e1 =>
    obtain ⟨cc, ss, hf⟩ := outcome_eq_error h1
    exact absurd hf (minIgnoringZero_ne_failure cc ss e1)
  | ok rx =>
  cases h2 : outcome minIgnoringZero client.tx server.tx with
  | error e2 =>
    obtain ⟨cc, ss, hf⟩ := outcome_eq_error h2
    exact absurd hf (minIgnoringZero_ne_failure cc ss e2)
  | ok tx =>
  cases h3 : outcome clientWins client.rtt server.rtt with
  | error e3 =>
    obtain ⟨cc, ss, hf⟩ := outcome_eq_error h3
    cases hf
  | ok rtt =>
  cases h4 : outcome congestionConflict client.congestion server.congestion with
  | error e4 =>
    obtain ⟨cc, ss, hf⟩ := outcome_eq_error h4
    rw [h1, h2, h3, h4] at h
    cases hf
    cases h
    exact Or.inl rfl
  | ok congestion =>
  cases h5 : outcome serverWins client.initialCongestionWindow server.initialCongestionWindow with
  | error e5 =>
    obtain ⟨cc, ss, hf⟩ := outcome_eq_error h5
    cases hf
  | ok icw =>
  cases h6 : outcome portConflict client.port server.port with
  | error e6 =>
    obtain ⟨cc, ss, hf⟩ := outcome_eq_error h6
    rw [h1, h2, h3, h4, h5, h6] at h
    cases h
    unfold portConflict at hf
    split at hf
    · cases hf
    · cases hf
      exact Or.inr ⟨_, _, rfl⟩
  | ok port =>
  cases h7 : outcome clientWins client.timeout server.timeout with
  | error e7 =>
    obtain ⟨cc, ss, hf⟩ := outcome_eq_error h7
    cases hf
  | ok timeout => rw [h1, h2, h3, h4, h5, h6, h7] at h; cases h

/-- A dictionary that differs from one that can be read in its port only. -/
theorem Configuration.extract_of_port {E : EngRepr} {look look' : Dict Key Value} {c : Configuration}
    (h : Configuration.Reads E look' c) (hk : ∀ k, k ≠ .port → look k = look' k) :
    Configuration.extract E look = (Field.port.get look).map fun r => { c with port := r } := by
  have same : ∀ {α : Type} (f : Field α), f.key ≠ .port → f.get look = f.get look' :=
    fun f hf => f.get_congr look look' (hk _ hf)
  unfold Configuration.extract
  rw [same (Field.rx E) nofun, h.rx, same (Field.tx E) nofun, h.tx, same Field.rtt nofun, h.rtt,
    same Field.congestion nofun, h.congestion, same (Field.initialCongestionWindow E) nofun, h.initialCongestionWindow,
    same Field.timeout nofun, h.timeout, same (Field.udpBuffer E) nofun, h.udpBuffer, same Field.initialMtu nofun,
    h.initialMtu, same Field.minMtu nofun, h.minMtu, same Field.maxMtu nofun, h.maxMtu, same Field.remotePort nofun,
    h.remotePort, same Field.tlsAuthType nofun, h.tlsAuthType, same (Field.ioBufferSize E) nofun, h.ioBufferSize]
  cases Field.port.get look <;> rfl

namespace Outcomes

variable {client : Requests} {server : ConfigurationOptional} {E : EngRepr} {look : Dict Key Value}

/-- What the negotiations come to. -/
theorem settled (o : Outcomes client server) : ∃ cfg, Settled client server cfg := by
  have hport := settle_eq_of_outcome portConflict client.port server.port Configuration.systemDefault.port o.port.1
    o.port.2 o.port_eq
  exact ⟨⟨_, _, _, _, _, _, _, _, _, _, _, _, _, _⟩, settle_eq_of_outcome _ _ _ _ _ _ o.rx_eq,
    settle_eq_of_outcome _ _ _ _ _ _ o.tx_eq, settle_eq_of_outcome _ _ _ _ _ _ o.rtt_eq,
    settle_eq_of_outcome _ _ _ _ _ _ o.congestion_eq, settle_eq_of_outcome _ _ _ _ _ _ o.initialCongestionWindow_eq,
    hport, settle_eq_of_outcome _ _ _ _ _ _ o.timeout_eq, rfl, rfl, rfl, rfl, rfl, rfl, rfl⟩

/-- The same negotiations without the client's port. -/
def withoutPort (o : Outcomes client server) : Outcomes { client with port := none } server :=
  { o with port := (none, none), port_eq := rfl }

theorem final_withoutPort (o : Outcomes client server) (k : Key) (hk : k ≠ .port) :
    o.final E look k = o.withoutPort.final E look k := by
  cases k with
  | port => exact absurd rfl hk
  | _ => rfl

/-- **All that cannot be read of what was negotiated is a port range**, and then it is the text of one. -/
theorem extract_final_error (o : Outcomes client server) (hl : ConfigurationOptional.Reads E look server)
    {e : ConfigError} (h : Configuration.extract E (o.final E look) = .error e) :
    ∃ r, e = .invalidValue .port (portValue r) := by
  obtain ⟨cfg, hst⟩ := o.withoutPort.settled
  have hv : cfg.port.valid := o.withoutPort.port_valid hl nofun cfg hst
  have hr := (o.withoutPort.reads_final_iff hl cfg).2 ⟨hst, hv⟩
  rw [Configuration.extract_of_port hr o.final_withoutPort] at h
  -- what there is under the port is a text that was added, or can be read
  have hadded : ∀ r, o.final E look .port = some (portValue r) → ∃ r, e = .invalidValue .port (portValue r) := by
    intro r hlook
    by_cases hrv : r.valid
    · rw [Field.get_of_look Field.port _ _ r hlook (readPortRange_portValue r hrv)] at h
      cases h
    · rw [Field.get_of_unread Field.port _ _ hlook (readPortRange_not_valid r hrv)] at h
      cases h
      exact ⟨r, rfl⟩
  have hlook : o.final E look .port = ((o.port.2.map portValue).or ((o.port.1.map portValue).or (look .port))).or
      (some (portValue Configuration.systemDefault.port)) := rfl
  cases hr : o.port.2 with
  | some r => exact hadded r (by rw [hlook, hr]; rfl)
  | none =>
    cases hc : o.port.1 with
    | some c => exact hadded c (by rw [hlook, hr, hc]; rfl)
    | none =>
      rw [hr, hc] at hlook
      cases hsrv : server.port with
      | none =>
        rw [show look .port = none from (Field.getOpt_none_iff Field.port look).1 (hsrv ▸ hl.port)] at hlook
        exact hadded _ hlook
      | some r =>
        obtain ⟨v, hv, hread⟩ := (Field.getOpt_some_iff _ _ _).1 (hsrv ▸ hl.port)
        have hv : look .port = some v := hv
        rw [hv] at hlook
        rw [Field.get_of_look Field.port _ v r hlook hread] at h
        cases h

end Outcomes

/-- **The ways in which a negotiation fails** for a server that can read its own preferences. -/
theorem combine_eq_error {E : EngRepr} {manager : Manager} {message : ClientMessageV2} {server : ConfigurationOptional}
    {e : NegotiateError} (hs : manager.getOptional E = .ok server)
    (h : combineBandwidthConfigurations E manager message = .error e) :
    e = .congestion ∨ (∃ theirs self, e = .port theirs self) ∨
      (∃ r, e = .config (.invalidValue .port (portValue r))) ∨ ∃ v, e = .invalid v := by
  obtain ⟨data⟩ := manager
  cases data with
  | error _ => cases hs
  | ok l =>
    have hl := (ConfigurationOptional.extract_eq_ok_iff E _ _).1 hs
    unfold combineBandwidthConfigurations combinedManager at h
    rw [hs] at h
    cases hn : negotiateAll (Requests.ofAttributes message.attributes) server with
    | error e' =>
      simp only [Except.mapError, bind, Except.bind, hn] at h
      cases h
      rcases negotiateAll_eq_error hn with rfl | ⟨a, b, rfl⟩
      · exact Or.inl rfl
      · exact Or.inr (Or.inl ⟨a, b, rfl⟩)
    | ok p =>
      obtain ⟨o⟩ := Outcomes.exists_of_ok p hn
      rw [o.negotiateAll_eq] at hn
      cases hn
      simp only [Except.mapError, bind, Except.bind, o.negotiateAll_eq, pure, Except.pure, get_merged] at h
      have hfinal : ∀ e', Configuration.extract E (o.final E l.look) = .error e' →
          ∃ r, e' = .invalidValue .port (portValue r) := fun e' => o.extract_final_error hl
      unfold Outcomes.final at hfinal
      split at h
      · rename_i e' hget
        cases h
        split at hget
        · rename_i e'' hx
          cases hget
          obtain ⟨r, rfl⟩ := hfinal e'' hx
          exact Or.inr (Or.inr (Or.inl ⟨r, rfl⟩))
        · cases hget
      · rename_i cfg _
        cases hv : cfg.validate with
        | error v =>
          rw [hv] at h
          cases h
          exact Or.inr (Or.inr (Or.inr ⟨v, rfl⟩))
        | ok c => rw [hv] at h; cases h

/-! ## Texts -/

/-- A text, or data, of less than a quarter of what a message may take. -/
def Brief (t : Text) : Prop := (Codec.encText t).length ≤ 262144

theorem brief_of_length {t : Text} (h : t.length ≤ 65536) : Brief t := by
  have := encText_length_le t
  unfold Brief
  omega

theorem length_showDigits : ∀ (k n : Nat) (acc : Text), (Decimal.showDigits k n acc).length ≤ k + 1 + acc.length
  | 0, n, acc => by rw [Decimal.showDigits, List.length_cons]; omega
  | k + 1, n, acc => by
    rw [Decimal.showDigits]
    split
    · rw [List.length_cons]
      omega
    · have := length_showDigits k (n / 10) (Decimal.digitChar (n % 10) :: acc)
      rw [List.length_cons] at this
      omega

theorem length_showNat (n : Nat) : (Decimal.showNat n).length ≤ 20 := length_showDigits 19 n []

theorem PortRange.length_display (r : PortRange) : r.display.length ≤ 41 := by
  have hb := length_showNat r.begin.toNat
  have he := length_showNat r.end.toNat
  unfold display
  split
  · exact Nat.le_trans hb (by decide)
  · rw [List.length_append, List.length_cons]
    omega

theorem brief_portText (theirs self : PortRange) : Brief (NegotiateError.portText theirs self) := by
  apply brief_of_length
  have ht := theirs.length_display
  have hs := self.length_display
  have h1 : "requested port range ".toList.length = 21 := by decide
  have h2 : " could not be satisfied (our config: ".toList.length = 37 := by decide
  have h3 : ")".toList.length = 1 := by decide
  unfold NegotiateError.portText
  rw [List.length_append, List.length_append, List.length_append, List.length_append, h1, h2, h3]
  omega

/-- No check has much to say, if the colours and the quantities in its text are short. -/
theorem ValidationError.length_message {E : EngRepr} {info reset : Text} (hi : info.length ≤ 1024)
    (hr : reset.length ≤ 1024) (hq : ∀ n, (E.toEng n).length ≤ 1024) (e : ValidationError) :
    (e.message E info reset).length ≤ 65536 := by
  have rx : "rx ".toList.length = 3 := by decide
  have tx : "tx ".toList.length = 3 := by decide
  unfold message
  cases e with
  | rxTooSmall n | txTooSmall n =>
    have hn := hq n
    have hmin := hq minimumBandwidth
    have receive : "The receive bandwidth (".toList.length = 23 := by decide
    have transmit : "The transmit bandwidth (".toList.length = 24 := by decide
    have tooSmall : "B) is too small; it must be at least ".toList.length = 37 := by decide
    simp only [List.length_append, rx, tx, receive, transmit, tooSmall]
    omega
  | rttZero => exact (by decide : "RTT cannot be zero".toList.length ≤ 65536)
  | rxOverflow n rtt | txOverflow n rtt =>
    have hn := hq n
    have hrtt := length_showNat rtt.toNat
    have receives : "The receive bandwidth delay product calculation (".toList.length = 49 := by decide
    have transmits : "The transmit bandwidth delay product calculation (".toList.length = 50 := by decide
    have times : "B x ".toList.length = 4 := by decide
    have named : "rtt ".toList.length = 4 := by decide
    have overflowed : "ms) overflowed".toList.length = 14 := by decide
    simp only [List.length_append, rx, tx, receives, transmits, times, named, overflowed]
    omega
  | udpTooSmall n =>
    have hn := length_showNat n.toNat
    have hmin := length_showNat minimumUdpBuffer.toNat
    have buffer : "The UDP buffer size (".toList.length = 21 := by decide
    have ofBuffer : ") is too small; it must be at least ".toList.length = 36 := by decide
    simp only [List.length_append, buffer, ofBuffer]
    omega
  | minMtu n | maxMtu n | initialMtu n =>
    have hn := length_showNat n.toNat
    have minimum : "Minimum MTU (".toList.length = 13 := by decide
    have maximum : "Maximum MTU (".toList.length = 13 := by decide
    have initial : "Initial MTU (".toList.length = 13 := by decide
    have cannot : ") cannot be less than 1200".toList.length = 26 := by decide
    simp only [List.length_append, minimum, maximum, initial, cannot]
    omega

/-- **What is quoted of others is short**: what the libraries and the system say of their failures, the warning about a
socket, an amount as it is shown, a colour, the host's name, and its credentials.  A check that fails says its own. -/
structure Succinct (E : EngRepr) (describe : NegotiateError → Text) (P : Platform) (credentials : Credentials) :
    Prop where
  port : ∀ r, Brief (describe (.config (.invalidValue .port (portValue r))))
  invalid : ∃ info reset : Text, info.length ≤ 1024 ∧ reset.length ≤ 1024 ∧
    ∀ e, describe (.invalid e) = e.message E info reset
  toEng : ∀ n, (E.toEng n).length ≤ 1024
  tls : ∀ peer config compat e, P.tls credentials peer config compat = .error e → Brief e
  os : ∀ a e, P.sockets.os a = .error e → Brief e.text
  configure : ∀ socket send recv e, P.sockets.configure socket send recv = .error e → Brief e
  warning : ∀ socket send recv port text, P.sockets.configure socket send recv = .ok (port, some text) → Brief text
  hostname : Brief credentials.hostname
  certificate : credentials.certificate.length ≤ 262144
  rawPublicKey : ∀ key, credentials.rawPublicKey = .ok key → key.length ≤ 262144

/-! ## Messages -/

theorem fits_negotiationFailed {t : Text} (h : Brief t) :
    ServerMessage.form.Fits (.failure (.negotiationFailed t)) := by
  show (Codec.uint.enc 2 ++ (Codec.uint.enc 1 ++ Codec.text.enc t)).length ≤ 1048576
  have := text_enc_length_le t
  have := uint_enc_length_le 2
  have := uint_enc_length_le 1
  unfold Brief at h
  simp only [List.length_append]
  omega

theorem fits_endpointFailed {t : Text} (h : Brief t) : ServerMessage.form.Fits (.failure (.endpointFailed t)) := by
  show (Codec.uint.enc 2 ++ (Codec.uint.enc 2 ++ Codec.text.enc t)).length ≤ 1048576
  have := text_enc_length_le t
  have := uint_enc_length_le 2
  unfold Brief at h
  simp only [List.length_append]
  omega

theorem fits_v1 (m : ServerMessageV1) (hc : m.cert.length ≤ 262144) (hn : Brief m.name) (hw : Brief m.warning) :
    ServerMessage.form.Fits (.v1 m) := by
  show (Codec.uint.enc 1 ++ (Codec.u16.enc m.port ++ (Codec.data.enc m.cert ++ (Codec.text.enc m.name ++
    (Codec.uint.enc m.bandwidthToServer ++ (Codec.uint.enc m.bandwidthToClient ++ (Codec.u16.enc m.rtt ++
    (Codec.uint.enc m.congestion.toRepr ++ (Codec.uint.enc m.initialCongestionWindow ++ (Codec.u16.enc m.timeout ++
    (Codec.text.enc m.warning ++ Codec.u8.enc m.extension))))))))))).length ≤ 1048576
  have h16 : ∀ n : UInt16, (Codec.u16.enc n).length = 2 := fun n => Codec.encLe_length 2 _
  have h8 : (Codec.u8.enc m.extension).length = 1 := rfl
  have h1 := uint_enc_length_le 1
  have h2 := data_enc_length_le m.cert
  have h3 := text_enc_length_le m.name
  have h4 := uint_enc_length_le m.bandwidthToServer
  have h5 := uint_enc_length_le m.bandwidthToClient
  have h6 := uint_enc_length_le m.congestion.toRepr
  have h7 := uint_enc_length_le m.initialCongestionWindow
  have h9 := text_enc_length_le m.warning
  unfold Brief at hn hw
  simp only [List.length_append, h16, h8]
  omega

theorem fits_v2 (m : ServerMessageV2) {bs : Bytes} (hd : m.credentials.data = .bytes bs) (hb : bs.length ≤ 262144)
    (hn : Brief m.commonName) (ha : ∀ t ∈ m.attributes, t.Plain) (hl : m.attributes.length ≤ 3) :
    ServerMessage.form.Fits (.v2 m) := by
  show (Codec.uint.enc 3 ++
    (Codec.u16.enc m.port ++ ((Codec.uint.enc m.credentials.tag ++ Variant.enc m.credentials.data) ++
    (Codec.text.enc m.commonName ++ (Codec.uint.enc m.bandwidthToServer ++ (Codec.uint.enc m.bandwidthToClient ++
    (Codec.u16.enc m.rtt ++ ((Codec.uint.enc (UInt64.ofNat m.attributes.length) ++
    m.attributes.flatMap TaggedData.codec.enc) ++ Codec.u8.enc m.extension)))))))).length ≤ 1048576
  have h16 : ∀ n : UInt16, (Codec.u16.enc n).length = 2 := fun n => Codec.encLe_length 2 _
  have h8 : (Codec.u8.enc m.extension).length = 1 := rfl
  have h1 := uint_enc_length_le 3
  have h2 := uint_enc_length_le m.credentials.tag
  have h3 := uint_enc_length_le 5
  have h4 := data_enc_length_le bs
  have h5 := text_enc_length_le m.commonName
  have h6 := uint_enc_length_le m.bandwidthToServer
  have h7 := uint_enc_length_le m.bandwidthToClient
  have h9 := uint_enc_length_le (UInt64.ofNat m.attributes.length)
  have h10 := plain_flatMap_length_le m.attributes ha
  unfold Brief at hn
  rw [hd, Variant.enc]
  simp only [List.length_append, h16, h8]
  omega

theorem ServerMessageV2.length_applyConfigAttributes (m : ServerMessageV2) (config : Configuration)
    (h : m.attributes = []) : (m.applyConfigAttributes config).attributes.length ≤ 3 := by
  unfold applyConfigAttributes
  simp only [h, List.nil_append, List.length_append]
  split <;> split <;> split <;> simp

section Replies

variable {E : EngRepr} {P : Platform} {describe : NegotiateError → Text} {credentials : Credentials}
  {compat : Compatibility} {manager : Manager} {message : ClientMessageV2}

/-- What is sent of the credentials is the certificate or the key. -/
theorem Succinct.credentials_le (h : Succinct E describe P credentials) {t : Option CredentialsType} {td : TaggedData}
    (htd : credentials.toTaggedData compat t = .ok td) : ∃ bs, td.data = .bytes bs ∧ bs.length ≤ 262144 := by
  unfold Credentials.toTaggedData at htd
  split at htd
  · cases htd
  · cases htd
    exact ⟨_, rfl, h.certificate⟩
  · split at htd
    · cases hk : credentials.rawPublicKey with
      | error e => rw [hk] at htd; cases htd
      | ok key =>
        rw [hk] at htd
        cases htd
        exact ⟨key, rfl, h.rawPublicKey key hk⟩
    · cases htd

theorem Succinct.message_fits (h : Succinct E describe P credentials) {port : UInt16} {config : Configuration}
    {warning : Text}
    {m : ServerMessage} (hw : Brief warning) (hm : serverMessage compat port credentials config warning = .ok m) :
    ServerMessage.form.Fits m := by
  obtain ⟨td, htd, hnew⟩ := serverMessage_ok hm
  obtain ⟨bs, hbs, hle⟩ := h.credentials_le htd
  unfold ServerMessage.new at hnew
  rw [hbs] at hnew
  simp only at hnew
  split at hnew
  · cases hnew
    exact fits_v2 _ hbs hle h.hostname (plain_serverAttributes _ config rfl)
      (ServerMessageV2.length_applyConfigAttributes _ config rfl)
  · cases hnew
    exact fits_v1 _ hle h.hostname hw

/-- A negotiation that fails is told so. -/
theorem Succinct.negotiation_fits (h : Succinct E describe P credentials) {server : ConfigurationOptional}
    {e : NegotiateError}
    (hs : manager.getOptional E = .ok server) (hc : combineBandwidthConfigurations E manager message = .error e) :
    ServerMessage.form.Fits (.failure (.negotiationFailed (e.text describe))) := by
  apply fits_negotiationFailed
  rcases combine_eq_error hs hc with rfl | ⟨theirs, self, rfl⟩ | ⟨r, rfl⟩ | ⟨v, rfl⟩
  · exact brief_of_length (show NegotiateError.congestionText.length ≤ 65536 by decide)
  · exact brief_portText theirs self
  · exact h.port r
  · obtain ⟨info, reset, hi, hr, hd⟩ := h.invalid
    show Brief (describe (.invalid v))
    rw [hd]
    exact brief_of_length (v.length_message hi hr h.toEng)

theorem Succinct.bind_error (h : Succinct E describe P credentials) {ct : ConnectionType} {config : Configuration}
    {mode : ThroughputMode} {e : Text} (he : P.sockets.bind ct config mode = .error e) : Brief e := by
  unfold Sockets.bind at he
  cases hs : bindRangeForFamily P.sockets.os ct config.port with
  | error err =>
    rw [hs] at he
    cases he
    rcases bindRangeForFamily_error hs with ⟨a, ha⟩ | rfl
    · exact h.os a err ha
    · exact brief_of_length (by decide)
  | ok socket =>
    rw [hs] at he
    exact h.configure _ _ _ _ he

theorem Succinct.bind_warning (h : Succinct E describe P credentials) {ct : ConnectionType} {config : Configuration}
    {mode : ThroughputMode} {port : UInt16} {warning : Option Text}
    (hb : P.sockets.bind ct config mode = .ok (port, warning)) : Brief (warning.getD []) := by
  obtain ⟨socket, -, hc⟩ := (Configuration.bind_eq_ok _ _ _).1 hb
  cases warning with
  | none => exact brief_of_length (Nat.zero_le _)
  | some text => exact h.warning _ _ _ _ _ hc

end Replies

end Qcp
