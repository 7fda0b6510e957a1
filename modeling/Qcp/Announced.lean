import Qcp.Channel
/-!
# Announced — the credentials in the messages of the control channel

`clientMessage_ok` and `serverMessage_says` say what either side's message has of its credentials, a message of the
first version being that of a certificate, and `clientMessage_readsBack` and `serverMessage_readsBack` that what is
short enough to be sent is read back by the peer.
-/
namespace Qcp

open Bare (Bytes Text Codec)

/-! ## What is sent -/

/-- A message of the first version is that of an X509 certificate. -/
def ClientMessage.credentials (m : ClientMessage) : Option TaggedData := m.toV2.map ClientMessageV2.credentials

def ServerMessage.credentials (m : ServerMessage) : Option TaggedData := m.toV2.map ServerMessageV2.credentials

theorem withUnsigned_plain (t : ClientMessage2Attributes) (n : UInt64) : (t.withUnsigned n).Plain := Or.inr ⟨n, rfl⟩

theorem plain_pushOpt {α : Type} (o : Option α) (f : α → List TaggedData) (h : ∀ a, ∀ t ∈ f a, t.Plain) :
    ∀ t ∈ pushOpt o f, t.Plain := by
  cases o with
  | none => exact fun t ht => by cases ht
  | some a => exact h a

/-- The credentials of a side and the data that its message has of them. -/
theorem toTaggedData_of_unsupported {c : Credentials} {compat : Compatibility} {t : Option CredentialsType}
    {td : TaggedData} (h : c.toTaggedData compat t = .ok td) (hs : compat.supports .cmsgSmsg2 = false) :
    td.tag = CredentialsType.x509.toRepr := by
  obtain ⟨-, hx | ⟨-, hr⟩⟩ := c.toTaggedData_ok compat t td h
  · exact hx
  · rw [hs] at hr
    cases hr

section Messages

variable {compat : Compatibility} {credentials : Credentials} {ct : ConnectionType} {rc : Bool}
  {config : ConfigurationOptional} {direction : Direction} {m : ClientMessage}

theorem plain_clientAttributes (td : TaggedData) : ∀ t ∈
    ((ClientMessageV2.new td ct).applyConfigAttributes rc config).attributes, t.Plain := by
  intro t ht
  unfold ClientMessageV2.applyConfigAttributes ClientMessageV2.new at ht
  simp only [List.nil_append, List.mem_append] at ht
  rcases ht with ((((((h | h) | h) | h) | h) | h) | h) | h
  · split at h
    · rw [List.mem_singleton.1 h]
      exact Or.inl rfl
    · cases h
  · refine plain_pushOpt _ _ (fun r t ht => ?_) t h
    simp only [List.mem_cons, List.not_mem_nil, or_false] at ht
    rcases ht with rfl | rfl <;> exact withUnsigned_plain _ _
  all_goals
    refine plain_pushOpt _ _ (fun r t ht => ?_) t h
    rw [List.mem_singleton.1 ht]
    exact withUnsigned_plain _ _

/-- **What a client announces is what its credentials come to**, and it is sent in one of two ways. -/
theorem clientMessage_ok (h : clientMessage compat credentials ct rc config direction = .ok m) :
    ∃ td bs, credentials.toTaggedData compat config.tlsAuthType = .ok td ∧ td.data = .bytes bs ∧
      m.credentials = some td ∧
      ((∃ m1 : ClientMessageV1, m = .v1 m1 ∧ m1.cert = bs ∧ ∀ t ∈ m1.attributes, t.Plain) ∨
        ∃ m2 : ClientMessageV2, m = .v2 m2 ∧ m2.credentials = td ∧ ∀ t ∈ m2.attributes, t.Plain) := by
  unfold clientMessage at h
  obtain ⟨_, -, h⟩ := (Configuration.bind_eq_ok _ _ _).1 h
  obtain ⟨td, htd, h⟩ := (Configuration.bind_eq_ok _ _ _).1 h
  obtain ⟨⟨bs, hbs⟩, -⟩ := credentials.toTaggedData_ok compat config.tlsAuthType td htd
  rw [ClientMessage.new_of_bytes hbs] at h
  refine ⟨td, bs, htd, hbs, ?_⟩
  by_cases hs : compat.supports .cmsgSmsg2 = true
  · rw [if_pos hs] at h
    cases h
    refine ⟨rfl, Or.inr ⟨_, rfl, rfl, fun t ht => ?_⟩⟩
    rcases List.mem_append.1 ht with ht | ht
    · exact plain_clientAttributes td t ht
    · rw [List.mem_singleton.1 ht]
      exact withUnsigned_plain _ _
  · rw [if_neg hs] at h
    cases h
    have htag := toTaggedData_of_unsupported htd (Bool.eq_false_of_not_eq_true hs)
    constructor
    · obtain ⟨tag, data⟩ := td
      simp only at hbs htag
      rw [hbs, htag]
      rfl
    · refine Or.inl ⟨_, rfl, rfl, fun t ht => ?_⟩
      rw [List.mem_singleton.1 ht]
      exact Or.inr ⟨_, rfl⟩

end Messages

theorem plain_serverAttributes (m : ServerMessageV2) (config : Configuration) (hm : m.attributes = []) :
    ∀ t ∈ (m.applyConfigAttributes config).attributes, t.Plain := by
  intro t ht
  unfold ServerMessageV2.applyConfigAttributes at ht
  simp only [hm, List.nil_append, List.mem_append] at ht
  rcases ht with (h | h) | h
  all_goals
    split at h
    · rw [List.mem_singleton.1 h]
      exact Or.inr ⟨_, rfl⟩
    · cases h

/-- **What a server announces** likewise. -/
theorem serverMessage_says {compat : Compatibility} {port : UInt16} {credentials : Credentials} {config : Configuration}
    {warning : Text} {m : ServerMessage} (h : serverMessage compat port credentials config warning = .ok m) :
    ∃ td bs, credentials.toTaggedData compat (some config.tlsAuthType) = .ok td ∧ td.data = .bytes bs ∧
      m.credentials = some td ∧
      ((∃ m1 : ServerMessageV1, m = .v1 m1 ∧ m1.cert = bs) ∨
        ∃ m2 : ServerMessageV2, m = .v2 m2 ∧ m2.credentials = td ∧ ∀ t ∈ m2.attributes, t.Plain) := by
  obtain ⟨td, htd, hnew⟩ := serverMessage_ok h
  obtain ⟨⟨bs, hbs⟩, -⟩ := credentials.toTaggedData_ok compat _ td htd
  refine ⟨td, bs, htd, hbs, ?_⟩
  unfold ServerMessage.new at hnew
  rw [hbs] at hnew
  by_cases hs : compat.supports .cmsgSmsg2 = true
  · simp only [if_pos hs] at hnew
    cases hnew
    exact ⟨rfl, Or.inr ⟨_, rfl, rfl, plain_serverAttributes _ config rfl⟩⟩
  · simp only [if_neg hs] at hnew
    cases hnew
    have htag := toTaggedData_of_unsupported htd (Bool.eq_false_of_not_eq_true hs)
    constructor
    · obtain ⟨tag, data⟩ := td
      simp only at hbs htag
      rw [hbs, htag]
      rfl
    · exact Or.inl ⟨_, rfl, rfl⟩

/-! ## What fits reads back -/

theorem data_wf_of_length (bs : Bytes) (h : (Codec.data.enc bs).length < 2 ^ 64) : Codec.data.wf bs :=
  list_wf_of_length Codec.u8 bs (fun _ => Nat.one_pos) (fun _ _ _ => trivial) h

/-- Bytes under a tag. -/
theorem bytes_wf_of_length (td : TaggedData) (bs : Bytes) (hd : td.data = .bytes bs)
    (h : (TaggedData.codec.enc td).length < 2 ^ 64) : TaggedData.codec.wf td := by
  obtain ⟨tag, data⟩ := td
  simp only at hd
  subst hd
  refine ⟨trivial, ?_⟩
  have hl : (Codec.uint.enc tag ++ (Codec.uint.enc 5 ++ Codec.data.enc bs)).length < 2 ^ 64 := by
    have he : Variant.enc (.bytes bs) = Codec.uint.enc 5 ++ Codec.data.enc bs := by rw [Variant.enc]
    rw [← he]
    exact h
  rw [List.length_append, List.length_append] at hl
  show Variant.wf (.bytes bs)
  rw [Variant.wf]
  exact data_wf_of_length bs (by omega)

theorem body_length {tag body : Bytes} (h : (tag ++ body).length < 2 ^ 32) : body.length < 2 ^ 64 := by
  rw [List.length_append] at h
  omega

theorem ClientMessageV1.readsBack_of_fits (m : ClientMessageV1) (hp : ∀ t ∈ m.attributes, t.Plain)
    (h : ClientMessage.form.Fits (.v1 m)) : ClientMessage.form.ReadsBack (.v1 m) := by
  have hl : (Codec.data.enc m.cert ++ (ConnectionType.codec.enc m.connectionType ++
      ((Codec.option PortRange.codec).enc m.port ++ (Codec.bool.enc m.showConfig ++
        ((Codec.option Codec.uint).enc m.bandwidthToServer ++ ((Codec.option Codec.uint).enc m.bandwidthToClient ++
          ((Codec.option Codec.u16).enc m.rtt ++ ((Codec.option CongestionController.codec).enc m.congestion ++
            ((Codec.option Codec.uint).enc m.initialCongestionWindow ++ ((Codec.option Codec.u16).enc m.timeout ++
              (Codec.list TaggedData.codec).enc m.attributes)))))))))).length < 2 ^ 64 := body_length h.lt
  simp only [List.length_append] at hl
  apply Form.readsBack_of_wf
  exact ⟨data_wf_of_length m.cert (by omega), trivial, fun _ _ => ⟨trivial, trivial⟩, trivial, fun _ _ => trivial,
    fun _ _ => trivial, fun _ _ => trivial, fun _ _ => trivial, fun _ _ => trivial, fun _ _ => trivial,
    plain_wf_of_length m.attributes hp (by omega)⟩

theorem ClientMessageV2.readsBack_of_fits (m : ClientMessageV2) (bs : Bytes) (hb : m.credentials.data = .bytes bs)
    (hp : ∀ t ∈ m.attributes, t.Plain) (h : ClientMessage.form.Fits (.v2 m)) :
    ClientMessage.form.ReadsBack (.v2 m) := by
  have hl : (TaggedData.codec.enc m.credentials ++ (ConnectionType.codec.enc m.connectionType ++
      ((Codec.list TaggedData.codec).enc m.attributes ++ Codec.u8.enc m.extension))).length < 2 ^ 64 := body_length h.lt
  simp only [List.length_append] at hl
  apply Form.readsBack_of_wf
  exact ⟨bytes_wf_of_length m.credentials bs hb (by omega), trivial, plain_wf_of_length m.attributes hp (by omega),
    trivial⟩

theorem ServerMessageV1.readsBack_of_fits (m : ServerMessageV1) (h : ServerMessage.form.Fits (.v1 m)) :
    ServerMessage.form.ReadsBack (.v1 m) := by
  have hl : (Codec.u16.enc m.port ++ (Codec.data.enc m.cert ++ (Codec.text.enc m.name ++
      (Codec.uint.enc m.bandwidthToServer ++ (Codec.uint.enc m.bandwidthToClient ++ (Codec.u16.enc m.rtt ++
        (CongestionController.codec.enc m.congestion ++ (Codec.uint.enc m.initialCongestionWindow ++
          (Codec.u16.enc m.timeout ++ (Codec.text.enc m.warning ++ Codec.u8.enc m.extension)))))))))).length < 2 ^ 64 :=
    body_length h.lt
  simp only [List.length_append] at hl
  apply Form.readsBack_of_wf
  exact ⟨trivial, data_wf_of_length m.cert (by omega), text_wf_of_length m.name (by omega), trivial, trivial, trivial,
    trivial, trivial, trivial, text_wf_of_length m.warning (by omega), trivial⟩

theorem ServerMessageV2.readsBack_of_fits (m : ServerMessageV2) (bs : Bytes) (hb : m.credentials.data = .bytes bs)
    (hp : ∀ t ∈ m.attributes, t.Plain) (h : ServerMessage.form.Fits (.v2 m)) :
    ServerMessage.form.ReadsBack (.v2 m) := by
  have hl : (Codec.u16.enc m.port ++ (TaggedData.codec.enc m.credentials ++ (Codec.text.enc m.commonName ++
      (Codec.uint.enc m.bandwidthToServer ++ (Codec.uint.enc m.bandwidthToClient ++ (Codec.u16.enc m.rtt ++
        ((Codec.list TaggedData.codec).enc m.attributes ++ Codec.u8.enc m.extension))))))).length < 2 ^ 64 :=
    body_length h.lt
  simp only [List.length_append] at hl
  apply Form.readsBack_of_wf
  exact ⟨trivial, bytes_wf_of_length m.credentials bs hb (by omega), text_wf_of_length m.commonName (by omega), trivial,
    trivial, trivial, plain_wf_of_length m.attributes hp (by omega), trivial⟩

theorem clientMessage_readsBack {compat : Compatibility} {credentials : Credentials} {ct : ConnectionType} {rc : Bool}
    {config : ConfigurationOptional} {direction : Direction} {m : ClientMessage}
    (h : clientMessage compat credentials ct rc config direction = .ok m) (hf : ClientMessage.form.Fits m) :
    ClientMessage.form.ReadsBack m := by
  obtain ⟨td, bs, -, hbs, -, ⟨m1, rfl, -, hp⟩ | ⟨m2, rfl, rfl, hp⟩⟩ := clientMessage_ok h
  · exact m1.readsBack_of_fits hp hf
  · exact m2.readsBack_of_fits bs hbs hp hf

theorem serverMessage_readsBack {compat : Compatibility} {port : UInt16} {credentials : Credentials}
    {config : Configuration} {warning : Text} {m : ServerMessage}
    (h : serverMessage compat port credentials config warning = .ok m) (hf : ServerMessage.form.Fits m) :
    ServerMessage.form.ReadsBack m := by
  obtain ⟨td, bs, -, hbs, -, ⟨m1, rfl, -⟩ | ⟨m2, rfl, rfl, hp⟩⟩ := serverMessage_says h
  · exact m1.readsBack_of_fits hf
  · exact m2.readsBack_of_fits bs hbs hp hf

end Qcp
