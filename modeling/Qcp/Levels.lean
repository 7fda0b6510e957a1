import Qcp.Opening
import Qcp.Requests
/-!
# Levels — what either side may send, and the level it comes to

Every message belongs to a feature, and so to a level (`Msg.level`).  `sends_understood` says that neither side sends
what the other's level does not reach, on the control channel and on any stream after it, and that what would need
more ends in an error.
-/
namespace Qcp

open Bare (Bytes Text Codec)
open Proc (Steps Task View Local Ok)

/-! ## The level of a message -/

def Feature.num (f : Feature) : UInt16 := f.level.toU16

def ClientMessage.level : ClientMessage → UInt16
  | toFollow => Feature.basicProtocol.num
  | v1 m => if m.congestion = some .newReno then Feature.newReno.num else Feature.basicProtocol.num
  | v2 _ => Feature.cmsgSmsg2.num

def ServerMessage.level : ServerMessage → UInt16
  | toFollow | failure _ => Feature.basicProtocol.num
  | v1 m => if m.congestion = .newReno then Feature.newReno.num else Feature.basicProtocol.num
  | v2 _ => Feature.cmsgSmsg2.num

def Command.level : Command → UInt16
  | get _ | put _ => Feature.basicProtocol.num
  | get2 _ | put2 _ => Feature.get2Put2.num
  | createDirectory _ | setMetadata _ | list _ => Feature.mkdirSetmetaLs.num

def FileHeader.level : FileHeader → UInt16
  | v1 _ => Feature.basicProtocol.num
  | v2 _ => Feature.get2Put2.num

def FileTrailer.level : FileTrailer → UInt16
  | v1 => Feature.basicProtocol.num
  | v2 _ => Feature.get2Put2.num

/-- The level of the feature a message belongs to. -/
def Msg.level : Msg → UInt16
  | banner _ | clientGreeting _ | serverGreeting _ | response _ | payload _ => Feature.basicProtocol.num
  | clientMessage m => m.level
  | serverMessage m => m.level
  | command c => c.level
  | fileHeader h => h.level
  | fileTrailer t => t.level
  | listData _ => Feature.mkdirSetmetaLs.num

/-- The level of what a client asks for, whichever way it is sent. -/
def Request.level : Request → UInt16
  | get _ | put _ => Feature.basicProtocol.num
  | createDirectory _ | setMetadata _ | list _ _ => Feature.mkdirSetmetaLs.num

/-- What a peer of that level understands.  A listing is the answer to a command the peer has sent. -/
def Msg.Understood (theirs : UInt16) (got : List Msg) (m : Msg) : Prop :=
  m.level ≤ theirs ∨ ∃ l args, m = .listData l ∧ .command (.list args) ∈ got

/-- Nothing newer than the peer was sent. -/
def Understood {H : Host} (theirs : UInt16) (v : View H.sig) : Prop := ∀ m ∈ v.tried, m.Understood theirs v.got

/-! ## The level in use -/

open ControlChannel

/-- A selected level is at most that. -/
def Compatibility.AtMost (c : Compatibility) (theirs : UInt16) : Prop := ∃ l, c = .level l ∧ l ≤ theirs

theorem processCompatibilityLevels_atMost (theirs : UInt16) : (processCompatibilityLevels theirs).AtMost theirs := by
  refine ⟨_, processCompatibilityLevels_eq theirs, ?_⟩
  rw [min_uint16]
  split
  · assumption
  · exact UInt16.le_refl _

theorem supported_le {theirs : UInt16} {f : Feature} (h : (processCompatibilityLevels theirs).supports f = true) :
    f.num ≤ theirs := (chosen_supports _ theirs f h).2

theorem basic_le {theirs : UInt16} (h : 1 ≤ theirs) : Feature.basicProtocol.num ≤ theirs := h

/-- What carries a NewReno request is sent only to a peer that knows it. -/
theorem newReno_le {theirs : UInt16} {congestion : CongestionController}
    (h : ensureController congestion (processCompatibilityLevels theirs) = .ok ()) (hn : congestion = .newReno) :
    Feature.newReno.num ≤ theirs := supported_le (ensureController_ok _ _ _ h hn)

theorem rawPublicKey_le {theirs : UInt16} {credentials : Credentials} {t : CredentialsType} {td : TaggedData}
    (h : credentials.toTaggedData (processCompatibilityLevels theirs) (some t) = .ok td) (ht : t = .rawPublicKey) :
    Feature.cmsgSmsg2.num ≤ theirs := by
  subst ht
  unfold Credentials.toTaggedData Credentials.typeTagFor at h
  simp only at h
  split at h
  · rename_i hs; exact supported_le hs
  · cases h

/-- Below the level of the second messages the credentials are the certificate. -/
theorem certificate_of_toTaggedData {compat : Compatibility} {credentials : Credentials} {t : Option CredentialsType}
    {td : TaggedData} (h : credentials.toTaggedData compat t = .ok td) (hs : compat.supports .cmsgSmsg2 = false) :
    td.data = .bytes credentials.certificate := by
  unfold Credentials.toTaggedData at h
  split at h
  · cases h
  · cases h; rfl
  · rw [if_neg (by rw [hs]; exact Bool.noConfusion)] at h
    cases h

/-! ## The two messages -/

/-- What a client that sends its message relies on its peer for. -/
structure ClientSays (theirs : UInt16) (credentials : Credentials) (config : ConfigurationOptional)
    (m : ClientMessage) :
    Prop where
  level : m.level ≤ theirs
  cert : ∀ m1, m = .v1 m1 → m1.cert = credentials.certificate
  newReno : config.congestion = some .newReno → Feature.newReno.num ≤ theirs
  rawPublicKey : config.tlsAuthType = some .rawPublicKey → Feature.cmsgSmsg2.num ≤ theirs

theorem clientSays_of_clientMessage {theirs : UInt16} {credentials : Credentials} {ct : ConnectionType} {rc : Bool}
    {config : ConfigurationOptional} {d : Direction} {m : ClientMessage} (h1 : 1 ≤ theirs)
    (h : clientMessage (processCompatibilityLevels theirs) credentials ct rc config d = .ok m) :
    ClientSays theirs credentials config m := by
  obtain ⟨u, hc, h⟩ := (Configuration.bind_eq_ok _ _ _).1 h
  obtain ⟨td, htd, h⟩ := (Configuration.bind_eq_ok _ _ _).1 h
  obtain ⟨⟨bs, hbs⟩, -⟩ := credentials.toTaggedData_ok _ _ td htd
  have hreno : config.congestion = some .newReno → Feature.newReno.num ≤ theirs := fun hn =>
    newReno_le hc (by rw [hn]; rfl)
  have hraw : config.tlsAuthType = some .rawPublicKey → Feature.cmsgSmsg2.num ≤ theirs := fun ht => by
    rw [ht] at htd
    exact rawPublicKey_le htd rfl
  rw [ClientMessage.new_of_bytes hbs] at h
  simp only at h
  cases h
  by_cases hs : (processCompatibilityLevels theirs).supports .cmsgSmsg2 = true
  · rw [if_pos hs]
    refine ⟨supported_le hs, fun m1 hm => ?_, hreno, hraw⟩
    cases hm
  · rw [if_neg hs]
    have hcert := certificate_of_toTaggedData htd (Bool.eq_false_iff.2 hs)
    rw [hbs] at hcert
    refine ⟨?_, fun m1 hm => ?_, hreno, hraw⟩
    · show (if config.congestion = some .newReno then _ else _) ≤ theirs
      split
      · rename_i hn; exact hreno hn
      · exact basic_le h1
    · cases hm
      exact Variant.bytes.inj hcert

/-- What a server that answers relies on its peer for. -/
structure ServerSays (theirs : UInt16) (credentials : Credentials) (config : Configuration) (m : ServerMessage) :
    Prop where
  level : m.level ≤ theirs
  cert : ∀ m1, m = .v1 m1 → m1.cert = credentials.certificate
  newReno : config.congestion = .newReno → Feature.newReno.num ≤ theirs
  rawPublicKey : config.tlsAuthType = .rawPublicKey → Feature.cmsgSmsg2.num ≤ theirs

theorem serverSays_of_serverRespond {E : EngRepr} {P : Platform} {describe : NegotiateError → Text}
    {generate : Except Text Credentials} {theirs : UInt16} {manager : Manager} {message : ClientMessageV2}
    {config : Configuration} {m : ServerMessage} (h1 : 1 ≤ theirs)
    (h : serverRespond E P describe generate (processCompatibilityLevels theirs) manager message = .answer config m) :
    ∃ credentials, generate = .ok credentials ∧ ServerSays theirs credentials config m := by
  obtain ⟨-, credentials, port, warning, hgen, hend, hreply⟩ := parts_of_answer h
  refine ⟨credentials, hgen, ?_⟩
  obtain ⟨_, -, hend⟩ := (Configuration.bind_eq_ok _ _ _).1 hend
  obtain ⟨u, hc, -⟩ := (Configuration.bind_eq_ok _ _ _).1 hend
  obtain ⟨td, htd, h⟩ := serverMessage_ok hreply
  obtain ⟨⟨bs, hbs⟩, -⟩ := credentials.toTaggedData_ok _ _ td htd
  have hreno : config.congestion = .newReno → Feature.newReno.num ≤ theirs := fun hn =>
    supported_le (Configuration.newReno_of_createConfig hc hn)
  have hraw : config.tlsAuthType = .rawPublicKey → Feature.cmsgSmsg2.num ≤ theirs := rawPublicKey_le htd
  unfold ServerMessage.new at h
  rw [hbs] at h
  by_cases hs : (processCompatibilityLevels theirs).supports .cmsgSmsg2 = true
  · simp only [hs, if_true] at h
    cases h
    refine ⟨supported_le hs, fun m1 hm => ?_, hreno, hraw⟩
    cases hm
  · simp only [hs] at h
    cases h
    have hcert := certificate_of_toTaggedData htd (Bool.eq_false_iff.2 hs)
    rw [hbs] at hcert
    refine ⟨?_, fun m1 hm => ?_, hreno, hraw⟩
    · show (if config.congestion = .newReno then _ else _) ≤ theirs
      split
      · rename_i hn; exact hreno hn
      · exact basic_le h1
    · cases hm
      exact Variant.bytes.inj hcert

/-! ## Streams -/

section Streams

variable {H : Host} {theirs : UInt16} {inner : SessionCommandInner}

theorem getCommand_level (h : inner.compat = processCompatibilityLevels theirs) (h1 : 1 ≤ theirs) (job : CopyJobSpec) :
    (GetHandler.command inner job).level ≤ theirs := by
  unfold GetHandler.command
  rw [h]
  split
  · rename_i hs; exact supported_le hs
  · exact basic_le h1

theorem putCommand_level (h : inner.compat = processCompatibilityLevels theirs) (h1 : 1 ≤ theirs) (job : CopyJobSpec) :
    (PutHandler.command inner job).level ≤ theirs := by
  unfold PutHandler.command
  rw [h]
  split
  · rename_i hs; exact supported_le hs
  · exact basic_le h1

theorem header_level (h1 : 1 ≤ theirs) (info : Metadata) (name : Text) :
    (FileHeader.forFile (processCompatibilityLevels theirs) info name).level ≤ theirs := by
  unfold FileHeader.forFile
  split
  · rename_i hs; exact supported_le hs
  · exact basic_le h1

theorem trailer_level (h1 : 1 ≤ theirs) (info : Metadata) (preserve : Bool) :
    (FileTrailer.forFile (processCompatibilityLevels theirs) info preserve).level ≤ theirs := by
  unfold FileTrailer.forFile
  split
  · rename_i hs; exact supported_le hs
  · exact basic_le h1

/-- A file is sent as messages the peer knows. -/
theorem offers_level (h : inner.compat = processCompatibilityLevels theirs) (h1 : 1 ≤ theirs) {w : World}
    {path : Posix.Path}
    {preserve : Bool} {ms : List Msg} (ho : Offers H inner w path preserve ms) : ∀ m ∈ ms, m.level ≤ theirs := by
  obtain ⟨n, name, -, hsends⟩ := ho
  rw [h] at hsends
  have hh := header_level h1 n.info name
  have ht := trailer_level h1 n.info preserve
  have hp : ∀ cs : List Bytes, ∀ m ∈ cs.map Msg.payload, m.level ≤ theirs := fun cs m hm => by
    obtain ⟨c, -, rfl⟩ := List.mem_map.1 hm
    exact basic_le h1
  cases hsends with
  | nothing => exact List.forall_mem_nil _
  | pieces cs =>
    intro m hm
    rcases List.mem_cons.1 hm with rfl | hm
    · exact hh
    · exact hp cs m hm
  | whole cs =>
    intro m hm
    rcases List.mem_cons.1 hm with rfl | hm
    · exact hh
    · rcases List.mem_append.1 hm with hm | hm
      · exact hp cs m hm
      · rw [List.mem_singleton.1 hm]
        exact ht

theorem understood_of_level {v : View H.sig} (h : ∀ m ∈ v.tried, m.level ≤ theirs) : Understood theirs v :=
  fun m hm => Or.inl (h m hm)

/-- A request that needs a level says so before it sends anything. -/
theorem Ok.needs {f : Feature} {text : Text} {α : Type} {p : Act H α} {w : World}
    (h : inner.compat = processCompatibilityLevels theirs)
    (hp : f.num ≤ theirs → Ok (Understood theirs) (fun _ _ => True) (do
      Qcp.ensure (inner.compat.supports f) text
      p) (View.init w)) :
    Ok (Understood theirs) (fun _ _ => f.num ≤ theirs) (do
      Qcp.ensure (inner.compat.supports f) text
      p) (View.init w) := by
  have h0 : Understood theirs (View.init w : View H.sig) := fun m hm => absurd hm List.not_mem_nil
  cases hs : inner.compat.supports f with
  | true =>
    have hle : f.num ≤ theirs := supported_le (h ▸ hs)
    rw [hs] at hp
    exact (hp hle).mono (fun _ h => h) fun _ _ _ _ => hle
  | false => exact Ok.then (Ok.ensure h0 nofun)

theorem understood_of_asking {p : Command → Prop} {v : View H.sig} (hp : ∀ c, p c → c.level ≤ theirs) (h : Asking p v) :
    Understood theirs v := by
  refine understood_of_level fun m hm => ?_
  rcases h with h | ⟨c, hc, h⟩
  · rw [h] at hm; cases hm
  · rw [h] at hm
    rw [List.mem_singleton.1 hm]
    exact hp c hc

/-- **A client sends on a stream what its peer understands**, or nothing. -/
theorem Ok.sendImpl (h : inner.compat = processCompatibilityLevels theirs) (h1 : 1 ≤ theirs) (request : Request)
    (w : World) : Ok (Understood theirs) (fun _ _ => request.level ≤ theirs)
    (request.sendImpl inner : Act H RequestResult)
      (View.init w) := by
  cases request with
  | get job =>
    refine Ok.mono (Ok.getClient inner job w) (fun v hv => understood_of_level fun m hm => ?_) fun _ _ _ _ =>
      basic_le h1
    rcases hv.tried with ht | ht
    · rw [ht] at hm; cases hm
    · rw [ht] at hm
      rw [List.mem_singleton.1 hm]
      exact getCommand_level h h1 job
  | put job =>
    refine Ok.mono (Ok.putClient inner job w) (fun v hv => understood_of_level fun m hm => ?_) fun _ _ _ _ =>
      basic_le h1
    rcases hv.tried with ht | ⟨-, ms, ht, ho⟩
    · rw [ht] at hm; cases hm
    · rw [ht] at hm
      rcases List.mem_cons.1 hm with rfl | hm
      · exact putCommand_level h h1 job
      · exact offers_level h h1 ho m hm
  | createDirectory job =>
    refine Ok.needs h fun hle => ?_
    exact Ok.mono (Ok.createDirectoryClient inner job w)
      (fun v hv => understood_of_asking (fun c hc => by rw [hc]; exact hle) hv) fun _ _ _ _ => trivial
  | setMetadata job =>
    refine Ok.needs h fun hle => ?_
    exact Ok.mono (Ok.setMetadataClient inner job w)
      (fun v hv => understood_of_asking (fun c ⟨info, hc⟩ => by rw [hc]; exact hle) hv) fun _ _ _ _ => trivial
  | list job recurse =>
    refine Ok.needs h fun hle => ?_
    exact Ok.mono (Ok.listClient inner job recurse w)
      (fun v hv => understood_of_asking (fun c hc => by rw [hc]; exact hle) hv) fun _ _ _ _ => trivial

theorem understood_of_answered {rest : List Msg → Prop} {v : View H.sig} (h1 : 1 ≤ theirs) (h : Answered rest v.tried)
    (hr : ∀ ms, rest ms → ∀ m ∈ ms, m.Understood theirs v.got) : Understood theirs v := by
  intro m hm
  generalize v.tried = tried at h hm
  cases h with
  | nothing => cases hm
  | refused r => rw [List.mem_singleton.1 hm]; exact Or.inl (basic_le h1)
  | accepted ms hms =>
    rcases List.mem_cons.1 hm with rfl | hm
    · exact Or.inl (basic_le h1)
    · exact hr ms hms m hm

/-- **A server answers on a stream what its peer understands.** -/
theorem understood_of_serving (h : inner.compat = processCompatibilityLevels theirs) (h1 : 1 ≤ theirs) {w : World}
    {v : View H.sig} (hv : Serving H inner w v) : Understood theirs v := by
  have hput : ∀ {cap c cb}, Answered (PutRest H cap c cb v) v.tried → Understood theirs v := fun ha => by
    refine understood_of_answered h1 ha fun ms hms m hm => ?_
    cases hms with
    | waiting => cases hm
    | failed r => rw [List.mem_singleton.1 hm]; exact Or.inl (basic_le h1)
    | finished => rw [List.mem_singleton.1 hm]; exact Or.inl (basic_le h1)
  rcases hv with ht | ⟨c, cb, -, -, hs⟩
  · intro m hm
    rw [ht] at hm
    cases hm
  cases c with
  | get args =>
    exact understood_of_answered h1 hs.tried fun ms hms m hm => Or.inl (offers_level h h1 hms m hm)
  | get2 args =>
    exact understood_of_answered h1 hs.tried fun ms hms m hm => Or.inl (offers_level h h1 hms m hm)
  | put args => exact hput hs
  | put2 args => exact hput hs
  | createDirectory args =>
    refine understood_of_answered h1 hs.tried fun ms hms m hm => ?_
    rw [hms.1] at hm
    cases hm
  | setMetadata args =>
    refine understood_of_answered h1 hs.tried fun ms hms m hm => ?_
    obtain ⟨-, -, rfl, -⟩ := hms
    cases hm
  | list args =>
    refine understood_of_answered h1 hs.tried fun ms hms m hm => ?_
    obtain ⟨ps, qs, -, -, -, rfl, -⟩ := hms
    obtain ⟨l, -, rfl⟩ := List.mem_map.1 hm
    exact Or.inr ⟨l, args, rfl, by rw [hs.got]; exact List.mem_singleton_self _⟩

end Streams

/-! ## The control channel -/

section Control

variable {H : Host} {I : View H.sig → Prop} {v : View H.sig}

/-- What a client has sent once a server has greeted it: nothing newer than the server, and in a first message its
certificate. -/
structure ClientHeeds (H : Host) (credentials : Credentials) (theirs : UInt16) (v : View H.sig) : Prop where
  understood : Understood theirs v
  cert : ∀ m, .clientMessage (.v1 m) ∈ v.tried → m.cert = credentials.certificate

/-- So it is for whatever greeting was read. -/
def Heeding (credentials : Credentials) (v : View H.sig) : Prop :=
  ∀ g, .serverGreeting g ∈ v.got → 1 ≤ g.compatibility → ClientHeeds H credentials g.compatibility v

/-- What a client has agreed to when it has the server's message. -/
structure ClientSettled (H : Host) (config : ConfigurationOptional) (compat : Compatibility) (g : ServerGreeting)
    (v : View H.sig) : Prop where
  greeted : .serverGreeting g ∈ v.got
  compat : compat = processCompatibilityLevels g.compatibility
  newReno : 1 ≤ g.compatibility → config.congestion = some .newReno → Feature.newReno.num ≤ g.compatibility
  rawPublicKey : 1 ≤ g.compatibility → config.tlsAuthType = some .rawPublicKey → Feature.cmsgSmsg2.num ≤ g.compatibility

theorem Ok.runClient (E : EngRepr) (credentials : Credentials) (ct : ConnectionType) (manager : Manager)
    (remoteDebug remoteConfig : Bool) (direction : Direction) (forceCompat : Option Compatibility) (w : World) :
    Ok (Heeding credentials) (fun r v => ∃ g, ClientSettled H (manager.preferences E) r.1 g v)
      (ControlChannel.runClient E credentials ct manager remoteDebug remoteConfig direction forceCompat : Act H _)
      (View.init w) := by
  have quiet : ∀ v : View H.sig, v.got = [] → Heeding credentials v := fun v hg g hm => by rw [hg] at hm; cases hm
  refine Ok.then (Ok.waitForBanner (fun _ _ => quiet _ rfl) fun bs _ => ?_)
  refine Ok.then (Ok.then (Ok.channelSend (quiet _ rfl) (fun _ => quiet _ rfl) ?_))
  -- the server's greeting
  have greeted : ∀ (g : ServerGreeting) (v : View H.sig), (∀ g', .serverGreeting g' ∈ v.got → g' = g) →
      (1 ≤ g.compatibility → ClientHeeds H credentials g.compatibility v) → Heeding credentials v :=
    fun g v hg h g' hm h1 => by cases hg g' hm; exact h h1
  have one : ∀ (g : ServerGreeting) (got : List Msg), got = [.serverGreeting g] →
      ∀ g', .serverGreeting g' ∈ got → g' = g := fun g got hg g' hm => by
    rw [hg] at hm
    exact Msg.serverGreeting.inj (List.mem_singleton.1 hm)
  have first : ∀ (theirs : UInt16) (v : View H.sig) (c : ClientGreeting), v.tried = [.clientGreeting c] →
      1 ≤ theirs → ClientHeeds H credentials theirs v := fun theirs v c ht h1 =>
    ⟨fun m hm => by rw [ht] at hm; rw [List.mem_singleton.1 hm]; exact Or.inl (basic_le h1),
      fun m hm => by rw [ht] at hm; cases List.mem_singleton.1 hm⟩
  refine Ok.then (Ok.reader (fun _ _ => quiet _ rfl)
    (fun _ g _ _ _ => greeted g _ (one g _ rfl) (first _ _ _ rfl)) fun gb g _ _ _ => ?_)
  have hi := greeted g _ (one g _ rfl) (first g.compatibility
    ⟨w, [.clientGreeting ⟨advertised forceCompat, remoteDebug, 0⟩],
    [.clientGreeting ⟨advertised forceCompat, remoteDebug, 0⟩],
      [.serverGreeting g], bs ++ Frame.frame gb, [], (View.init (S := H.sig) w).lost⟩ _ rfl)
  apply Ok.pure hi
  -- the client's message
  show Ok _ _ (ControlChannel.clientSendMessage (processCompatibilityLevels g.compatibility) credentials ct remoteConfig
    (manager.preferences E) direction >>= _) _
  rw [ControlChannel.clientSendMessage_eq]
  cases hm : clientMessage (processCompatibilityLevels g.compatibility) credentials ct remoteConfig
    (manager.preferences E) direction with
  | error e => exact Ok.then (Ok.fail hi)
  | ok m =>
    have hsay := fun h1 => clientSays_of_clientMessage h1 hm
    have second : ∀ (v : View H.sig) (c : ClientGreeting), v.tried = [.clientGreeting c, .clientMessage m] →
        1 ≤ g.compatibility → ClientHeeds H credentials g.compatibility v := by
      refine fun v c ht h1 => ⟨fun x hx => ?_, fun m1 hx => ?_⟩
      · rw [ht] at hx
        rcases List.mem_cons.1 hx with rfl | hx
        · exact Or.inl (basic_le h1)
        · rw [List.mem_singleton.1 hx]
          exact Or.inl (hsay h1).level
      · rw [ht] at hx
        rcases List.mem_cons.1 hx with hx | hx
        · cases hx
        · exact (hsay h1).cert m1 (Msg.clientMessage.inj (List.mem_singleton.1 hx)).symm
    refine Ok.then (Ok.channelSend hi (fun _ => greeted g _ (one g _ rfl) (second _ _ rfl)) ?_)
    have hi2 : ∀ (v : View H.sig) (c : ClientGreeting), v.got = [.serverGreeting g] →
        v.tried = [.clientGreeting c, .clientMessage m] → Heeding credentials v := fun v c hg ht =>
      greeted g v (one g _ hg) (second v c ht)
    -- the server's message
    have last : ∀ (v : View H.sig) (c : ClientGreeting) (sm : ServerMessage),
        v.got = [.serverGreeting g, .serverMessage sm] → v.tried = [.clientGreeting c, .clientMessage m] →
        Heeding credentials v := by
      refine fun v c sm hg ht => greeted g v (fun g' hg' => ?_) (second v c ht)
      rw [hg] at hg'
      rcases List.mem_cons.1 hg' with hg' | hg'
      · exact Msg.serverGreeting.inj hg'
      · cases List.mem_singleton.1 hg'
    have settled : ∀ (v : View H.sig) (sm : ServerMessage), v.got = [.serverGreeting g, .serverMessage sm] →
        ClientSettled H (manager.preferences E) (processCompatibilityLevels g.compatibility) g v := fun v sm hg =>
      ⟨by rw [hg]; exact List.mem_cons_self, rfl, fun h1 => (hsay h1).newReno, fun h1 => (hsay h1).rawPublicKey⟩
    refine Ok.then (Ok.then (Ok.reader (fun _ _ => hi2 _ _ rfl rfl) (fun _ sm _ _ _ => last _ _ sm rfl rfl)
      fun mb sm _ _ _ => ?_))
    cases sm with
    | v1 sm => exact Ok.pure (last _ _ _ rfl rfl) (Ok.pure (last _ _ _ rfl rfl) ⟨g, settled _ _ rfl⟩)
    | v2 sm => exact Ok.pure (last _ _ _ rfl rfl) (Ok.pure (last _ _ _ rfl rfl) ⟨g, settled _ _ rfl⟩)
    | failure f => exact Ok.fail (last _ _ _ rfl rfl)
    | toFollow => exact Ok.fail (last _ _ _ rfl rfl)

/-- What a server has sent once a client has greeted it. -/
structure ServerHeeds (H : Host) (generate : Except Text Credentials) (theirs : UInt16) (v : View H.sig) : Prop where
  understood : Understood theirs v
  cert : ∀ m credentials, .serverMessage (.v1 m) ∈ v.tried → generate = .ok credentials →
    m.cert = credentials.certificate

def ServerHeeding (generate : Except Text Credentials) (v : View H.sig) : Prop :=
  ∀ g, .clientGreeting g ∈ v.got → 1 ≤ g.compatibility → ServerHeeds H generate g.compatibility v

/-- What a server that has answered has agreed to. -/
structure ServerSettled (H : Host) (config : Configuration) (compat : Compatibility) (g : ClientGreeting)
    (v : View H.sig) :
    Prop where
  greeted : .clientGreeting g ∈ v.got
  compat : compat = processCompatibilityLevels g.compatibility
  newReno : 1 ≤ g.compatibility → config.congestion = .newReno → Feature.newReno.num ≤ g.compatibility
  rawPublicKey : 1 ≤ g.compatibility → config.tlsAuthType = .rawPublicKey → Feature.cmsgSmsg2.num ≤ g.compatibility

/-- A server that has greeted, and was greeted. -/
structure Greeted (H : Host) (g : ClientGreeting) (sg : ServerGreeting) (v : View H.sig) : Prop where
  tried : v.tried = [.banner bannerText, .serverGreeting sg]
  here : .clientGreeting g ∈ v.got
  only : ∀ g', .clientGreeting g' ∈ v.got → g' = g

/-- One more message, or none, of which the peer knows all. -/
theorem Greeted.heeding {generate : Except Text Credentials} {g : ClientGreeting} {sg : ServerGreeting}
    {v v' : View H.sig} (h : Greeted H g sg v) (hg : v'.got = v.got) (ms : List ServerMessage)
    (ht : v'.tried = [.banner bannerText, .serverGreeting sg] ++ ms.map .serverMessage)
    (hl : 1 ≤ g.compatibility → ∀ m ∈ ms, m.level ≤ g.compatibility)
    (hc : 1 ≤ g.compatibility → ∀ m credentials, .v1 m ∈ ms → generate = .ok credentials →
      m.cert = credentials.certificate) : ServerHeeding generate v' := by
  intro g' hg' h1
  rw [hg] at hg'
  cases h.only g' hg'
  refine ⟨fun m hm => ?_, fun m credentials hm hgen => ?_⟩
  · rw [ht] at hm
    rcases List.mem_append.1 hm with hm | hm
    · rcases List.mem_cons.1 hm with rfl | hm
      · exact Or.inl (basic_le h1)
      · rw [List.mem_singleton.1 hm]
        exact Or.inl (basic_le h1)
    · obtain ⟨x, hx, rfl⟩ := List.mem_map.1 hm
      exact Or.inl (hl h1 x hx)
  · rw [ht] at hm
    rcases List.mem_append.1 hm with hm | hm
    · rcases List.mem_cons.1 hm with hm | hm
      · cases hm
      · cases List.mem_singleton.1 hm
    · obtain ⟨x, hx, hxm⟩ := List.mem_map.1 hm
      cases hxm
      exact hc h1 m credentials hx hgen

theorem Greeted.quiet {generate : Except Text Credentials} {g : ClientGreeting} {sg : ServerGreeting} {v : View H.sig}
    (h : Greeted H g sg v) : ServerHeeding generate v :=
  h.heeding rfl [] (by rw [h.tried]; rfl) (fun _ m hm => absurd hm List.not_mem_nil)
    fun _ m _ hm => absurd hm List.not_mem_nil

/-- A failure is something every client knows. -/
theorem Ok.sendError {generate : Except Text Credentials} {g : ClientGreeting} {sg : ServerGreeting} {f : ServerFailure}
    {α : Type} {k : Act H α} {Q : α → View H.sig → Prop} (h : Greeted H g sg v)
    (hk : ∀ v', ServerHeeding generate v' → Ok (ServerHeeding generate) Q k v') :
    Ok (ServerHeeding generate) Q (do ControlChannel.sendError f; k) v := by
  have hi : ∀ sent, ServerHeeding generate
      { v with tried := v.tried ++ [.serverMessage (.failure f)], sent := sent } := fun sent =>
    h.heeding rfl [.failure f] (by rw [h.tried]; rfl)
      (fun h1 m hm => by rw [List.mem_singleton.1 hm]; exact basic_le h1)
      fun _ m _ hm => by cases List.mem_singleton.1 hm
  exact Ok.then (Ok.channelSend h.quiet hi (hk _ (hi _)))

theorem Ok.runServerInner (E : EngRepr) (P : Platform) (describe : NegotiateError → Text)
    (generate : Except Text Credentials) (manager : Manager) {g : ClientGreeting} {sg : ServerGreeting}
    (h : Greeted H g sg v) :
    Ok (ServerHeeding generate)
      (fun config v => ServerSettled H config (processCompatibilityLevels g.compatibility) g v)
      (ControlChannel.runServerInner E P describe generate (processCompatibilityLevels g.compatibility)
        manager : Act H _) v := by
  refine Ok.then (Ok.then (Ok.attempt (J := Greeted H g sg) (Q := fun _ _ => True)
    (Ok.reader (fun _ _ => ⟨h.tried, h.here, h.only⟩) (fun _ cm _ _ _ => ⟨h.tried, List.mem_append_left _ h.here, ?_⟩)
      fun _ _ _ _ _ => trivial) (fun _ h => h.quiet) (fun cm v hv _ => ?_) fun e v hv => ?_))
  · intro g' hg'
    rcases List.mem_append.1 hg' with hg' | hg'
    · exact h.only g' hg'
    · cases List.mem_singleton.1 hg'
  · -- a message was read
    have reply : ∀ cm2, Ok (ServerHeeding generate)
        (fun config v => ServerSettled H config (processCompatibilityLevels g.compatibility) g v)
        (ControlChannel.serverReply E P describe generate (processCompatibilityLevels g.compatibility) manager
          cm2) v := by
      intro cm2
      rw [ControlChannel.serverReply_eq]
      cases hr : serverRespond E P describe generate (processCompatibilityLevels g.compatibility) manager cm2 with
      | refuse f => exact Ok.sendError hv fun v' hv' => Ok.fail hv'
      | abort e => exact Ok.fail hv.quiet
      | panic t => exact Ok.fail hv.quiet
      | answer config m =>
        have hsay := fun h1 => serverSays_of_serverRespond h1 hr
        have hi : ∀ sent, ServerHeeding generate
            { v with tried := v.tried ++ [.serverMessage m], sent := sent } := fun sent => by
          refine hv.heeding rfl [m] (by rw [hv.tried]; rfl) (fun h1 x hx => ?_) fun h1 m1 credentials hm1 hgen => ?_
          · obtain ⟨_, -, hs⟩ := hsay h1
            rw [List.mem_singleton.1 hx]
            exact hs.level
          · obtain ⟨c, hc, hs⟩ := hsay h1
            cases hc.symm.trans hgen
            exact hs.cert m1 (List.mem_singleton.1 hm1).symm
        refine Ok.then (Ok.then (Ok.channelSend hv.quiet hi (Ok.flushed (hi _) (Ok.pure (hi _) ?_))))
        refine ⟨hv.here, rfl, fun h1 => ?_, fun h1 => ?_⟩
        · obtain ⟨_, -, hs⟩ := hsay h1
          exact hs.newReno
        · obtain ⟨_, -, hs⟩ := hsay h1
          exact hs.rawPublicKey
    cases cm with
    | toFollow => exact Ok.sendError hv fun v' hv' => Ok.fail hv'
    | v1 m => exact Ok.pure hv.quiet (reply _)
    | v2 m => exact Ok.pure hv.quiet (reply _)
  · exact Ok.sendError hv fun v' hv' => Ok.fail hv'

theorem Ok.runServer (E : EngRepr) (P : Platform) (describe : NegotiateError → Text)
    (generate : Except Text Credentials) (setupTracing : Bool → Except Text Unit) (manager : Manager)
    (forceCompat : Option Compatibility) (w : World) :
    Ok (ServerHeeding generate) (fun r v => ∃ g, ServerSettled H r.2 r.1 g v)
      (ControlChannel.runServer E P describe generate setupTracing manager forceCompat : Act H _) (View.init w) := by
  have quiet : ∀ v : View H.sig, v.got = [] → ServerHeeding generate v := fun v hg g hm => by rw [hg] at hm; cases hm
  refine Ok.then (Ok.send (quiet _ rfl) (quiet _ rfl) ?_ (quiet _ rfl) fun f => ?_)
  · refine Ok.then (Ok.ofExcept (quiet _ rfl) fun _ _ => ?_)
    refine Ok.then (Ok.then (Ok.channelSend (quiet _ rfl) (fun _ => quiet _ rfl) ?_))
    have here : ∀ (g : ClientGreeting) (v : View H.sig), v.got = [.clientGreeting g] →
        v.tried = [.banner bannerText, .serverGreeting ⟨advertised forceCompat, 0⟩] →
        Greeted H g ⟨advertised forceCompat, 0⟩ v := by
      refine fun g v hg ht => ⟨ht, by rw [hg]; exact List.mem_singleton_self _, fun g' hg' => ?_⟩
      rw [hg] at hg'
      exact Msg.clientGreeting.inj (List.mem_singleton.1 hg')
    refine Ok.then (Ok.reader (fun _ _ => quiet _ rfl) (fun _ g _ _ _ => (here g _ rfl rfl).quiet) fun gb g _ _ _ => ?_)
    refine Ok.pure (here g _ rfl rfl).quiet (Ok.then (Ok.ofExcept (here g _ rfl rfl).quiet fun _ _ => ?_))
    refine Ok.then (Ok.mono (Ok.runServerInner E P describe generate manager (here g _ rfl rfl)) (fun _ h => h)
      fun config v hi hs => Ok.pure hi ⟨g, hs⟩)
  · exact Ok.then (Ok.ofExcept (quiet _ rfl) nofun)

/-- **A client's streams at a level**: nothing newer than the server is sent, and what needs more than the server has
does not succeed. -/
def ClientStreams (H : Host) (compat : Compatibility) (theirs : UInt16) : Prop :=
  ∀ (inner : SessionCommandInner) (request : Request) (w : World) (p : Act H RequestResult) (s : Local H.sig),
    inner.compat = compat → Steps (request.sendImpl inner, Local.init w) (p, s) →
      Understood theirs s.view ∧ ∀ result, p = .ret (.ok result) → request.level ≤ theirs

/-- A server's streams at a level. -/
def ServerStreams (H : Host) (compat : Compatibility) (theirs : UInt16) : Prop :=
  ∀ (inner : SessionCommandInner) (w : World) (p : Act H Unit) (s : Local H.sig),
    inner.compat = compat → Steps (handleStream inner, Local.init w) (p, s) → Understood theirs s.view

theorem clientStreams_of_chosen {theirs : UInt16} (h1 : 1 ≤ theirs) :
    ClientStreams H (processCompatibilityLevels theirs) theirs := fun _ request w _ _ hc hs =>
  ⟨(Ok.sendImpl hc h1 request w).run hs, fun _ hp => by subst hp; exact (Ok.sendImpl hc h1 request w).run_ok hs⟩

theorem serverStreams_of_chosen {theirs : UInt16} (h1 : 1 ≤ theirs) :
    ServerStreams H (processCompatibilityLevels theirs) theirs := fun inner w _ _ hc hs =>
  understood_of_serving hc h1 ((Ok.handleStream inner w).run hs)

/-- All that holds of a client, whatever its server advertises. -/
structure ClientUnderstood (E : EngRepr) (credentials : Credentials) (ct : ConnectionType) (manager : Manager)
    (remoteDebug remoteConfig : Bool) (direction : Direction) (forceCompat : Option Compatibility) (w : World) :
    Prop where
  selects : ∀ g compat s, Steps ((clientOpening remoteDebug forceCompat : Act H _), Local.init w)
    (.ret (.ok (g, compat)), s) → compat.AtMost g.compatibility
  heeds : ∀ p s, Steps ((ControlChannel.runClient E credentials ct manager remoteDebug remoteConfig direction
    forceCompat :
    Act H _), Local.init w) (p, s) → Heeding credentials s.view
  settles : ∀ compat message s,
    Steps ((ControlChannel.runClient E credentials ct manager remoteDebug remoteConfig direction
    forceCompat : Act H _), Local.init w) (.ret (.ok (compat, message)), s) →
    ∃ g, ClientSettled H (manager.preferences E) compat g s.view ∧ compat.AtMost g.compatibility ∧
      (1 ≤ g.compatibility → ClientStreams H compat g.compatibility)

/-- All that holds of a server, whatever its client advertises. -/
structure ServerUnderstood (E : EngRepr) (P : Platform) (describe : NegotiateError → Text)
    (generate : Except Text Credentials) (setupTracing : Bool → Except Text Unit) (manager : Manager)
    (forceCompat : Option Compatibility) (w : World) : Prop where
  selects : ∀ g compat s, Steps ((serverOpening forceCompat : Act H _), Local.init w) (.ret (.ok (g, compat)), s) →
    compat.AtMost g.compatibility
  heeds : ∀ p s, Steps ((ControlChannel.runServer E P describe generate setupTracing manager forceCompat : Act H _),
    Local.init w) (p, s) → ServerHeeding generate s.view
  settles : ∀ compat config s, Steps ((ControlChannel.runServer E P describe generate setupTracing manager forceCompat :
    Act H _), Local.init w) (.ret (.ok (compat, config)), s) →
    ∃ g, ServerSettled H config compat g s.view ∧ compat.AtMost g.compatibility ∧
      (1 ≤ g.compatibility → ServerStreams H compat g.compatibility)

/-- **Neither side sends what the other does not understand.** -/
theorem sends_understood (E : EngRepr) (P : Platform) (describe : NegotiateError → Text)
    (generate : Except Text Credentials) (setupTracing : Bool → Except Text Unit) (credentials : Credentials)
    (ct : ConnectionType) (manager : Manager) (remoteDebug remoteConfig : Bool) (direction : Direction)
    (forceCompat : Option Compatibility) (w : World) :
    ClientUnderstood (H := H) E credentials ct manager remoteDebug remoteConfig direction forceCompat w ∧
      ServerUnderstood (H := H) E P describe generate setupTracing manager forceCompat w := by
  have client := Ok.runClient (H := H) E credentials ct manager remoteDebug remoteConfig direction forceCompat w
  have server := Ok.runServer (H := H) E P describe generate setupTracing manager forceCompat w
  refine ⟨⟨fun g compat s hs => ?_, fun p s hs => client.run hs, fun compat message s hs => ?_⟩,
    ⟨fun g compat s hs => ?_, fun p s hs => server.run hs, fun compat config s hs => ?_⟩⟩
  · have hc : compat = processCompatibilityLevels g.compatibility :=
      ((Ok.clientOpening remoteDebug forceCompat w).run_ok hs).1
    rw [hc]
    exact processCompatibilityLevels_atMost _
  · obtain ⟨g, hg⟩ := client.run_ok hs
    have hc : compat = processCompatibilityLevels g.compatibility := hg.compat
    refine ⟨g, hg, ?_, fun h1 => ?_⟩
    · rw [hc]; exact processCompatibilityLevels_atMost _
    · rw [hc]; exact clientStreams_of_chosen h1
  · have hc : compat = processCompatibilityLevels g.compatibility := ((Ok.serverOpening forceCompat w).run_ok hs).1
    rw [hc]
    exact processCompatibilityLevels_atMost _
  · obtain ⟨g, hg⟩ := server.run_ok hs
    have hc : compat = processCompatibilityLevels g.compatibility := hg.compat
    refine ⟨g, hg, ?_, fun h1 => ?_⟩
    · rw [hc]; exact processCompatibilityLevels_atMost _
    · rw [hc]; exact serverStreams_of_chosen h1

end Control

end Qcp
