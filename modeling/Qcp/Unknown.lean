import Qcp.Assembled
import Qcp.Inserted
/-!
# Unknown — attributes that this build does not know

A newer peer may send attributes under tags that are not in the tables here (`TaggedData.Unknown`).  The receivers are
given as programs of what they go on with: `ControlChannel.serverReply` and `commandHandler` are such programs, and
`createQuicEndpoint_eq`, `GetHandler.sendImpl_eq` and `PutHandler.handleImpl_eq` bring out the others.  What they do
with a message that has such attributes is, to the letter, what they do with it without them; but not so a client with
the server's message, which it refuses: `unknown_attributes_ignored`.
-/
namespace Qcp

open Bare (Bytes Text)
open Proc (Task)
open Posix (Path)
open Layers (Dict)

/-- The tag is not in the table. -/
def TaggedData.Unknown {E : Type} (toRepr : E → UInt64) (td : TaggedData) : Prop := ∀ t, toRepr t ≠ td.tag

section Lookup

variable {E : Type} {toRepr : E → UInt64}

/-- **A lookup goes past it.** -/
theorem ignores_findTag (t : E) : Ignores (TaggedData.Unknown toRepr) fun xs => findTag xs (toRepr t) := by
  refine Ignores.comp (Ignores.find? fun td htd => ?_) (Option.map TaggedData.data)
  rw [beq_eq_false_iff_ne]
  exact (htd t).symm

theorem ignores_findOption (t : CommandParam) :
    Ignores (TaggedData.Unknown CommandParam.toRepr) fun xs => findOption xs t := ignores_findTag t

theorem metadataAttr_of_unknown {md : TaggedData} (h : md.Unknown MetadataAttr.toRepr) : md.metadataAttr = none := by
  have h0 : md.tag ≠ 0 := (h .invalid).symm
  have h1 : md.tag ≠ 1 := (h .modeBits).symm
  have h2 : md.tag ≠ 2 := (h .accessTime).symm
  have h3 : md.tag ≠ 3 := (h .modificationTime).symm
  simp [TaggedData.metadataAttr, MetadataAttr.fromRepr, h0, h1, h2, h3]

theorem ServerMessage2Attributes.fromRepr_of_unknown {attr : TaggedData}
    (h : attr.Unknown ServerMessage2Attributes.toRepr) :
    fromRepr attr.tag = none := by
  have h0 : attr.tag ≠ 0 := (h .invalid).symm
  have h1 : attr.tag ≠ 1 := (h .congestionController).symm
  have h2 : attr.tag ≠ 2 := (h .initialCongestionWindow).symm
  have h3 : attr.tag ≠ 3 := (h .warningMessage).symm
  have h4 : attr.tag ≠ 4 := (h .quicTimeout).symm
  simp [fromRepr, h0, h1, h2, h3, h4]

end Lookup

/-! ## The server, with the client's message -/

theorem ignores_ofAttributes :
    Ignores (TaggedData.Unknown ClientMessage2Attributes.toRepr) Requests.ofAttributes := by
  intro xs ys h
  have hf : ∀ t : ClientMessage2Attributes, findTag ys t.toRepr = findTag xs t.toRepr :=
    fun t => ignores_findTag t xs ys h
  unfold Requests.ofAttributes
  simp only [hf]

theorem ignores_serverReply {H : Host} (E : EngRepr) (P : Platform) (describe : NegotiateError → Text)
    (generate : Except Text Credentials) (compat : Compatibility) (manager : Manager) (m : ClientMessageV2) :
    Ignores (TaggedData.Unknown ClientMessage2Attributes.toRepr) fun xs =>
      (ControlChannel.serverReply E P describe generate compat manager { m with attributes := xs } :
        Act H Configuration) := by
  intro xs ys h
  have hr := ignores_ofAttributes xs ys h
  have hd := ignores_findTag ClientMessage2Attributes.directionOfTravel xs ys h
  simp only at hd
  simp only [ControlChannel.serverReply, combineBandwidthConfigurations, ClientMessageV2.direction, hr, hd]

/-! ## Metadata -/

section Metadata

variable {H : Host}

theorem ignores_appliedMode : Ignores (TaggedData.Unknown MetadataAttr.toRepr) (appliedMode H) := by
  refine Ignores.comp (Ignores.foldl fun mode md h => ?_) fun f => f none
  simp [metadataAttr_of_unknown h]

theorem ignores_collect : Ignores (TaggedData.Unknown MetadataAttr.toRepr) Changes.collect := by
  refine Ignores.comp (Ignores.foldlM fun c md h => ?_) fun f => f Changes.empty
  simp [Changes.add, metadataAttr_of_unknown h]

theorem ignores_createOrTruncate (path : Path) (size : UInt64) (filename : Text) :
    Ignores (TaggedData.Unknown MetadataAttr.toRepr) fun xs =>
      (createOrTruncate path ⟨size, filename, xs⟩ : Act H (Except IoError Place)) := by
  intro xs ys h
  simp only [createOrTruncate, ignores_appliedMode xs ys h]

theorem ignores_updateMetadata (file : Place) :
    Ignores (TaggedData.Unknown MetadataAttr.toRepr) fun xs => (updateMetadata file xs : Act H Unit) := by
  intro xs ys h
  simp only [updateMetadata, ignores_collect xs ys h]

theorem ignores_applyAll (path : Path) :
    Ignores (TaggedData.Unknown MetadataAttr.toRepr) fun xs => (SetMetadataHandler.applyAll path xs : Act H Unit) := by
  refine Ignores.of_cons (fun md xs ys h => ?_) fun md xs h => ?_
  · simp only [SetMetadataHandler.applyAll, h]
  · simp only [SetMetadataHandler.applyAll, metadataAttr_of_unknown h]

end Metadata

/-! ## Transfers, from the header and from the trailer on -/

section Transfers

variable {H : Host}

namespace GetHandler

def fromTrailer (file : Place) (size : UInt64) (trailer : FileTrailer) : Act H RequestResult := do
  Act.ofExcept .io (← TokioFile.flush file)
  updateMetadata file trailer.toV2.metadata
  return ⟨size, none⟩

def fromHeader (inner : SessionCommandInner) (job : CopyJobSpec) (header : FileHeader) : Act H RequestResult := do
  let file ← Act.ofExcept .io (← createOrTruncate job.destination.filename header.toV2)
  progressBarFor inner (header.toV2.size.toNat + 17)
  let _ ← Act.ofExcept .io (← copyIn header.toV2.size.toNat file inner.config.ioBufferSize.toNat)
  let trailer ← fromReaderFramed FileTrailer.form
  fromTrailer file header.toV2.size trailer

theorem sendImpl_eq (inner : SessionCommandInner) (job : CopyJobSpec) : (sendImpl inner job : Act H RequestResult) = (do
    toWriterFramed Command.form (command inner job)
    Act.flush
    let _ ← intoResult (← fromReaderFramed Response.form)
    let header ← fromReaderFramed FileHeader.form
    fromHeader inner job header) := rfl

end GetHandler

namespace PutHandler

def fromTrailer (file : Place) (trailer : FileTrailer) : Act H Unit := do
  Act.ofExcept .io (← TokioFile.flush file)
  updateMetadata file trailer.toV2.metadata
  sendOk
  Act.flush

def fromHeader (inner : SessionCommandInner) (filename : Path) (append : Bool) (header : FileHeader) : Act H Unit := do
  let path := if append then Posix.push filename header.toV2.filename else filename
  match ← createOrTruncate path header.toV2 with
  | .error e => errorAndReturn (.io e)
  | .ok file =>
    sendOk
    Act.flush
    match ← copyIn header.toV2.size.toNat file inner.config.ioBufferSize.toNat with
    | .error e => errorAndReturn (.io e)
    | .ok _ =>
      let trailer ← fromReaderFramed FileTrailer.form
      fromTrailer file trailer

theorem handleImpl_eq (inner : SessionCommandInner) (args : Get2Args) : (handleImpl inner args : Act H Unit) = (do
    match ← appendFilename args.filename with
    | none => errorAndReturn (.status .directoryDoesNotExist)
    | some append =>
      let header ← fromReaderFramed FileHeader.form
      fromHeader inner args.filename append header) := rfl

end PutHandler

end Transfers

/-! ## The client, with the server's message -/

/-- A client that has the server's message, to where it has its endpoint. -/
def endpointFrom {H : Host} (E : EngRepr) (P : Platform) (credentials : Credentials) (connectionType : ConnectionType)
    (manager : Manager) (direction : Direction) (compat : Compatibility) (message : ServerMessageV2) :
    Act H Configuration := do
  let config ← Act.ofExcept (fun _ => .other assemblingText) (message.learned E manager)
  let _ ← Act.ofExcept Err.ofFault
    (createEndpoint P credentials message.credentials connectionType config direction.clientMode compat)
  return config

theorem createQuicEndpoint_eq {H : Host} (E : EngRepr) (P : Platform) (credentials : Credentials)
    (connectionType : ConnectionType) (manager : Manager) (remoteDebug remoteConfig : Bool) (direction : Direction) :
    (createQuicEndpoint E P credentials connectionType manager remoteDebug remoteConfig direction : Act H _) = (do
      let (compat, message) ← ControlChannel.runClient E credentials connectionType manager remoteDebug remoteConfig
        direction none
      endpointFrom E P credentials connectionType manager direction compat message) := by
  unfold createQuicEndpoint establishControlChannel
  rw [Task.bind_assoc]
  congr 1
  funext x
  rw [Task.bind_assoc]
  rfl

/-! ## Every receiver -/

/-- **Unknown attributes are ignored**: what follows a message is what follows it without them. -/
structure SessionIgnores (H : Host) : Prop where
  clientMessage : ∀ (E : EngRepr) (P : Platform) (describe : NegotiateError → Text) (generate : Except Text Credentials)
    (compat : Compatibility) (manager : Manager) (m : ClientMessageV2),
    Ignores (TaggedData.Unknown ClientMessage2Attributes.toRepr) fun xs =>
      (ClientMessageV2.showConfig { m with attributes := xs },
        (ControlChannel.serverReply E P describe generate compat manager { m with attributes := xs } :
          Act H Configuration))
  getHeader : ∀ inner job size filename, Ignores (TaggedData.Unknown MetadataAttr.toRepr) fun xs =>
    (GetHandler.fromHeader inner job (.v2 ⟨size, filename, xs⟩) : Act H RequestResult)
  getTrailer : ∀ file size, Ignores (TaggedData.Unknown MetadataAttr.toRepr) fun xs =>
    (GetHandler.fromTrailer file size (.v2 ⟨xs⟩) : Act H RequestResult)
  putHeader : ∀ inner path append size filename, Ignores (TaggedData.Unknown MetadataAttr.toRepr) fun xs =>
    (PutHandler.fromHeader inner path append (.v2 ⟨size, filename, xs⟩) : Act H Unit)
  putTrailer : ∀ file, Ignores (TaggedData.Unknown MetadataAttr.toRepr) fun xs =>
    (PutHandler.fromTrailer file (.v2 ⟨xs⟩) : Act H Unit)
  setMetadata : ∀ inner path options, Ignores (TaggedData.Unknown MetadataAttr.toRepr) fun xs =>
    (commandHandler inner (.setMetadata ⟨path, xs, options⟩) : Act H Unit)
  get2Options : ∀ inner filename, Ignores (TaggedData.Unknown CommandParam.toRepr) fun xs =>
    (commandHandler inner (.get2 ⟨filename, xs⟩) : Act H Unit)
  put2Options : ∀ inner filename, Ignores (TaggedData.Unknown CommandParam.toRepr) fun xs =>
    (commandHandler inner (.put2 ⟨filename, xs⟩) : Act H Unit)
  createDirectoryOptions : ∀ inner dirName, Ignores (TaggedData.Unknown CommandParam.toRepr) fun xs =>
    (commandHandler inner (.createDirectory ⟨dirName, xs⟩) : Act H Unit)
  setMetadataOptions : ∀ inner path metadata, Ignores (TaggedData.Unknown CommandParam.toRepr) fun xs =>
    (commandHandler inner (.setMetadata ⟨path, metadata, xs⟩) : Act H Unit)
  listOptions : ∀ inner path, Ignores (TaggedData.Unknown CommandParam.toRepr) fun xs =>
    (commandHandler inner (.list ⟨path, xs⟩) : Act H Unit)

/-- By a client in the server's message, too. -/
structure UnknownIgnored (H : Host) : Prop extends SessionIgnores H where
  serverMessage : ∀ (E : EngRepr) (P : Platform) (credentials : Credentials) (connectionType : ConnectionType)
    (manager : Manager) (direction : Direction) (compat : Compatibility) (m : ServerMessageV2),
    Ignores (TaggedData.Unknown ServerMessage2Attributes.toRepr) fun xs =>
      (ServerMessageV2.warnings { m with attributes := xs },
        (endpointFrom E P credentials connectionType manager direction compat { m with attributes := xs } :
          Act H Configuration))

/-- **A client refuses a server's message with an unknown attribute**, and names the first. -/
structure ServerMessageRefused (H : Host) (m : ServerMessageV2) (tag : UInt64) : Prop where
  data : m.data = .error (.fused (ServerMessageV2.unknownTagText tag))
  learned : ∀ (E : EngRepr) (manager : Manager), manager.data.isOk = true →
    m.learned E manager = .error (.fused (ServerMessageV2.unknownTagText tag))
  endpoint : ∀ (E : EngRepr) (P : Platform) (credentials : Credentials) (connectionType : ConnectionType)
    (manager : Manager) (direction : Direction) (compat : Compatibility),
    (endpointFrom E P credentials connectionType manager direction compat m : Act H Configuration) =
      Task.fail (.other assemblingText)

section Receivers

variable {H : Host}

theorem sessionIgnores (H : Host) : SessionIgnores H where
  clientMessage E P describe generate compat manager m :=
    Ignores.pair (Ignores.comp (ignores_findTag ClientMessage2Attributes.outputConfig) Option.isSome)
      (ignores_serverReply E P describe generate compat manager m)
  getHeader inner job size filename xs ys h := by
    have hc := ignores_createOrTruncate (H := H) job.destination.filename size filename xs ys h
    simp only at hc
    simp only [GetHandler.fromHeader, FileHeader.toV2, hc]
  getTrailer file size xs ys h := by
    have hu := ignores_updateMetadata (H := H) file xs ys h
    simp only at hu
    simp only [GetHandler.fromTrailer, FileTrailer.toV2, hu]
  putHeader inner path append size filename xs ys h := by
    have hc := ignores_createOrTruncate (H := H) (if append then Posix.push path filename else path)
      size filename xs ys h
    simp only at hc
    simp only [PutHandler.fromHeader, FileHeader.toV2, hc]
  putTrailer file xs ys h := by
    have hu := ignores_updateMetadata (H := H) file xs ys h
    simp only at hu
    simp only [PutHandler.fromTrailer, FileTrailer.toV2, hu]
  setMetadata inner path options xs ys h := by
    have ha := ignores_applyAll (H := H) path xs ys h
    simp only at ha
    simp only [commandHandler, SetMetadataHandler.handleImpl, ha]
  get2Options inner filename xs ys h := by
    have ho := ignores_findOption .preserveMetadata xs ys h
    simp only at ho
    simp only [commandHandler, GetHandler.handleImpl, ho]
  put2Options inner filename xs ys h := rfl
  createDirectoryOptions inner dirName xs ys h := rfl
  setMetadataOptions inner path metadata xs ys h := rfl
  listOptions inner path xs ys h := by
    have ho := ignores_findOption .recurse xs ys h
    simp only at ho
    simp only [commandHandler, ListingHandler.handleImpl, ho]

theorem ignores_warnings (m : ServerMessageV2) : Ignores (TaggedData.Unknown ServerMessage2Attributes.toRepr) fun xs =>
    ServerMessageV2.warnings { m with attributes := xs } :=
  Ignores.filterMap fun attr h => by simp [ServerMessage2Attributes.fromRepr_of_unknown h]

/-- A known attribute is added. -/
theorem addAttribute_of_known {attr : TaggedData} (h : ¬ attr.Unknown ServerMessage2Attributes.toRepr)
    (d : Dict Key Value) : ∃ d', ServerMessageV2.addAttribute d attr = .ok d' := by
  obtain ⟨t, ht⟩ : ∃ t, ServerMessage2Attributes.toRepr t = attr.tag := by
    simpa [TaggedData.Unknown] using h
  unfold ServerMessageV2.addAttribute
  rw [← ht, ServerMessage2Attributes.fromRepr_toRepr]
  cases t <;> exact ⟨_, rfl⟩

theorem foldlM_addAttribute_of_unknown {attr : TaggedData} (h : attr.Unknown ServerMessage2Attributes.toRepr)
    (post : List TaggedData) : ∀ (pre : List TaggedData) (d : Dict Key Value),
      (∀ x ∈ pre, ¬ x.Unknown ServerMessage2Attributes.toRepr) →
      (pre ++ attr :: post).foldlM ServerMessageV2.addAttribute d =
        .error (.fused (ServerMessageV2.unknownTagText attr.tag))
  | [], d, _ => by
    rw [List.nil_append, List.foldlM_cons, ServerMessageV2.addAttribute,
      ServerMessage2Attributes.fromRepr_of_unknown h]
    rfl
  | x :: pre, d, hpre => by
    obtain ⟨d', hd'⟩ := addAttribute_of_known (hpre x List.mem_cons_self) d
    rw [List.cons_append, List.foldlM_cons, hd']
    exact foldlM_addAttribute_of_unknown h post pre d' fun y hy => hpre y (List.mem_cons_of_mem x hy)

theorem serverMessageRefused {m : ServerMessageV2} {pre post : List TaggedData} {attr : TaggedData}
    (hm : m.attributes = pre ++ attr :: post) (h : attr.Unknown ServerMessage2Attributes.toRepr)
    (hpre : ∀ x ∈ pre, ¬ x.Unknown ServerMessage2Attributes.toRepr) : ServerMessageRefused H m attr.tag := by
  have hdata : m.data = .error (.fused (ServerMessageV2.unknownTagText attr.tag)) := by
    unfold ServerMessageV2.data
    rw [hm]
    exact foldlM_addAttribute_of_unknown h post pre _ hpre
  refine ⟨hdata, fun E manager hok => ?_, fun E P credentials ct manager direction compat => ?_⟩
  · obtain ⟨_ | l⟩ := manager
    · cases hok
    · unfold ServerMessageV2.learned ServerMessageV2.mergedInto
      rw [hdata]
      rfl
  · have hlearned : ∃ e, m.learned E manager = .error e := by
      unfold ServerMessageV2.learned ServerMessageV2.mergedInto
      rw [hdata]
      obtain ⟨e | l⟩ := manager
      · exact ⟨e, rfl⟩
      · exact ⟨_, rfl⟩
    obtain ⟨e, he⟩ := hlearned
    unfold endpointFrom
    rw [he]
    rfl

/-- **Unknown attributes are ignored by every receiver but one**: a client relays the server's warnings as ever, and
then refuses its message. -/
theorem unknown_attributes_ignored (H : Host) : SessionIgnores H ∧ ∀ m : ServerMessageV2,
    (Ignores (TaggedData.Unknown ServerMessage2Attributes.toRepr) fun xs =>
      ServerMessageV2.warnings { m with attributes := xs }) ∧
    ∀ pre attr post, m.attributes = pre ++ attr :: post → attr.Unknown ServerMessage2Attributes.toRepr →
      (∀ x ∈ pre, ¬ x.Unknown ServerMessage2Attributes.toRepr) → ServerMessageRefused H m attr.tag :=
  ⟨sessionIgnores H, fun m => ⟨ignores_warnings m, fun _ _ _ hm h hpre => serverMessageRefused hm h hpre⟩⟩

end Receivers

/-- **One unknown attribute, and the server's message is no use.** -/
theorem not_unknownIgnored : ¬ UnknownIgnored anyHost := by
  intro h
  have hnew : TaggedData.Unknown ServerMessage2Attributes.toRepr ⟨99, .empty⟩ := by
    intro t
    cases t <;> decide
  have heq := h.serverMessage EngRepr.decimal clientPlatform clientCredentials .ipv4 bareManager .both (.level 4)
    (statedMessage 12500000) [] [⟨99, .empty⟩] (.insert _ hnew .nil)
  have hrefused : ServerMessageRefused anyHost
      { statedMessage 12500000 with attributes := [] ++ ⟨99, .empty⟩ :: [] } 99 :=
    serverMessageRefused rfl hnew fun _ hx => absurd hx List.not_mem_nil
  have hfail := hrefused.endpoint EngRepr.decimal clientPlatform clientCredentials .ipv4 bareManager .both (.level 4)
  have hprog := congrArg Prod.snd heq
  simp only [List.nil_append] at hprog hfail
  rw [hfail] at hprog
  have hok : (endpointFrom EngRepr.decimal clientPlatform clientCredentials .ipv4 bareManager .both (.level 4)
      { statedMessage 12500000 with attributes := [] } : Act anyHost Configuration) = pure
      (statedConfiguration 12500000) := by rfl
  rw [hok] at hprog
  cases hprog

end Qcp
