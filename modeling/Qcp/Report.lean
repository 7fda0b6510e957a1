import Qcp.Presented
import Qcp.Statistics
/-!
# Report — how a control channel ends

Once the job is done the server reports its statistics, and the client waits for that.  `ServerSide.main` and
`ClientSide.main` are the control channel from its banner to the report.  `Saying` is what a server may have said at any
time; a client that is done has read all of it, so that it knows what it needs of a server that may still be running
(`informed_of_report`).
-/
namespace Qcp

open Bare (Bytes Text Codec Decodes)
open Proc (Pair Steps Task View Local Ok Gives)
open Frame (frame)
open ControlChannel

/-! ## The report as a message -/

/-- A message like the others; what is sent is told by its bytes. -/
def ClosedownReport.form : Form ClosedownReport :=
  ⟨⟨codec, wireEncodingLimit, ServerMessage.form.limit_lt⟩, fun r => .payload (frame (codec.enc r)), fun _ => rfl⟩

theorem ClosedownReportV1.plain_ofStats (stats : ConnectionStats) :
    ∀ t ∈ (ofStats stats).extension, t.Plain := by
  intro t ht
  rcases List.mem_append.1 ht with ht | ht
  · split at ht
    · cases ht
    · cases List.mem_singleton.1 ht
      exact Or.inr ⟨_, rfl⟩
  · split at ht
    · cases ht
    · cases List.mem_singleton.1 ht
      exact Or.inr ⟨_, rfl⟩

theorem ClosedownReportV1.length_extension_ofStats (stats : ConnectionStats) :
    (ofStats stats).extension.length ≤ 2 := by
  unfold ofStats
  simp only [List.length_append]
  split <;> split <;> simp

/-- **A report of statistics is short enough to be sent**, -/
theorem ClosedownReport.fits_ofStats (stats : ConnectionStats) : form.Fits (.v1 (.ofStats stats)) := by
  let r := ClosedownReportV1.ofStats stats
  show (Codec.uint.enc 1 ++ (Codec.uint.enc r.cwnd ++ (Codec.uint.enc r.sentPackets ++ (Codec.uint.enc r.lostPackets ++
    (Codec.uint.enc r.lostBytes ++ (Codec.uint.enc r.congestionEvents ++ (Codec.uint.enc r.blackHoles ++
    (Codec.uint.enc r.sentBytes ++ (Codec.uint.enc (UInt64.ofNat r.extension.length) ++
    r.extension.flatMap TaggedData.codec.enc))))))))).length ≤ 1048576
  simp only [List.length_append]
  have hext := plain_flatMap_length_le r.extension (ClosedownReportV1.plain_ofStats stats)
  have hlen : r.extension.length ≤ 2 := ClosedownReportV1.length_extension_ofStats stats
  have h1 := uint_enc_length_le 1
  have h2 := uint_enc_length_le r.cwnd
  have h3 := uint_enc_length_le r.sentPackets
  have h4 := uint_enc_length_le r.lostPackets
  have h5 := uint_enc_length_le r.lostBytes
  have h6 := uint_enc_length_le r.congestionEvents
  have h7 := uint_enc_length_le r.blackHoles
  have h8 := uint_enc_length_le r.sentBytes
  have h9 := uint_enc_length_le (UInt64.ofNat r.extension.length)
  omega

/-- and reads back. -/
theorem ClosedownReport.readsBack_ofStats (stats : ConnectionStats) : form.ReadsBack (.v1 (.ofStats stats)) := by
  apply Form.readsBack_of_wf
  have hlen : (ClosedownReportV1.ofStats stats).extension.length < 2 ^ 64 :=
    Nat.lt_of_le_of_lt (ClosedownReportV1.length_extension_ofStats stats) (by decide)
  exact ⟨trivial, trivial, trivial, trivial, trivial, trivial, trivial, hlen,
    fun t ht => (ClosedownReportV1.plain_ofStats stats t ht).wf⟩

/-! ## Both sides to the end -/

/-- What has come of a server's wait for a connection. -/
inductive Incoming where
  | timedOut
  | endpointClosed
  | failed (reason : Text)
  | completed (stats : ConnectionStats)

/-- The statistics a server is left with, unless it has waited in vain. -/
def Incoming.stats : Incoming → Option ConnectionStats
  | timedOut => none
  | endpointClosed | failed _ => some .default
  | completed stats => some stats

def sendClosedownReport {H : Host} (stats : ConnectionStats) : Act H Unit :=
  ControlChannel.send ClosedownReport.form (.v1 (.ofStats stats))

def readClosedownReport {G : Host} : Act G ClosedownReportV1 := do
  match ← fromReaderFramed ClosedownReport.form with
  | .v1 stats => return stats
  | .unknown => Task.fail (.other "server sent unknown ClosedownReport message type".toList)

/-- The server: what happens on its endpoint comes between the two halves of its control channel. -/
def ServerSide.main (H : Host) (E : EngRepr) (c : ServerSide) (incoming : Compatibility → Configuration → Incoming) :
    Act H Unit := do
  let (compat, config) ← c.run H E
  match (incoming compat config).stats with
  | none => Task.fail (.other "Timed out waiting for QUIC connection".toList)
  | some stats => sendClosedownReport stats

/-- The client: the transfer comes between the two halves of its control channel. -/
def ClientSide.main (G : Host) (E : EngRepr) (c : ClientSide)
    (transfer : Configuration × Compatibility × ServerMessageV2 → Except Text Unit) :
    Act G ((Configuration × Compatibility × ServerMessageV2) × ClosedownReportV1) := do
  let r ← c.run G E
  Act.ofExcept .other (transfer r)
  let report ← readClosedownReport
  return (r, report)

/-! ## What a server has said -/

/-- What a server answers, and what it has read before. -/
structure Replying (E : EngRepr) (server : ServerSide) (compat : Compatibility) (config : Configuration)
    (m : ClientMessage) (sm : ServerMessage) (taken : Bytes) : Prop where
  answers : ∃ m2, m.toV2 = some m2 ∧ serverRespond E server.platform server.describe
    server.generate compat server.manager m2 = .answer config sm
  fits : ServerMessage.form.Fits sm
  taken : ∃ gb mb g, taken = frame gb ++ frame mb ∧ ClientGreeting.form.Reads gb g ∧ ClientMessage.form.Reads mb m ∧
    compat = processCompatibilityLevels g.compatibility

def ServerSide.opened (server : ServerSide) : List Msg := [.banner bannerText, .serverGreeting server.greeting]

/-- **What a server may have said**, at any time. -/
inductive Saying {H : Host} (E : EngRepr) (server : ServerSide) (incoming : Compatibility → Configuration → Incoming)
    (v : View H.sig) : Prop where
  | opening (h : v.tried <+: server.opened)
  | refusing (f : ServerFailure) (hf : ServerMessage.form.Fits (.failure f))
      (h : v.tried = server.opened ++ [.serverMessage (.failure f)])
  | answering (compat : Compatibility) (config : Configuration) (m : ClientMessage) (sm : ServerMessage)
      (ha : Replying E server compat config m sm v.taken) (h : v.tried = server.opened ++ [.serverMessage sm])
  | reporting (compat : Compatibility) (config : Configuration) (m : ClientMessage) (sm : ServerMessage)
      (stats : ConnectionStats) (ha : Replying E server compat config m sm v.taken)
      (hs : (incoming compat config).stats = some stats)
      (h : v.tried = server.opened ++ [.serverMessage sm, ClosedownReport.form.msg (.v1 (.ofStats stats))])

section Server

variable {H : Host} {E : EngRepr} {server : ServerSide} {incoming : Compatibility → Configuration → Incoming} {α : Type}
  {v : View H.sig}

theorem Ok.refusing {Q : α → View H.sig → Prop} (h : v.tried = server.opened) (f : ServerFailure) (e : Err) :
    Ok (Saying E server incoming) Q (do sendError f; Task.fail e : Act H α) v := by
  have hi : Saying E server incoming v := .opening (h ▸ List.prefix_refl _)
  have hi' : ServerMessage.form.Fits (.failure f) → ∀ sent,
      Saying E server incoming { v with tried := v.tried ++ [.serverMessage (.failure f)], sent := sent } :=
    fun hf sent => .refusing f hf (congrArg (· ++ _) h)
  exact Ok.then (Ok.then (Ok.writer hi hi' fun hf => Ok.flushed (hi' hf _) (Ok.fail (hi' hf _))))

/-- A server that has read a message replies to it. -/
theorem Ok.replying {gb mb : Bytes} {g : ClientGreeting} {m : ClientMessage} (hgb : ClientGreeting.form.Reads gb g)
    (hmb : ClientMessage.form.Reads mb m) (h : v.tried = server.opened) (htaken : v.taken = frame gb ++ frame mb)
    (m2 : ClientMessageV2) (hm : m.toV2 = some m2) :
    Ok (Saying E server incoming) (fun config v' => ∃ m sm,
        Replying E server (processCompatibilityLevels g.compatibility) config m sm v'.taken ∧
          v'.tried = server.opened ++ [.serverMessage sm])
      (serverReply E server.platform server.describe server.generate
        (processCompatibilityLevels g.compatibility) server.manager m2 : Act H _) v := by
  have hi : Saying E server incoming v := .opening (h ▸ List.prefix_refl _)
  rw [serverReply_eq]
  cases hr : serverRespond E server.platform server.describe server.generate
      (processCompatibilityLevels g.compatibility) server.manager m2 with
  | refuse f => exact Ok.refusing h _ _
  | abort e => exact Ok.fail hi
  | panic t => exact Ok.fail hi
  | answer config sm =>
    have ha : ServerMessage.form.Fits sm →
        Replying E server (processCompatibilityLevels g.compatibility) config m sm v.taken := fun hf =>
      ⟨⟨m2, hm, hr⟩, hf, gb, mb, g, htaken, hgb, hmb, rfl⟩
    have hi' : ServerMessage.form.Fits sm → ∀ sent, Saying E server incoming
        { v with tried := v.tried ++ [.serverMessage sm], sent := sent } := fun hf sent =>
      .answering _ config m sm (ha hf) (congrArg (· ++ _) h)
    apply Ok.then
    apply Ok.then
    refine Ok.then (Ok.writer hi hi' fun hf => Ok.flushed (hi' hf _) (Ok.flushed (hi' hf _) ?_))
    exact Ok.pure (hi' hf _) ⟨m, sm, ha hf, congrArg (· ++ _) h⟩

/-- A server that has greeted waits for the message. -/
theorem Ok.attending {gb : Bytes} {g : ClientGreeting} (hgb : ClientGreeting.form.Reads gb g)
    (h : v.tried = server.opened) (htaken : v.taken = frame gb) :
    Ok (Saying E server incoming) (fun config v' => ∃ m sm,
        Replying E server (processCompatibilityLevels g.compatibility) config m sm v'.taken ∧
          v'.tried = server.opened ++ [.serverMessage sm])
      (runServerInner E server.platform server.describe server.generate
        (processCompatibilityLevels g.compatibility) server.manager : Act H _) v := by
  have hi : ∀ v : View H.sig, v.tried = server.opened → Saying E server incoming v := fun v h =>
    .opening (h ▸ List.prefix_refl _)
  apply Ok.then
  apply Ok.then
  -- while the message is read, nothing is said
  refine Ok.attempt (J := fun v => v.tried = server.opened) (Q := fun m v => v.tried = server.opened ∧ ∃ mb,
      v.taken = frame gb ++ frame mb ∧ ClientMessage.form.Reads mb m) ?_ hi ?_ ?_
  · apply Ok.reader (fun _ _ => h) (fun _ _ _ _ _ => h)
    intro mb m _ hml hmd
    exact ⟨h, mb, congrArg (· ++ _) htaken, hml, hmd⟩
  · intro m v' _ hread
    obtain ⟨htried, mb, htaken', hmb⟩ := hread
    cases m with
    | toFollow => exact Ok.refusing htried _ _
    | v1 m => exact Ok.pure (hi _ htried) (Ok.replying hgb hmb htried htaken' _ rfl)
    | v2 m => exact Ok.pure (hi _ htried) (Ok.replying hgb hmb htried htaken' _ rfl)
  · intro e v' hj
    exact Ok.refusing hj _ _

/-- **Whatever its client says**, a server says no more than that. -/
theorem Ok.saying (server : ServerSide) (incoming : Compatibility → Configuration → Incoming) (w : World) :
    Ok (Saying E server incoming) (fun _ _ => True) (server.main H E incoming) (View.init w) := by
  have h0 : ∀ v : View H.sig, v.tried = [] → Saying E server incoming v := fun v h => .opening (h ▸ List.nil_prefix)
  have h1 : ∀ v : View H.sig, v.tried = [.banner bannerText] → Saying E server incoming v := fun v h =>
    .opening (h ▸ ⟨[_], rfl⟩)
  have h2 : ∀ v : View H.sig, v.tried = server.opened → Saying E server incoming v := fun v h =>
    .opening (h ▸ List.prefix_refl _)
  apply Ok.then
  apply Ok.then
  refine Ok.send (h0 _ rfl) (h1 _ rfl) ?_ (h1 _ rfl) fun f => Ok.then (Ok.ofExcept (h1 _ rfl) nofun)
  apply Ok.then
  apply Ok.ofExcept (h1 _ rfl)
  intro _ _
  apply Ok.then
  apply Ok.then
  apply Ok.channelSend (h1 _ rfl) (fun _ => h2 _ rfl)
  apply Ok.then
  apply Ok.reader (fun _ _ => h2 _ rfl) (fun _ _ _ _ _ => h2 _ rfl)
  intro gb g _ hgl hgd
  apply Ok.pure (h2 _ rfl)
  apply Ok.then
  apply Ok.ofExcept (h2 _ rfl)
  intro _ _
  apply Ok.then
  refine (Ok.attending ⟨hgl, hgd⟩ rfl rfl).mono (fun _ h => h) fun config v hi hv => Ok.pure hi ?_
  obtain ⟨m, sm, ha, htried⟩ := hv
  simp only
  cases hs : (incoming (processCompatibilityLevels g.compatibility) config).stats with
  | none => exact Ok.fail hi
  | some stats =>
    refine Ok.channelSend hi (fun sent => ?_) trivial
    exact .reporting _ config m sm stats ha hs (by rw [htried, List.append_assoc]; rfl)

end Server

/-! ## What a client has read -/

/-- A client that goes by its server's message, and what it has read behind that. -/
structure Listened {G : Host} (E : EngRepr) (client : ClientSide) (r : Configuration × Compatibility × ServerMessageV2)
    (m : ClientMessage) (sm : ServerMessage) (behind : Bytes) (v : View G.sig) : Prop where
  message : clientMessage r.2.1 client.credentials client.connectionType client.remoteConfig
    (client.manager.preferences E) client.direction = .ok m
  fits : ClientMessage.form.Fits m
  tried : v.tried = [.clientGreeting client.greeting, .clientMessage m]
  taken : ∃ bs gb mb g, v.taken = bs ++ (frame gb ++ (frame mb ++ behind)) ∧ bs.length = bannerLen ∧
    ServerGreeting.form.Reads gb g ∧ ServerMessage.form.Reads mb sm ∧ r.2.1 = processCompatibilityLevels g.compatibility
  learned : sm.toV2 = some r.2.2 ∧ r.2.2.learned E client.manager = .ok r.1

section Client

variable {G : Host} {E : EngRepr}

theorem Ok.listened (client : ClientSide) (w : World) :
    Ok (fun _ => True) (fun r v => ∃ m sm, Listened E client r m sm [] v) (client.run G E) (View.init w) := by
  apply Ok.then
  apply Ok.ofExcept trivial
  intro _ _
  apply Ok.then
  apply Ok.then
  apply Ok.waitForBanner (fun _ _ => trivial)
  intro bs hbs
  apply Ok.then
  apply Ok.then
  apply Ok.channelSends
  intro _
  apply Ok.then
  apply Ok.reader (fun _ _ => trivial) (fun _ _ _ _ _ => trivial)
  intro gb g _ hgl hgd
  apply Ok.pure trivial
  apply Ok.then
  rw [clientSendMessage_eq]
  cases hm : clientMessage (processCompatibilityLevels g.compatibility) client.credentials client.connectionType
    client.remoteConfig (client.manager.preferences E) client.direction with
  | error e => exact Ok.fail trivial
  | ok m =>
    apply Ok.channelSends
    intro hf
    apply Ok.then
    apply Ok.then
    apply Ok.reader (fun _ _ => trivial) (fun _ _ _ _ _ => trivial)
    intro mb sm _ hml hmd
    have heard : ∀ m2 config (v : View G.sig), sm.toV2 = some m2 →
        v.tried = [.clientGreeting client.greeting, .clientMessage m] → v.taken = bs ++ frame gb ++ frame mb →
        m2.learned E client.manager = .ok config →
        Listened E client (config, processCompatibilityLevels g.compatibility, m2) m sm [] v := by
      intro m2 config v hm2 htried htaken hconfig
      refine ⟨hm, hf, htried, ⟨bs, gb, mb, g, ?_, hbs, ⟨hgl, hgd⟩, ⟨hml, hmd⟩, rfl⟩, hm2, hconfig⟩
      rw [htaken, List.append_nil, List.append_assoc]
    cases sm with
    | toFollow => exact Ok.fail trivial
    | failure f => exact Ok.fail trivial
    | v1 sm =>
      refine Ok.pure trivial (Ok.pure trivial (Ok.then (Ok.ofExcept trivial fun config hconfig => ?_)))
      exact Ok.pure trivial ⟨m, .v1 sm, heard _ _ _ rfl rfl rfl hconfig⟩
    | v2 sm =>
      refine Ok.pure trivial (Ok.pure trivial (Ok.then (Ok.ofExcept trivial fun config hconfig => ?_)))
      exact Ok.pure trivial ⟨m, .v2 sm, heard _ _ _ rfl rfl rfl hconfig⟩

/-- A client that is done has its server's report. -/
theorem Ok.finished (client : ClientSide)
    (transfer : Configuration × Compatibility × ServerMessageV2 → Except Text Unit) (w : World) :
    Ok (fun _ => True) (fun r v => ∃ m sm rb, Listened E client r.1 m sm (frame rb) v ∧
      ClosedownReport.form.Reads rb (.v1 r.2)) (client.main G E transfer) (View.init w) := by
  apply Ok.then
  refine (Ok.listened client w).mono (fun _ h => h) fun r v _ hv => ?_
  obtain ⟨m, sm, hheard⟩ := hv
  apply Ok.then
  apply Ok.ofExcept trivial
  intro _ _
  apply Ok.then
  apply Ok.then
  apply Ok.reader (fun _ _ => trivial) (fun _ _ _ _ _ => trivial)
  intro rb report _ hrl hrd
  cases report with
  | unknown => exact Ok.fail trivial
  | v1 report =>
    obtain ⟨bs, gb, mb, g, htaken, hrest⟩ := hheard.taken
    refine Ok.pure trivial (Ok.pure trivial ⟨m, sm, rb, ⟨hheard.message, hheard.fits, hheard.tried, ?_, hheard.learned⟩,
      hrl, hrd⟩)
    refine ⟨bs, gb, mb, g, ?_, hrest⟩
    show v.taken ++ frame rb = _
    rw [htaken]
    simp only [List.append_assoc, List.nil_append]

end Client

/-! ## What a client knows -/

theorem ServerFailure.readsBack_of_fits (f : ServerFailure) (h : ServerMessage.form.Fits (.failure f)) :
    ServerMessage.form.ReadsBack (.failure f) := by
  have hl : (Codec.uint.enc f.tag ++ f.body).length < 2 ^ 64 := body_length h.lt
  rw [List.length_append] at hl
  apply Form.readsBack_of_wf
  cases f with
  | malformed => exact trivial
  | negotiationFailed t => exact text_wf_of_length t (Nat.lt_of_le_of_lt (Nat.le_add_left _ _) hl)
  | endpointFailed t => exact text_wf_of_length t (Nat.lt_of_le_of_lt (Nat.le_add_left _ _) hl)
  | unknown t => exact text_wf_of_length t (Nat.lt_of_le_of_lt (Nat.le_add_left _ _) hl)

/-- **What a client that is done knows of its server**: the level of either side, what the server settled on for the
very message it was sent, and the statistics it was left with. -/
def Informed (E : EngRepr) (client : ClientSide) (server : ServerSide)
    (incoming : Compatibility → Configuration → Incoming) (r : Configuration × Compatibility × ServerMessageV2)
    (report : ClosedownReportV1) : Prop :=
  ∃ m m2 sm config stats,
    clientMessage (processCompatibilityLevels (advertised server.forceCompat)) client.credentials client.connectionType
      client.remoteConfig (client.manager.preferences E) client.direction = .ok m ∧ m.toV2 = some m2 ∧
    serverRespond E server.platform server.describe server.generate
      (processCompatibilityLevels (advertised client.forceCompat)) server.manager m2 = .answer config sm ∧
    sm.toV2 = some r.2.2 ∧ r.2.2.learned E client.manager = .ok r.1 ∧
    r.2.1 = processCompatibilityLevels (advertised server.forceCompat) ∧
    (incoming (processCompatibilityLevels (advertised client.forceCompat)) config).stats = some stats ∧
    report = .ofStats stats

section Informed

variable {G H : Host} {E : EngRepr} {client : ClientSide} {server : ServerSide}
  {incoming : Compatibility → Configuration → Incoming} {r : Configuration × Compatibility × ServerMessageV2}
  {report : ClosedownReportV1} {m : ClientMessage} {sm : ServerMessage} {rb : Bytes} {v : View G.sig} {w : View H.sig}

/-- Behind the banner and the greeting a client has read what its server said next. -/
theorem Listened.behind_opening {behind : Bytes} (h : Listened E client r m sm behind v) (msgs : List Msg)
    (hl : v.taken <+: (server.opened ++ msgs).flatMap Msg.enc) : ∃ mb, ServerMessage.form.Reads mb sm ∧
      r.2.1 = processCompatibilityLevels (advertised server.forceCompat) ∧
      frame mb ++ behind <+: msgs.flatMap Msg.enc := by
  obtain ⟨bs, gb, mb, g, htaken, hbs, hg, hmb, hlevel⟩ := h.taken
  rw [htaken, List.flatMap_append, ServerSide.opened, List.flatMap_cons, List.append_assoc] at hl
  -- the banner is as long as what was read in its place
  obtain ⟨rest, hrest⟩ := hl
  rw [List.append_assoc] at hrest
  obtain ⟨-, hl⟩ := List.append_inj hrest hbs
  have hl' : frame gb ++ (frame mb ++ behind) <+:
      (Msg.serverGreeting server.greeting).enc ++ msgs.flatMap Msg.enc := ⟨rest, by rw [hl]; simp⟩
  obtain ⟨rfl, -, hrest⟩ := hg.of_sent (ServerGreeting.fits _) (ServerGreeting.readsBack _) hl'
  exact ⟨mb, hmb, hlevel, hrest⟩

/-- The server has read what this client said. -/
theorem Replying.of_listened {behind : Bytes} {compat : Compatibility} {config : Configuration} {m' : ClientMessage}
    {sm' : ServerMessage} {taken : Bytes} (ha : Replying E server compat config m' sm' taken)
    (h : Listened E client r m sm behind v) (hr : taken <+: v.tried.flatMap Msg.enc) :
    m' = m ∧ compat = processCompatibilityLevels (advertised client.forceCompat) := by
  obtain ⟨gb, mb, g, htaken, hg, hmb, hlevel⟩ := ha.taken
  rw [htaken, h.tried, List.flatMap_cons, List.flatMap_cons, List.flatMap_nil] at hr
  obtain ⟨rfl, -, hrest⟩ := hg.of_sent (ClientGreeting.fits _) (ClientGreeting.readsBack _) hr
  rw [← List.append_nil (frame mb)] at hrest
  exact ⟨(hmb.of_sent h.fits (clientMessage_readsBack h.message h.fits) hrest).1, hlevel⟩

theorem informed_of_saying (h : Listened E client r m sm (frame rb) v)
    (hrb : ClosedownReport.form.Reads rb (.v1 report))
    (hs : Saying E server incoming w) (hl : v.taken <+: w.tried.flatMap Msg.enc)
    (hr : w.taken <+: v.tried.flatMap Msg.enc) : Informed E client server incoming r report := by
  have hread := h.learned.1
  cases hs with
  | opening ht =>
    -- it has not even answered
    obtain ⟨mb, -, -, hp⟩ := h.behind_opening [] (hl.trans (by rw [List.append_nil]; exact ht.flatMap _))
    exact absurd hp (Frame.not_frame_prefix_nil _ _)
  | refusing f hf ht =>
    rw [ht] at hl
    obtain ⟨mb, hmb, -, hp⟩ := h.behind_opening _ hl
    rw [List.flatMap_cons, List.flatMap_nil] at hp
    obtain ⟨rfl, -, -⟩ := hmb.of_sent hf (f.readsBack_of_fits hf) hp
    cases hread
  | answering compat config m' sm' ha ht =>
    rw [ht] at hl
    obtain ⟨mb, hmb, -, hp⟩ := h.behind_opening _ hl
    obtain ⟨_, -, hanswer⟩ := ha.answers
    obtain ⟨-, _, _, _, -, -, hmessage⟩ := parts_of_answer hanswer
    rw [List.flatMap_cons, List.flatMap_nil] at hp
    obtain ⟨-, -, hrest⟩ := hmb.of_sent ha.fits (serverMessage_readsBack hmessage ha.fits) hp
    rw [← List.append_nil (frame rb)] at hrest
    exact absurd hrest (Frame.not_frame_prefix_nil _ _)
  | reporting compat config m' sm' stats ha hstats ht =>
    rw [ht] at hl
    obtain ⟨mb, hmb, hlevel, hp⟩ := h.behind_opening _ hl
    obtain ⟨rfl, rfl⟩ := ha.of_listened h hr
    obtain ⟨m2, hm2, hanswer⟩ := ha.answers
    obtain ⟨-, _, _, _, -, -, hmessage⟩ := parts_of_answer hanswer
    rw [List.flatMap_cons, List.flatMap_cons, List.flatMap_nil] at hp
    obtain ⟨rfl, -, hrest⟩ := hmb.of_sent ha.fits (serverMessage_readsBack hmessage ha.fits) hp
    rw [← List.append_nil (frame rb)] at hrest
    obtain ⟨hreport, -, -⟩ :=
      hrb.of_sent (ClosedownReport.fits_ofStats stats) (ClosedownReport.readsBack_ofStats stats) hrest
    cases hreport
    have hmessage := h.message
    rw [hlevel] at hmessage
    exact ⟨m', m2, sm, config, stats, hmessage, hm2, hanswer, hread, h.learned.2, hlevel, hstats, rfl⟩

end Informed

/-- **A client that is done is informed**, in every run and however far its server has come meanwhile. -/
theorem informed_of_report (G H : Host) (E : EngRepr) (client : ClientSide) (server : ServerSide)
    (transfer : Configuration × Compatibility × ServerMessageV2 → Except Text Unit)
    (incoming : Compatibility → Configuration → Incoming) (v w : World)
    (x : Pair G.sig H.sig (Except Err ((Configuration × Compatibility × ServerMessageV2) × ClosedownReportV1))
      (Except Err Unit)) (hx : Pair.Reach (client.main G E transfer) (server.main H E incoming) v w x)
    (r : Configuration × Compatibility × ServerMessageV2) (report : ClosedownReportV1)
    (hr : x.1.1 = .ret (.ok (r, report))) :
    Informed E client server incoming r report := by
  obtain ⟨⟨p, s⟩, d⟩ := x
  simp only at hr
  subst hr
  obtain ⟨h1, h2, -, -⟩ := Pair.reach hx
  obtain ⟨m, sm, rb, hheard, hrb⟩ := (Ok.finished client transfer v).run_ok h1
  exact informed_of_saying hheard hrb ((Ok.saying server incoming w).run h2) (Pair.taken_left hx) (Pair.taken_right hx)

/-- A run of the first of two tasks. -/
theorem Steps.first {S : Proc.Sig} {E A B : Type} {p p' : Task S E A} {s s' : Local S} (f : A → Task S E B)
    (h : Steps (p, s) (p', s')) : Steps ((p >>= f : Task S E B), s) ((p' >>= f : Task S E B), s') := Steps.bind _ h

/-- Both sides can come to the end. -/
theorem exists_reported {G H : Host} {E : EngRepr} {client : ClientSide} {server : ServerSide} {m : ClientMessage}
    {sm : ServerMessage} {r : Configuration × Compatibility × ServerMessageV2} {r' : Compatibility × Configuration}
    (h : ComeOff E client server m sm r r') (stats : ConnectionStats) (v w : World) :
    ∃ x, Pair.Reach (client.main G E fun _ => .ok ()) (server.main H E fun _ _ => .completed stats) v w x ∧
      x.1.1 = .ret (.ok (r, .ofStats stats)) ∧ x.2.1 = .ret (.ok ()) := by
  let report : ClosedownReport := .v1 (.ofStats stats)
  let next : Configuration × Compatibility × ServerMessageV2 → Act G _ := fun r => do
    Act.ofExcept .other ((fun _ => .ok () : _ → Except Text Unit) r)
    let report ← readClosedownReport
    return (r, report)
  let last : Compatibility × Configuration → Act H Unit := fun _ => sendClosedownReport stats
  -- the client greets and asks, and in the end learns and reads
  have asks : Steps (client.main G E fun _ => .ok (), Local.init v)
      ((client.learn G E r.2.1 >>= next : Act G _), client.asked G server.greeting m v) := Steps.first next (h.asks v)
  have reads : Gives (client.learn G E r.2.1 >>= next : Act G _) (client.asked G server.greeting m v)
      (r, .ofStats stats) (hear ClosedownReport.form report (hear ServerMessage.form sm
        (client.asked G server.greeting m v))) := by
    apply Gives.then (h.learns v)
    apply Gives.then (Gives.pure () _)
    have hread : Gives (readClosedownReport : Act G _) (hear ServerMessage.form sm (client.asked G server.greeting m v))
        (.ofStats stats) _ := Gives.then (Gives.reader (ClosedownReport.fits_ofStats stats)
          (ClosedownReport.readsBack_ofStats stats) rfl) (Gives.pure _ _)
    exact Gives.then hread (Gives.pure _ _)
  -- the server greets, and in the end answers and reports
  have greets : Steps (server.main H E fun _ _ => .completed stats, Local.init w)
      ((server.attend H E >>= last : Act H _), server.greeted H w) := Steps.first last (server.greets w)
  have reports : Gives (server.attend H E >>= last : Act H _) (server.greeted H w) ()
      (((hear ClientMessage.form m (hear ClientGreeting.form client.greeting (server.greeted H w))).push
        (.sent (.serverMessage sm))).push (.sent (ClosedownReport.form.msg report))) :=
    Gives.then (h.attended w) (Gives.channelSend (ClosedownReport.fits_ofStats stats) rfl)
  refine ⟨_, (((Pair.Reach.right .refl greets ?_).left asks ?_).right reports ?_).left reads ?_, rfl, rfl⟩
  · exact List.nil_prefix
  · simp only [ClientSide.asked, ServerSide.greeted, taken_hear, Local.taken_push, Local.taken_init, taken_hearBanner,
      Local.out_push, Local.out_init, Proc.Event.read, Proc.Event.wrote, List.nil_append, List.append_nil]
    exact List.prefix_refl _
  · simp only [ClientSide.asked, ServerSide.greeted, taken_hear, out_hear, Local.taken_push, Local.taken_init,
      Local.out_push, out_hearBanner, Local.out_init, Proc.Event.read, Proc.Event.wrote, List.nil_append,
      List.append_nil]
    exact List.prefix_refl _
  · simp only [ClientSide.asked, ServerSide.greeted, taken_hear, out_hear, Local.taken_push, taken_hearBanner,
      Local.taken_init, Local.out_push, Local.out_init, Proc.Event.read, Proc.Event.wrote, List.nil_append,
      List.append_nil]
    exact List.prefix_refl _

theorem informed_of_report_keyClient : ∃ r, Informed EngRepr.decimal keyClient certificateServer
    (fun _ _ => .completed .default) r (.ofStats .default) := by
  obtain ⟨m, m2, config, sm, sm2, final, h1, h2, h3, h4, h5, h6, h7, -⟩ := keyClient_says
  have h : ComeOff EngRepr.decimal keyClient certificateServer m sm (final, .level 4, sm2) (.level 4, config) :=
    ⟨rfl, rfl, rfl, h1, h2, rfl, ⟨m2, h3, h4⟩, h5, h6, h7⟩
  obtain ⟨x, hx, hr, -⟩ := exists_reported (G := anyHost) (H := anyHost) h .default (fun _ => none) (fun _ => none)
  exact ⟨_, informed_of_report anyHost anyHost EngRepr.decimal keyClient certificateServer _ _ _ _ x hx _ _ hr⟩

end Qcp
