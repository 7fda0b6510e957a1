import Qcp.Checked
import Qcp.Closedown
import Qcp.Config
import Qcp.Phases
/-!
# Statistics — what a client says of a connection when it is closed

`processStatistics` puts the counters of the two ends together.  Its integers are machine integers, so a sum or a
difference that leaves its width has no result (`none`); the percentages and the rates beside them are floating point
and left out.  `processStatistics_sound_iff` says for which counters there is a result, and that a bandwidth it suggests
is never below the configured one.
-/
namespace Qcp

open Bare (Text)

/-! ## The counters of a connection -/

/-- A span of time in seconds and nanoseconds. -/
structure Duration where
  secs : UInt64
  subsecNanos : UInt32
  subsec : subsecNanos.toNat < 1000000000

namespace Duration

def zero : Duration := ⟨0, 0, by decide⟩

def asMillis (d : Duration) : Nat := d.secs.toNat * 1000 + d.subsecNanos.toNat / 1000000

def asNanos (d : Duration) : Nat := d.secs.toNat * 1000000000 + d.subsecNanos.toNat

def asMicros (d : Duration) : Nat := d.secs.toNat * 1000000 + d.subsecNanos.toNat / 1000

def fromMillis (ms : UInt16) : Duration where
  secs := ms.toUInt64 / 1000
  subsecNanos := ms.toUInt32 % 1000 * 1000000
  subsec := by
    have hm : (ms.toUInt32 % 1000).toNat < 1000 := by
      rw [UInt32.toNat_mod]
      exact Nat.mod_lt _ (by decide)
    have h6 : (1000000 : UInt32).toNat = 1000000 := rfl
    have hle := Nat.mod_le ((ms.toUInt32 % 1000).toNat * 1000000) (2 ^ 32)
    rw [UInt32.toNat_mul, h6]
    omega

theorem asMillis_lt (d : Duration) : d.asMillis + 1 < 2 ^ 128 := by
  have := d.secs.toNat_lt
  have := d.subsec
  unfold asMillis
  omega

end Duration

structure PathStats where
  rtt : Duration
  cwnd : UInt64
  congestionEvents : UInt64
  lostPackets : UInt64
  lostBytes : UInt64
  sentPackets : UInt64
  blackHolesDetected : UInt64
  currentMtu : UInt16

structure FrameStats where
  dataBlocked : UInt64
  streamDataBlocked : UInt64

structure UdpStats where
  datagrams : UInt64
  bytes : UInt64

structure ConnectionStats where
  udpTx : UdpStats
  udpRx : UdpStats
  frameTx : FrameStats
  frameRx : FrameStats
  path : PathStats

def ConnectionStats.default : ConnectionStats :=
  ⟨⟨0, 0⟩, ⟨0, 0⟩, ⟨0, 0⟩, ⟨0, 0⟩, ⟨Duration.zero, 0, 0, 0, 0, 0, 0, 0⟩⟩

inductive ClosedownReportExtension where
  | invalid
  | pmtu
  | rtt

def ClosedownReportExtension.toRepr : ClosedownReportExtension → UInt64
  | invalid => 0
  | pmtu => 1
  | rtt => 2

/-- The report a server makes of its connection. -/
def ClosedownReportV1.ofStats (stats : ConnectionStats) : ClosedownReportV1 :=
  let rtt := UInt64.ofNat ((Checked.fit 64 stats.path.rtt.asMicros).getD (2 ^ 64 - 1))
  { cwnd := stats.path.cwnd
    sentPackets := stats.path.sentPackets
    lostPackets := stats.path.lostPackets
    lostBytes := stats.path.lostBytes
    congestionEvents := stats.path.congestionEvents
    blackHoles := stats.path.blackHolesDetected
    sentBytes := stats.udpTx.bytes
    «extension» :=
      (if rtt = 0 then [] else [⟨ClosedownReportExtension.rtt.toRepr, .unsigned rtt⟩]) ++
      (if stats.path.currentMtu = 0 then []
        else [⟨ClosedownReportExtension.pmtu.toRepr, .unsigned stats.path.currentMtu.toUInt64⟩]) }

/-! ## What is said -/

/-- A bandwidth to try next time. -/
structure Suggestion where
  blocked : Option FrameStats
  rtt : Duration
  cwnd : UInt64
  flag : Text
  suggested : Nat
  current : UInt64

/-- One line of the report, by the numbers it is made from; rates and sizes are shown rounded. -/
inductive Notice where
  | transferred (payload : UInt64) (time : Option Duration) (measuredPeak : UInt64)
  | packetsSent (byUs byRemote : UInt64)
  | congestion (events : Nat)
  | lostPackets (lost sent bytes : UInt64)
  | remoteLostPackets (lost sent bytes : UInt64)
  | path (pmtu : UInt16) (remotePmtu : Option Variant) (rtt : Duration) (remoteMicros : Option UInt64) (cwnd : UInt64)
  | datagrams (sent received : UInt64) (blackHoles : Nat)
  | overhead (sent payload : UInt64) (extra : Nat)
  | slowPath (measured : Duration) (configured : UInt16) (next : Nat)
  | tuning (suggestion : Suggestion)

/-- The rate configured for the direction of the bulk data. -/
def Configuration.rate (config : Configuration) : Direction → UInt64
  | .both => 0
  | .clientToServer => config.getTx
  | .serverToClient => config.getRx

def bandwidthFlag : Direction → Option Text
  | .both => none
  | .clientToServer => some "--tx".toList
  | .serverToClient => some "--rx".toList

section Report

variable (stats : ConnectionStats) (commandStats : CommandStats) (transportTime : Option Duration)
  (remote : ClosedownReportV1) (config : Configuration)

def advancedStatistics : Option (List Notice) := do
  let senderSentBytes := max stats.udpTx.bytes remote.sentBytes
  let remoteMicros := match findTag remote.extension ClosedownReportExtension.rtt.toRepr with
    | some (.unsigned v) => some v
    | _ => none
  let blackHoles ← Checked.add 64 stats.path.blackHolesDetected.toNat remote.blackHoles.toNat
  let lines := [.path stats.path.currentMtu (findTag remote.extension ClosedownReportExtension.pmtu.toRepr)
    stats.path.rtt remoteMicros (max stats.path.cwnd remote.cwnd),
    .datagrams stats.udpTx.datagrams stats.udpRx.datagrams blackHoles]
  if commandStats.payloadBytes = 0 then return lines
  let extra ← Checked.sub senderSentBytes.toNat commandStats.payloadBytes.toNat
  return lines ++ [.overhead senderSentBytes commandStats.payloadBytes extra]

/-- Warns when the round trip is a tenth longer than configured. -/
def checkRtt : Option (List Notice) := do
  let scaled ← Checked.mul 32 config.rtt.toNat 110
  let limit ← Checked.div scaled 100
  -- the milliseconds are cut to 32 bits
  if limit < stats.path.rtt.asMillis % 2 ^ 32 then
    let next ← Checked.add 128 stats.path.rtt.asMillis 1
    return [.slowPath stats.path.rtt config.rtt next]
  return []

/-- The measured round trip in milliseconds, or else the configured one. -/
def roundTripMillis : Nat :=
  let measured := (Checked.fit 64 stats.path.rtt.asMillis).getD 0
  if measured = 0 then config.rtt.toNat else measured

/-- The average rate of the transfer, or 0. -/
def averageRate (payload : Nat) : Option Duration → Option Nat
  | none => some 0
  | some t =>
    if t.asNanos = 0 then some 0
    else do
      let rate ← Checked.divCeil 128 (Checked.saturate 128 (payload * 1000000000)) t.asNanos
      return (Checked.fit 64 (min rate (2 ^ 64 - 1))).getD 0

def suggestedBandwidth (senderCwnd rttMs currentBw payload : Nat) (blocked : Bool) : Option Nat := do
  let bw ← Checked.divCeil 128 (Checked.saturate 128 (senderCwnd * 1000)) rttMs
  let bwFromCwnd := (Checked.fit 64 bw).getD (2 ^ 64 - 1)
  let bwFromAverage ← averageRate payload transportTime
  -- some headroom: flow control updates are not continuous
  let headroom ← Checked.divCeil 128 (Checked.saturate 128 (max bwFromCwnd bwFromAverage * 5)) 4
  let suggested := (Checked.fit 64 headroom).getD (2 ^ 64 - 1)
  let suggested := if blocked ∧ suggested ≤ currentBw then Checked.saturate 64 (currentBw * 2) else suggested
  return max suggested currentBw

/-- The window, the configured rate and the frames of the side that sends. -/
def senderSide : Direction → Option (UInt64 × UInt64 × FrameStats)
  | .clientToServer => some (stats.path.cwnd, config.getTx, stats.frameTx)
  | .serverToClient => some (remote.cwnd, config.getRx, stats.frameRx)
  | .both => none

def suggestBandwidthTuning (direction : Direction) : Option (List Notice) :=
  let rttMs := roundTripMillis stats config
  if commandStats.payloadBytes = 0 ∨ rttMs = 0 then some []
  else match senderSide stats remote config direction with
    | none => some []
    | some (senderCwnd, currentBw, frames) =>
      if senderCwnd = 0 ∨ currentBw = 0 then some []
      else do
        let blocked := decide (0 < frames.dataBlocked ∨ 0 < frames.streamDataBlocked)
        let suggested ← suggestedBandwidth transportTime senderCwnd.toNat rttMs currentBw.toNat
          commandStats.payloadBytes.toNat blocked
        let flag ← bandwidthFlag direction
        let substantial ← Checked.div (Checked.saturate 64 (currentBw.toNat * 11)) 10
        if blocked = false ∧ suggested ≤ substantial then return []
        let rtt := if stats.path.rtt.asMillis = 0 then Duration.fromMillis config.rtt else stats.path.rtt
        return [.tuning ⟨if blocked then some frames else none, rtt, senderCwnd, flag, suggested, currentBw⟩]

/-- What is said of the transfer and of what was lost. -/
def summary (showStatistics : Bool) (events : Nat) : List Notice :=
  (if commandStats.payloadBytes = 0 then []
    else [Notice.transferred commandStats.payloadBytes transportTime commandStats.peakTransferRate]) ++
  (if showStatistics then [Notice.packetsSent stats.path.sentPackets remote.sentPackets] else []) ++
  (if 0 < events then [Notice.congestion events] else []) ++
  (if 0 < stats.path.lostPackets
    then [Notice.lostPackets stats.path.lostPackets stats.path.sentPackets stats.path.lostBytes] else []) ++
  (if 0 < remote.lostPackets
    then [Notice.remoteLostPackets remote.lostPackets remote.sentPackets remote.lostBytes] else [])

def processStatistics (showStatistics : Bool) (direction : Direction) : Option (List Notice) := do
  let events ← Checked.add 64 stats.path.congestionEvents.toNat remote.congestionEvents.toNat
  let lines := summary stats commandStats transportTime remote showStatistics events
  let advanced ← if showStatistics then advancedStatistics stats commandStats remote else some []
  let rtt ← checkRtt stats config
  let tuning ← suggestBandwidthTuning stats commandStats transportTime remote config direction
  return lines ++ advanced ++ rtt ++ tuning

/-! ## What holds of it -/

/-- A suggestion is no decrease. -/
def Notice.Keeps (direction : Direction) : Notice → Prop
  | .tuning s => (config.rate direction).toNat ≤ s.suggested
  | _ => True

/-- There is a report, and no suggestion in it is a decrease. -/
def Sound (direction : Direction) (report : Option (List Notice)) : Prop :=
  ∃ lines, report = some lines ∧ ∀ n ∈ lines, n.Keeps config direction

/-- The counters of the two ends fit together. -/
def FitTogether (showStatistics : Bool) : Prop :=
  stats.path.congestionEvents.toNat + remote.congestionEvents.toNat < 2 ^ 64 ∧
  (showStatistics = true → stats.path.blackHolesDetected.toNat + remote.blackHoles.toNat < 2 ^ 64 ∧
    (commandStats.payloadBytes = 0 ∨ commandStats.payloadBytes ≤ max stats.udpTx.bytes remote.sentBytes))

theorem checkRtt_sound (direction : Direction) : Sound config direction (checkRtt stats config) := by
  have hr := config.rtt.toNat_lt
  have hm := stats.path.rtt.asMillis_lt
  unfold checkRtt Checked.mul Checked.add
  rw [Checked.fit_eq (by omega)]
  simp only [Option.bind_eq_bind, Option.bind_some, Checked.div_eq (by decide : (100 : Nat) ≠ 0), Checked.fit_eq hm]
  split
  · exact ⟨_, rfl, fun n hn => by rw [List.mem_singleton.1 hn]; trivial⟩
  · exact ⟨_, rfl, fun n hn => by cases hn⟩

theorem exists_averageRate (payload : Nat) : ∃ n, averageRate payload transportTime = some n := by
  cases transportTime with
  | none => exact ⟨0, rfl⟩
  | some t =>
    unfold averageRate
    by_cases h : t.asNanos = 0
    · exact ⟨0, if_pos h⟩
    · obtain ⟨rate, hr, -⟩ := Checked.exists_divCeil (Checked.saturate_lt 128 (payload * 1000000000)) h
      simp only [if_neg h, hr]
      exact ⟨_, rfl⟩

/-- **The suggested bandwidth** is there, and at least the configured one. -/
theorem exists_suggestedBandwidth (senderCwnd rttMs currentBw payload : Nat) (blocked : Bool) (h : rttMs ≠ 0) :
    ∃ n, suggestedBandwidth transportTime senderCwnd rttMs currentBw payload blocked = some n ∧ currentBw ≤ n := by
  obtain ⟨bw, hbw, -⟩ := Checked.exists_divCeil (Checked.saturate_lt 128 (senderCwnd * 1000)) h
  obtain ⟨average, ha⟩ := exists_averageRate transportTime payload
  obtain ⟨headroom, hh, -⟩ := Checked.exists_divCeil
    (Checked.saturate_lt 128 (max ((Checked.fit 64 bw).getD (2 ^ 64 - 1)) average * 5)) (by decide : (4 : Nat) ≠ 0)
  unfold suggestedBandwidth
  simp only [hbw, ha, hh, Option.bind_eq_bind, Option.bind_some]
  exact ⟨_, rfl, Nat.le_max_right _ _⟩

theorem rate_of_senderSide (direction : Direction) (cwnd bw : UInt64) (frames : FrameStats)
    (h : senderSide stats remote config direction = some (cwnd, bw, frames)) :
    bw = config.rate direction ∧ ∃ flag, bandwidthFlag direction = some flag := by
  cases direction with
  | both => cases h
  | clientToServer => cases h; exact ⟨rfl, _, rfl⟩
  | serverToClient => cases h; exact ⟨rfl, _, rfl⟩

theorem suggestBandwidthTuning_sound (direction : Direction) :
    Sound config direction (suggestBandwidthTuning stats commandStats transportTime remote config direction) := by
  have hnil : Sound config direction (some []) := ⟨[], rfl, fun n hn => by cases hn⟩
  unfold suggestBandwidthTuning
  simp only
  split
  · exact hnil
  rename_i hrtt
  rw [not_or] at hrtt
  cases hs : senderSide stats remote config direction with
  | none => exact hnil
  | some side =>
    obtain ⟨senderCwnd, currentBw, frames⟩ := side
    obtain ⟨hbw, flag, hflag⟩ := rate_of_senderSide stats remote config direction senderCwnd currentBw frames hs
    simp only
    split
    · exact hnil
    obtain ⟨suggested, hsug, hle⟩ :=
      exists_suggestedBandwidth transportTime senderCwnd.toNat (roundTripMillis stats config)
      currentBw.toNat commandStats.payloadBytes.toNat
      (decide (0 < frames.dataBlocked ∨ 0 < frames.streamDataBlocked)) hrtt.2
    simp only [hsug, hflag, Option.bind_eq_bind, Option.bind_some, Checked.div_eq (by decide : (10 : Nat) ≠ 0)]
    split
    · exact hnil
    · exact ⟨_, rfl, fun n hn => by rw [List.mem_singleton.1 hn]; exact hbw ▸ hle⟩

/-- The advanced statistics are there when their counters fit together; they suggest nothing. -/
theorem advancedStatistics_sound_iff (direction : Direction) :
    Sound config direction (advancedStatistics stats commandStats remote) ↔
      stats.path.blackHolesDetected.toNat + remote.blackHoles.toNat < 2 ^ 64 ∧
      (commandStats.payloadBytes = 0 ∨ commandStats.payloadBytes ≤ max stats.udpTx.bytes remote.sentBytes) := by
  unfold advancedStatistics Checked.add
  by_cases hb : stats.path.blackHolesDetected.toNat + remote.blackHoles.toNat < 2 ^ 64
  · rw [Checked.fit_eq hb]
    simp only [Option.bind_eq_bind, Option.bind_some]
    by_cases hp : commandStats.payloadBytes = 0
    · rw [if_pos hp]
      apply iff_of_true
      · exact ⟨_, rfl, fun n hn => by simp at hn; rcases hn with rfl | rfl <;> trivial⟩
      · exact ⟨hb, Or.inl hp⟩
    · rw [if_neg hp, UInt64.le_iff_toNat_le]
      constructor
      · rintro ⟨lines, h, -⟩
        obtain ⟨extra, he, -⟩ := Option.bind_eq_some_iff.1 h
        exact ⟨hb, Or.inr ((Checked.sub_eq_some_iff _ _ _).1 he).1⟩
      · rintro ⟨-, hle⟩
        rw [(Checked.sub_eq_some_iff _ _ _).2 ⟨hle.resolve_left hp, rfl⟩]
        exact ⟨_, rfl, fun n hn => by simp at hn; rcases hn with rfl | rfl | rfl <;> trivial⟩
  · have hnone : ∀ m, Checked.fit 64 (stats.path.blackHolesDetected.toNat + remote.blackHoles.toNat) ≠ some m :=
      fun m hm => hb ((Checked.fit_eq_some_iff _ _ _).1 hm).1
    rw [Option.eq_none_iff_forall_ne_some.2 hnone]
    apply iff_of_false
    · rintro ⟨lines, h, -⟩
      cases h
    · exact fun h => hb h.1

theorem summary_keeps (showStatistics : Bool) (events : Nat) (direction : Direction) :
    ∀ n ∈ summary stats commandStats transportTime remote showStatistics events, n.Keeps config direction := by
  intro n hn
  unfold summary at hn
  simp only [List.mem_append, List.mem_ite_nil_left, List.mem_ite_nil_right, List.mem_singleton] at hn
  rcases hn with (((⟨-, rfl⟩ | ⟨-, rfl⟩) | ⟨-, rfl⟩) | ⟨-, rfl⟩) | ⟨-, rfl⟩ <;> trivial

/-- Lines that suggest no decrease make no difference. -/
theorem sound_append (direction : Direction) (front slow tuning : List Notice) (report : Option (List Notice))
    (hf : ∀ n ∈ front, n.Keeps config direction) (hs : ∀ n ∈ slow, n.Keeps config direction)
    (ht : ∀ n ∈ tuning, n.Keeps config direction) :
    Sound config direction (report.bind fun lines => some (front ++ lines ++ slow ++ tuning)) ↔
      Sound config direction report := by
  constructor
  · rintro ⟨all, h, hall⟩
    obtain ⟨lines, hr, rfl⟩ := by simpa [Option.bind_eq_some_iff] using h
    exact ⟨lines, hr, fun n hn => hall n (by simp [hn])⟩
  · rintro ⟨lines, rfl, hlines⟩
    apply Exists.intro (front ++ lines ++ slow ++ tuning)
    apply And.intro rfl
    intro n hn
    simp only [List.mem_append] at hn
    rcases hn with ((h | h) | h) | h
    · exact hf n h
    · exact hlines n h
    · exact hs n h
    · exact ht n h

/-- **The closing statistics are sound exactly when the counters of the two ends fit together.** -/
theorem processStatistics_sound_iff (showStatistics : Bool) (direction : Direction) :
    Sound config direction
        (processStatistics stats commandStats transportTime remote config showStatistics direction) ↔
      FitTogether stats commandStats remote showStatistics := by
  obtain ⟨slow, hslow, hk1⟩ := checkRtt_sound stats config direction
  obtain ⟨tuning, htuning, hk2⟩ := suggestBandwidthTuning_sound stats commandStats transportTime remote config direction
  have hadv : Sound config direction
      (if showStatistics then advancedStatistics stats commandStats remote else some []) ↔
      (showStatistics = true → stats.path.blackHolesDetected.toNat + remote.blackHoles.toNat < 2 ^ 64 ∧
        (commandStats.payloadBytes = 0 ∨ commandStats.payloadBytes ≤ max stats.udpTx.bytes remote.sentBytes)) := by
    cases showStatistics with
    | false => exact iff_of_true ⟨[], rfl, fun n hn => by cases hn⟩ (fun h => by cases h)
    | true => simpa using advancedStatistics_sound_iff stats commandStats remote config direction
  unfold processStatistics FitTogether Checked.add
  rw [← hadv]
  by_cases he : stats.path.congestionEvents.toNat + remote.congestionEvents.toNat < 2 ^ 64
  · rw [Checked.fit_eq he, and_iff_right he]
    simp only [Option.bind_eq_bind, Option.bind_some, hslow, htuning]
    have hfront := summary_keeps stats commandStats transportTime remote config showStatistics
      (stats.path.congestionEvents.toNat + remote.congestionEvents.toNat) direction
    cases showStatistics with
    | false => exact sound_append config direction _ slow tuning (some []) hfront hk1 hk2
    | true => exact sound_append config direction _ slow tuning _ hfront hk1 hk2
  · have hnone : ∀ m, Checked.fit 64 (stats.path.congestionEvents.toNat + remote.congestionEvents.toNat) ≠ some m :=
      fun m hm => he ((Checked.fit_eq_some_iff _ _ _).1 hm).1
    rw [Option.eq_none_iff_forall_ne_some.2 hnone]
    apply iff_of_false
    · rintro ⟨lines, h, -⟩
      cases h
    · exact fun h => he h.1

end Report

/-- A file was fetched, the server's connection failed, and the statistics are to be shown. -/
theorem not_sound_default : ¬ ∀ (stats server : ConnectionStats) (commandStats : CommandStats)
    (transportTime : Option Duration) (config : Configuration) (showStatistics : Bool) (direction : Direction),
    Sound config direction (processStatistics stats commandStats transportTime (ClosedownReportV1.ofStats server) config
      showStatistics direction) := by
  intro h
  obtain ⟨lines, hl, -⟩ := h { ConnectionStats.default with udpTx := ⟨300, 20000⟩ } ConnectionStats.default
    ⟨1000000, 0⟩ none Configuration.systemDefault true .serverToClient
  cases hl

end Qcp
