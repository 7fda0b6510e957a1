import Qcp.ControlMsg
/-!
# Closedown — what a server reports when it is done

The report a server ends the control channel with, and its `codec`.  Like the placeholders of the other messages,
`unknown` can be read but never written.
-/
namespace Qcp

open Bare

/-- The statistics of a server when the job is done. -/
structure ClosedownReportV1 where
  cwnd : UInt64
  sentPackets : UInt64
  lostPackets : UInt64
  lostBytes : UInt64
  congestionEvents : UInt64
  blackHoles : UInt64
  sentBytes : UInt64
  «extension» : List TaggedData

def ClosedownReportV1.codec : Codec ClosedownReportV1 :=
  (Codec.uint.pair (Codec.uint.pair (Codec.uint.pair (Codec.uint.pair (Codec.uint.pair (Codec.uint.pair
    (Codec.uint.pair (Codec.list TaggedData.codec)))))))).iso
    (fun (cwnd, sentPackets, lostPackets, lostBytes, events, blackHoles, sentBytes, ext) =>
      ⟨cwnd, sentPackets, lostPackets, lostBytes, events, blackHoles, sentBytes, ext⟩)
    (fun r => (r.cwnd, r.sentPackets, r.lostPackets, r.lostBytes, r.congestionEvents, r.blackHoles, r.sentBytes,
      r.extension))
    fun _ => rfl

inductive ClosedownReport where
  | unknown
  | v1 (report : ClosedownReportV1)

namespace ClosedownReport

def tag : ClosedownReport → UInt64
  | unknown => 0
  | v1 _ => 1

def body : ClosedownReport → Bytes
  | unknown => []
  | v1 r => ClosedownReportV1.codec.enc r

def arm (t : UInt64) : Decoder ClosedownReport :=
  if t = 0 then pure unknown else if t = 1 then v1 <$> ClosedownReportV1.codec.dec else fail

def wf : ClosedownReport → Prop
  | unknown => False
  | v1 r => ClosedownReportV1.codec.wf r

def codec : Codec ClosedownReport := Codec.union tag body arm wf fun r h => by
  cases r with
  | unknown => exact h.elim
  | v1 r => exact (ClosedownReportV1.codec.decodes r h).map v1

end ClosedownReport

end Qcp
