import RhinoQ.Model.Basic

/-! # Failure reports on the wire

The report of a remote worker: a duration in the program, whole milliseconds on the wire, each in the 64 bits
of its Go type. What `encoding/json` reads into the wire structure is the input.
-/

namespace RhinoQ.Model

structure FailureReport where
  type : String := ""
  retryClass : String := ""
  message : String := ""
  fingerprint : String := ""
  details : List (String × String) := []
  language : String := ""
  retryAfter : Int64 := 0
  attempt : Int64 := 0

structure FailureReportWire where
  type : String := ""
  retryClass : String := ""
  message : String := ""
  fingerprint : String := ""
  details : List (String × String) := []
  language : String := ""
  retryAfterMs : Int64 := 0
  attempt : Int64 := 0

namespace FailureReport

/-- `time.Millisecond` in nanoseconds. -/
def millisecond : Int64 := 1000000

/-- `MarshalJSON`, with `Duration.Milliseconds`. -/
def marshal (r : FailureReport) : FailureReportWire :=
  { type := r.type, retryClass := r.retryClass, message := r.message, fingerprint := r.fingerprint
    details := r.details, language := r.language, retryAfterMs := r.retryAfter / millisecond, attempt := r.attempt }

/-- `UnmarshalJSON`. -/
def unmarshal (wire : FailureReportWire) : Except String FailureReport :=
  if wire.retryAfterMs < 0 then .error "retryAfterMs must not be negative"
  else
    .ok { type := wire.type, retryClass := wire.retryClass, message := wire.message, fingerprint := wire.fingerprint
          details := wire.details, language := wire.language, retryAfter := wire.retryAfterMs * millisecond
          attempt := wire.attempt }

end FailureReport
end RhinoQ.Model
