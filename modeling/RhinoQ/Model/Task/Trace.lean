import RhinoQ.Model.Basic

/-! # Trace contexts

The W3C trace context of an execution. A context that does not normalize is dropped by the constructor of
executions and refused by their validity check.
-/

namespace RhinoQ.Model

namespace Correlation

structure TraceContext where
  traceID : String := ""
  spanID : String := ""
  flags : String := ""
  traceState : String := ""
  deriving DecidableEq

def traceVersion00 : String := "00"

def traceIDHexLen : ℕ := 32

def spanIDHexLen : ℕ := 16

def traceFlagsLen : ℕ := 2

def traceParent00Len : ℕ := 55

def maxTraceStateBytes : ℕ := 512

def errTraceParentMalformed : String := "traceparent is not a valid W3C trace context"

def errTraceStateBounds : String := "tracestate exceeds its length bound"

def isLowerHex (s : String) : Bool :=
  s.toList.all (fun c => ('0' ≤ c ∧ c ≤ '9') ∨ ('a' ≤ c ∧ c ≤ 'f')) && s != ""

def isAllZero (s : String) : Bool := s.toList.all (· == '0') && s != ""

/-- A field of fixed length in lower-case hexadecimal digits. -/
def isHexField (s : String) (length : ℕ) : Bool := s.utf8ByteSize == length && isLowerHex s

def parseTraceParent (raw : String) : Except String TraceContext :=
  let value := Text.trimSpace raw
  match (value.toList.splitOn '-').map String.ofList with
  | version :: traceID :: spanID :: flags :: _ =>
    if !isHexField version 2 || version == "ff" then .error errTraceParentMalformed
    else if version == traceVersion00 && value.utf8ByteSize != traceParent00Len then .error errTraceParentMalformed
    else if !isHexField traceID traceIDHexLen || isAllZero traceID then .error errTraceParentMalformed
    else if !isHexField spanID spanIDHexLen || isAllZero spanID then .error errTraceParentMalformed
    else if !isHexField flags traceFlagsLen then .error errTraceParentMalformed
    else .ok { traceID, spanID, flags }
  | _ => .error errTraceParentMalformed

namespace TraceContext

variable (t : TraceContext)

def zero : Bool := t.traceID == "" && t.spanID == ""

def traceParent : String :=
  if t.zero then ""
  else traceVersion00 ++ "-" ++ t.traceID ++ "-" ++ t.spanID ++ "-" ++ (if t.flags = "" then "00" else t.flags)

def withTraceState (raw : String) : Except String TraceContext :=
  let state := Text.trimSpace raw
  if state = "" then .ok { t with traceState := "" }
  else if state.utf8ByteSize > maxTraceStateBytes then .error errTraceStateBounds
  else .ok { t with traceState := state }

def normalize : Except String TraceContext :=
  if t.zero then .ok {}
  else
    match parseTraceParent t.traceParent with
    | .error text => .error text
    | .ok parsed => parsed.withTraceState t.traceState

end TraceContext
end Correlation
end RhinoQ.Model
