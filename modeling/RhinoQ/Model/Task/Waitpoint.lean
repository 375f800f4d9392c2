import RhinoQ.Model.Basic

/-! # Waitpoints

A durable pause of a task until an input, an approval or a webhook arrives. Exactly one of the three
ways out of `waiting` can be taken.
-/

namespace RhinoQ.Model.Waitpoint

abbrev ID := String

inductive State
  | waiting | resolved | expired | cancelled
  | other (text : String)
  deriving DecidableEq

inductive Kind
  | input | approval | webhook
  | other (text : String)
  deriving DecidableEq

def Kind.valid : Kind → Bool
  | .other _ => false
  | _ => true

structure Record where
  id : ID := ""
  taskID : String := ""
  key : String := ""
  kind : Kind := .other ""
  schemaVersion : ℤ := 0
  state : State := .other ""
  deadline : Time := 0
  resolution : List UInt8 := []
  resolutionHash : String := ""
  resolvedBy : String := ""
  resolutionID : String := ""
  resolvedAt : Time := 0
  version : ℤ := 0
  createdAt : Time := 0
  updatedAt : Time := 0
  deriving DecidableEq

structure Spec where
  id : String
  taskID : String
  key : String
  kind : Kind
  schemaVersion : ℤ
  deadline : Time := 0
  now : Time
  deriving DecidableEq

def errInvalidRecord : String := "invalid waitpoint record"

def errAlreadySettled : String := "waitpoint is already settled"

def errResolutionConflict : String := "waitpoint resolution conflicts with the durable result"

/-- A new waitpoint, with its identifiers trimmed. -/
def new (spec : Spec) : Except String Record :=
  let id := Text.trimSpace spec.id
  let taskID := Text.trimSpace spec.taskID
  let key := Text.trimSpace spec.key
  if id = "" ∨ taskID = "" ∨ key = "" ∨ spec.schemaVersion ≤ 0 ∨ spec.now.isZero ∨ !spec.kind.valid ∨
      (!spec.deadline.isZero ∧ ¬spec.deadline > spec.now) then
    .error errInvalidRecord
  else
    .ok { id, taskID, key, kind := spec.kind, schemaVersion := spec.schemaVersion, state := .waiting
          deadline := spec.deadline, version := 1, createdAt := spec.now, updatedAt := spec.now }

namespace Record

def resolve (r : Record) (resolution : List UInt8) (hash resolutionID actor : String) (now : Time) : Except String Record :=
  let hash := Text.trimSpace hash
  let resolutionID := Text.trimSpace resolutionID
  let actor := Text.trimSpace actor
  if resolution = [] ∨ hash = "" ∨ resolutionID = "" ∨ actor = "" ∨ now.isZero ∨ now < r.createdAt then
    .error errInvalidRecord
  else if r.state = .resolved then
    if r.resolutionID = resolutionID ∧ r.resolutionHash = hash then .ok r else .error errResolutionConflict
  else if r.state ≠ .waiting then .error errAlreadySettled
  else if !r.deadline.isZero ∧ ¬now < r.deadline then .error errAlreadySettled
  else
    .ok { r with
      state := .resolved, resolution, resolutionHash := hash, resolutionID, resolvedBy := actor
      resolvedAt := now, updatedAt := now, version := r.version + 1 }

def expire (r : Record) (now : Time) : Except String Record :=
  if r.state ≠ .waiting then .error errAlreadySettled
  else if r.deadline.isZero ∨ now.isZero ∨ now < r.deadline then .error errInvalidRecord
  else .ok { r with state := .expired, updatedAt := now, version := r.version + 1 }

def cancel (r : Record) (now : Time) : Except String Record :=
  if r.state ≠ .waiting then .error errAlreadySettled
  else if now.isZero ∨ now < r.createdAt then .error errInvalidRecord
  else .ok { r with state := .cancelled, updatedAt := now, version := r.version + 1 }

end Record
end RhinoQ.Model.Waitpoint
