import LeaderLease.Json.Shape
import LeaderLease.Json.Variant
import LeaderLease.Json.Write

namespace LeaderLease

inductive EventType where
  | normal
  | warning
  deriving DecidableEq

namespace EventType

def name : EventType → String
  | normal => "Normal"
  | warning => "Warning"

def variants : Json.Variants EventType := ⟨normal.name, normal, warning.name, warning⟩

end EventType

@[ext]
structure LeaderEvent where
  component : String
  namespaceName : String
  involvedObject : String
  type : EventType
  reason : String
  message : String
  timestamp : Timestamp
  deriving DecidableEq

namespace LeaderEvent

open Json

def electionReason : String := "LeaderElection"

structure Draft where
  component : Option String
  namespaceName : Option String
  involvedObject : Option String
  type : Option EventType
  reason : Option String
  message : Option String
  timestamp : Option Timestamp

def Draft.finish (d : Draft) : Except Json.Error LeaderEvent := do
  return {
    component := ← required "component" d.component
    namespaceName := ← required "namespace" d.namespaceName
    involvedObject := ← required "involvedObject" d.involvedObject
    type := ← required "type" d.type
    reason := ← required "reason" d.reason
    message := ← required "message" d.message
    timestamp := ← required "timestamp" d.timestamp }

def shape : Shape Draft LeaderEvent where
  name := "LeaderEvent"
  members := [
    ⟨"component", (·.component.isSome), Reader.text.map fun s d => { d with component := some s }⟩,
    ⟨"namespace", (·.namespaceName.isSome), Reader.text.map fun s d => { d with namespaceName := some s }⟩,
    ⟨"involvedObject", (·.involvedObject.isSome), Reader.text.map fun s d => { d with involvedObject := some s }⟩,
    ⟨"type", (·.type.isSome), EventType.variants.reader.map fun t d => { d with type := some t }⟩,
    ⟨"reason", (·.reason.isSome), Reader.text.map fun s d => { d with reason := some s }⟩,
    ⟨"message", (·.message.isSome), Reader.text.map fun s d => { d with message := some s }⟩,
    ⟨"timestamp", (·.timestamp.isSome), Reader.timestamp.map fun t d => { d with timestamp := some t }⟩]
  start := ⟨none, none, none, none, none, none, none⟩
  isOpenEnded := false
  finish := Draft.finish

def decode (body : Bytes) : Except Json.Error LeaderEvent := shape.parse body

def write (e : LeaderEvent) : List Char :=
  writeObject [
    ("component", writeText e.component),
    ("namespace", writeText e.namespaceName),
    ("involvedObject", writeText e.involvedObject),
    ("type", writeText e.type.name),
    ("reason", writeText e.reason),
    ("message", writeText e.message),
    ("timestamp", writeText (.ofList e.timestamp.write))]

def toJson (e : LeaderEvent) : String := .ofList e.write

def encode (e : LeaderEvent) : Bytes := Utf8.encode e.write

end LeaderEvent

end LeaderLease
