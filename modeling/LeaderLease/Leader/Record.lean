import LeaderLease.Json.Shape
import LeaderLease.Json.Write

namespace LeaderLease

@[ext]
structure LeaderRecord where
  holderIdentity : String
  leaseDurationSeconds : UInt64
  acquireTime : Timestamp
  renewTime : Timestamp
  leaderTransitions : UInt32
  deriving DecidableEq

namespace LeaderRecord

open Json

structure Draft where
  holderIdentity : Option String
  leaseDurationSeconds : Option UInt64
  acquireTime : Option Timestamp
  renewTime : Option Timestamp
  leaderTransitions : Option UInt32

def Draft.finish (d : Draft) : Except Json.Error LeaderRecord := do
  return {
    holderIdentity := ← required "holderIdentity" d.holderIdentity
    leaseDurationSeconds := ← required "leaseDurationSeconds" d.leaseDurationSeconds
    acquireTime := ← required "acquireTime" d.acquireTime
    renewTime := ← required "renewTime" d.renewTime
    leaderTransitions := ← required "leaderTransitions" d.leaderTransitions }

def shape : Shape Draft LeaderRecord where
  name := "LeaderElectionRecord"
  members := [
    ⟨"holderIdentity", (·.holderIdentity.isSome), Reader.text.map fun s d => { d with holderIdentity := some s }⟩,
    ⟨"leaseDurationSeconds", (·.leaseDurationSeconds.isSome),
      Reader.word64.map fun n d => { d with leaseDurationSeconds := some n }⟩,
    ⟨"acquireTime", (·.acquireTime.isSome), Reader.timestamp.map fun t d => { d with acquireTime := some t }⟩,
    ⟨"renewTime", (·.renewTime.isSome), Reader.timestamp.map fun t d => { d with renewTime := some t }⟩,
    ⟨"leaderTransitions", (·.leaderTransitions.isSome),
      Reader.word32.map fun n d => { d with leaderTransitions := some n }⟩]
  start := ⟨none, none, none, none, none⟩
  isOpenEnded := false
  finish := Draft.finish

def decode (body : Bytes) : Except Json.Error LeaderRecord := shape.parse body

def write (r : LeaderRecord) : List Char :=
  writeObject [
    ("holderIdentity", writeText r.holderIdentity),
    ("leaseDurationSeconds", Decimal.digits r.leaseDurationSeconds.toNat),
    ("acquireTime", writeText (.ofList r.acquireTime.write)),
    ("renewTime", writeText (.ofList r.renewTime.write)),
    ("leaderTransitions", Decimal.digits r.leaderTransitions.toNat)]

def toJson (r : LeaderRecord) : String := .ofList r.write

def encode (r : LeaderRecord) : Bytes := Utf8.encode r.write

end LeaderRecord

end LeaderLease
