import LeaderLease.Timing.Spec
import LeaderLease.Json.Shape
import LeaderLease.Json.Variant
import LeaderLease.Json.Write

namespace LeaderLease

namespace Preset

open Json

def name : Preset → String
  | standard => "standard"
  | resourceConstrained => "resourceConstrained"

def variants : Variants Preset := ⟨standard.name, standard, resourceConstrained.name, resourceConstrained⟩

def parse (text : String) : Except Json.Error Preset := variants.parse (Utf8.encode text.toList)

def write (p : Preset) : List Char := writeText p.name

end Preset

namespace TimingSpec

open Json

structure Draft where
  namespaceName : Option String
  name : Option String
  leaseDuration : Option (Option Duration)
  renewDeadline : Option (Option Duration)
  retryPeriod : Option (Option Duration)

def Draft.toSpec (d : Draft) : TimingSpec where
  namespaceName := d.namespaceName.getD ""
  name := d.name.getD ""
  storedLeaseDuration := d.leaseDuration.getD none
  storedRenewDeadline := d.renewDeadline.getD none
  storedRetryPeriod := d.retryPeriod.getD none

/-- A duration that is `null` is not stored. -/
def shape : Shape Draft TimingSpec where
  name := "TimingSpec"
  members := [
    ⟨"namespace", (·.namespaceName.isSome), Reader.text.map fun s d => { d with namespaceName := some s }⟩,
    ⟨"name", (·.name.isSome), Reader.text.map fun s d => { d with name := some s }⟩,
    ⟨"leaseDuration", (·.leaseDuration.isSome),
      Reader.duration.optional.map fun stored d => { d with leaseDuration := some stored }⟩,
    ⟨"renewDeadline", (·.renewDeadline.isSome),
      Reader.duration.optional.map fun stored d => { d with renewDeadline := some stored }⟩,
    ⟨"retryPeriod", (·.retryPeriod.isSome),
      Reader.duration.optional.map fun stored d => { d with retryPeriod := some stored }⟩]
  start := ⟨none, none, none, none, none⟩
  isOpenEnded := true
  finish := fun d => .ok d.toSpec

def parse (text : String) : Except Json.Error TimingSpec := shape.parse (Utf8.encode text.toList)

def writeStored (key : String) (stored : Option Duration) : List (String × List Char) :=
  stored.toList.map fun d => (key, Number.writeReal false d.seconds)

def write (s : TimingSpec) : List Char :=
  writeObject ([("namespace", writeText s.namespaceName), ("name", writeText s.name)] ++
    writeStored "leaseDuration" s.storedLeaseDuration ++
    writeStored "renewDeadline" s.storedRenewDeadline ++
    writeStored "retryPeriod" s.storedRetryPeriod)

def toJson (s : TimingSpec) : String := .ofList s.write

end TimingSpec

end LeaderLease
