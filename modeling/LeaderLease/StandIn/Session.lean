import LeaderLease.StandIn.Rehearsal

namespace LeaderLease

inductive Channel where
  | lock
  | event
  deriving DecidableEq

/-- The number of a connection if the config was given two, `first` and the next: it sends its events on the one, and
reads and writes its lock on the other. -/
def Channel.connection (first : Nat) : Channel → Nat
  | lock => first + 1
  | event => first

inductive SessionStep where
  | script (channel : Channel) (outcomes : List (Except String Response))
  | get
  | create (record : LeaderRecord)
  | update (record : LeaderRecord)
  /-- Write back the record that was read last. -/
  | updateLast
  | recordEvent (message : String)
  | intoParts
  | change (change : LeadershipChange)

inductive SessionReply where
  | done
  | read (record : LeaderRecord)
  | nothingRead
  | lockError (e : LockError)
  | parts (parts : ElectionParts Rehearsal)
  | heard (heard : Audience.Heard)

inductive ConfigHandle where
  | whole (config : ElectionConfig Rehearsal)
  | split (parts : ElectionParts Rehearsal)

namespace ConfigHandle

def lock : ConfigHandle → LeaseLock Rehearsal
  | whole config => config.lock
  | split parts => parts.lock

def callbacks : ConfigHandle → LeaderCallbacks (Guarded Rehearsal)
  | whole config => config.callbacks
  | split parts => parts.callbacks

def parts : ConfigHandle → ElectionParts Rehearsal
  | whole config => config.intoParts
  | split parts => parts

end ConfigHandle

/-- The stand-ins, the config among them with its connections from `first` on, and the record that was read last. -/
structure Session (first : Nat := 0) where
  handle : ConfigHandle
  guarded : Guarded Rehearsal
  lastRead : Option LeaderRecord

namespace Session

variable {first : Nat}

def fresh (config : ElectionConfig Rehearsal) (w : Rehearsal) : Session first := ⟨.whole config, .fresh w, none⟩

def guardedPart : Part (Session first) (Guarded Rehearsal) where
  get := guarded
  set g s := { s with guarded := g }
  get_set _ _ := rfl
  set_get _ := rfl
  set_set _ _ _ := rfl

def world : Part (Session first) Rehearsal := guardedPart.trans Guarded.inner

def audience : Part (Guarded Rehearsal) Audience := Guarded.inner.trans Rehearsal.audiencePart

def connection (channel : Channel) : Part (Session first) Recording :=
  world.trans (Rehearsal.connection (channel.connection first))

def lock : Act (Session first) (LeaseLock Rehearsal) := .look (·.handle.lock)

def replyTo (result : Except LockError Unit) : SessionReply :=
  match result with
  | .ok () => .done
  | .error e => .lockError e

def get : Act (Session first) SessionReply := do
  match ← (← lock).get.on world with
  | .ok record => do
    .change fun s => { s with lastRead := some record }
    return .read record
  | .error e => return .lockError e

def perform : SessionStep → Act (Session first) SessionReply
  | .script channel outcomes => do
    Act.on (connection channel) (.change (Recording.queue outcomes))
    return .done
  | .get => get
  | .create record => do return replyTo (← ((← lock).create record).on world)
  | .update record => do return replyTo (← ((← lock).update record).on world)
  | .updateLast => do
    match ← .look (·.lastRead) with
    | some record => return replyTo (← ((← lock).update record).on world)
    | none => return .nothingRead
  | .recordEvent message => do
    ((← lock).recordEvent message).on world
    return .done
  | .intoParts => do
    let parts ← .look (·.handle.parts)
    .change fun s => { s with handle := .split parts }
    return .parts parts
  | .change change => do
    (change.report audience (← .look (·.handle.callbacks))).on guardedPart
    return .heard (← .look (·.guarded.world.audience.heard))

end Session

end LeaderLease
