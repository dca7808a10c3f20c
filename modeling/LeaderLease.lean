import LeaderLease.Election.Shown
import LeaderLease.StandIn.Program
import LeaderLease.StandIn.Session
import LeaderLease.Timing.Defaults
import LeaderLease.Timing.Json
import LeaderLease.StandIn.Ambient
import LeaderLease.Proofs.Time.RoundTrip
import LeaderLease.Proofs.Json.Object
import LeaderLease.Proofs.Leader.RoundTrip
import LeaderLease.Proofs.Request.Target
import LeaderLease.Proofs.Transport.Logged
import LeaderLease.Proofs.Lock.Register
import LeaderLease.Proofs.Act.Within
import LeaderLease.Proofs.Election.Assembly
import LeaderLease.Proofs.Lock.Within
import LeaderLease.Proofs.Leader.Recorder
import LeaderLease.Proofs.Session.Config
import LeaderLease.Proofs.Session.Interference
import LeaderLease.Proofs.Election.Outcome
import LeaderLease.Proofs.Transport.Flags
import LeaderLease.Proofs.Lock.Alike
import LeaderLease.Proofs.Election.Flags
import LeaderLease.Proofs.Session.Flags
import LeaderLease.Proofs.Election.Loss
import LeaderLease.Proofs.Election.Uses
import LeaderLease.Proofs.Election.Termination
import LeaderLease.Proofs.Lock.Outcome
import LeaderLease.Proofs.Lock.Sending
import LeaderLease.Proofs.Lock.Addressing
import LeaderLease.Proofs.Lock.Sharing
import LeaderLease.Proofs.Lock.Staleness
import LeaderLease.Proofs.Timing.Defaults
import LeaderLease.Proofs.Timing.RoundTrip
import LeaderLease.Proofs.Timing.Outage
import LeaderLease.Proofs.Timing.Takeover
import LeaderLease.Proofs.Timing.Edits
import LeaderLease.Proofs.Lock.Reporting
import LeaderLease.Proofs.Session.Reporting
import LeaderLease.Proofs.Timing.Layout
import LeaderLease.Proofs.Lock.Reading
import LeaderLease.Proofs.Lock.Announcing
import LeaderLease.Proofs.Identity.Uniqueness
import LeaderLease.Proofs.Lock.Excerpt
import LeaderLease.Proofs.Namespace.Sources
