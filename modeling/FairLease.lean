import FairLease.Json.Printer
import FairLease.Store.Codec
import FairLease.Claim.Fairness
import FairLease.Etcd.Watcher
import FairLease.Simulation.Cluster
import FairLease.Config.Codec
import FairLease.Service.Work
import FairLease.Main
import FairLease.Proofs.Run
import FairLease.Proofs.Claim.Codec
import FairLease.Proofs.Claim.Admission
import FairLease.Proofs.Claim.Snapshot
import FairLease.Proofs.Claim.Listing
import FairLease.Proofs.Store.Contents
import FairLease.Proofs.Store.History
import FairLease.Proofs.Store.Listing
import FairLease.Proofs.Lease.Machine
import FairLease.Proofs.Lease.Entries
import FairLease.Proofs.Lease.Handshake
import FairLease.Proofs.Fleet.Basic
import FairLease.Proofs.Fleet.Ownership
import FairLease.Proofs.Fleet.Renewed
import FairLease.Proofs.Fleet.Holdings
import FairLease.Proofs.Fleet.Flight
import FairLease.Proofs.Fleet.Progress
import FairLease.Proofs.Fleet.Fairness
import FairLease.Proofs.Fleet.Readable
import FairLease.Proofs.Fleet.Inventory
import FairLease.Proofs.Fleet.Race
import FairLease.Proofs.Lease.Exclusive
import FairLease.Proofs.Lease.Shutdown
import FairLease.Proofs.Store.Survival
import FairLease.Proofs.Fleet.Course
import FairLease.Proofs.Fleet.Survival
import FairLease.Proofs.Claim.Allocation
import FairLease.Proofs.Fleet.Survey
import FairLease.Proofs.Fleet.Record
import FairLease.Proofs.Fleet.Sequential
import FairLease.Proofs.Fleet.Jobs
import FairLease.Proofs.Store.TimedMap
import FairLease.Proofs.Store.Change
import FairLease.Proofs.Store.Refinement
import FairLease.Proofs.Store.Journal
import FairLease.Proofs.Claim.Listening
import FairLease.Proofs.Queue.Pending
import FairLease.Proofs.Claim.Takeover
import FairLease.Proofs.Claim.Paging
import FairLease.Proofs.Etcd.Exchange
import FairLease.Proofs.Text.Digits
import FairLease.Proofs.Json.RoundTrip
import FairLease.Proofs.Url.Form
import FairLease.Proofs.Url.Path
import FairLease.Proofs.Etcd.Request
import FairLease.Proofs.Etcd.Wire
import FairLease.Proofs.Etcd.Listing
import FairLease.Proofs.Etcd.Watching
import FairLease.Proofs.Store.Keywise
import FairLease.Proofs.Etcd.Leaf
import FairLease.Proofs.Etcd.Agreement
import FairLease.Proofs.Queue.Depot
import FairLease.Proofs.Queue.Wakeup
import FairLease.Proofs.Store.Channel
import FairLease.Proofs.Store.Delivery
import FairLease.Proofs.CommandLine.Presence
import FairLease.Proofs.Config.Precedence
import FairLease.Proofs.Claim.Domain
import FairLease.Proofs.Claim.Tally
import FairLease.Proofs.Claim.Balance
import FairLease.Proofs.Claim.Errand
import FairLease.Proofs.Claim.Verdict
import FairLease.Proofs.Claim.Effects
import FairLease.Proofs.Store.Refusal
import FairLease.Proofs.Queue.Drain
import FairLease.Proofs.Etcd.Failover
import FairLease.Proofs.Claim.Lifetime
import FairLease.Proofs.Claim.Pausing
import FairLease.Proofs.Url.Segment
import FairLease.Proofs.Etcd.Location
import FairLease.Proofs.Json.Grammar
import FairLease.Proofs.Json.Record
import FairLease.Proofs.Etcd.Rendering
import FairLease.Proofs.Config.Validity
import FairLease.Proofs.Claim.Serving
import FairLease.Proofs.Json.Codec
import FairLease.Proofs.Store.Codec
