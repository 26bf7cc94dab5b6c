import Rollout.Agents.Fleet
import Rollout.Agents.Supervisor
import Rollout.Agents.Work
import Rollout.Catalog.Basic
import Rollout.Catalog.Reader
import Rollout.Catalog.Sample
import Rollout.Cluster.Host
import Rollout.Cluster.Role
import Rollout.Cluster.Status
import Rollout.CommandLine.Arguments
import Rollout.CommandLine.Installation
import Rollout.CommandLine.Perform
import Rollout.CommandLine.Project
import Rollout.CommandLine.Reach
import Rollout.Digest.Sha256
import Rollout.Document.Json
import Rollout.Document.JsonReader
import Rollout.Document.JsonWriter
import Rollout.Document.Toml
import Rollout.Document.TomlReader
import Rollout.Document.TomlRecord
import Rollout.Fault
import Rollout.Inventory.Basic
import Rollout.Inventory.Reader
import Rollout.Machine.Files
import Rollout.Main
import Rollout.Metrics.Pipeline
import Rollout.Metrics.Queue
import Rollout.Metrics.Reading
import Rollout.Metrics.Rehearsal
import Rollout.Metrics.Source
import Rollout.Number.Binary64
import Rollout.Number.Decimal
import Rollout.Plan.Basic
import Rollout.Plan.Expansion
import Rollout.Plan.Order
import Rollout.Plan.Step
import Rollout.Proofs.Agents.Ensured
import Rollout.Proofs.Agents.Fleet
import Rollout.Proofs.Agents.Passes
import Rollout.Proofs.Agents.Patrol
import Rollout.Proofs.Agents.Rounds
import Rollout.Proofs.Agents.Started
import Rollout.Proofs.Agents.Stopped
import Rollout.Proofs.Agents.Supervised
import Rollout.Proofs.Agents.TornDown
import Rollout.Proofs.Agents.Undertaking
import Rollout.Proofs.Catalog.Accepted
import Rollout.Proofs.Cluster.Role
import Rollout.Proofs.CommandLine.Status
import Rollout.Proofs.Document.Printed
import Rollout.Proofs.Document.Records
import Rollout.Proofs.Inventory.Accepted
import Rollout.Proofs.Inventory.Selected
import Rollout.Proofs.Metrics.Delivery
import Rollout.Proofs.Metrics.Fates
import Rollout.Proofs.Metrics.Feed
import Rollout.Proofs.Metrics.Lines
import Rollout.Proofs.Metrics.Paced
import Rollout.Proofs.Metrics.Queue
import Rollout.Proofs.Metrics.Unshed
import Rollout.Proofs.Number.Binary64
import Rollout.Proofs.Plan.Accepted
import Rollout.Proofs.Plan.Acyclic
import Rollout.Proofs.Plan.Blocked
import Rollout.Proofs.Plan.Counting
import Rollout.Proofs.Plan.Dependents
import Rollout.Proofs.Plan.Downstream
import Rollout.Proofs.Plan.Drawn
import Rollout.Proofs.Plan.Expansion
import Rollout.Proofs.Plan.Failures
import Rollout.Proofs.Plan.Induced
import Rollout.Proofs.Plan.Least
import Rollout.Proofs.Plan.Order
import Rollout.Proofs.Plan.Performable
import Rollout.Proofs.Plan.Rules
import Rollout.Proofs.Plan.Slots
import Rollout.Proofs.Plan.Sorting
import Rollout.Proofs.Remote.Breakers
import Rollout.Proofs.Remote.Capacity
import Rollout.Proofs.Remote.Checksum
import Rollout.Proofs.Remote.Cooldown
import Rollout.Proofs.Remote.Desk
import Rollout.Proofs.Remote.Diary
import Rollout.Proofs.Remote.Faithful
import Rollout.Proofs.Remote.Fenced
import Rollout.Proofs.Remote.Places
import Rollout.Proofs.Remote.Pushed
import Rollout.Proofs.Remote.Quoting
import Rollout.Proofs.Remote.Rehearsed
import Rollout.Proofs.Remote.Replies
import Rollout.Proofs.Remote.Traffic
import Rollout.Proofs.Remote.Trials
import Rollout.Proofs.Remote.Visits
import Rollout.Proofs.Retry.Backoff
import Rollout.Proofs.Retry.Policy
import Rollout.Proofs.Retry.Tolerant
import Rollout.Proofs.Run.Agents
import Rollout.Proofs.Run.Attended
import Rollout.Proofs.Run.Bench
import Rollout.Proofs.Run.Bouts
import Rollout.Proofs.Run.Campaign
import Rollout.Proofs.Run.CarriedOut
import Rollout.Proofs.Run.Control
import Rollout.Proofs.Run.Course
import Rollout.Proofs.Run.Ending
import Rollout.Proofs.Run.Exact
import Rollout.Proofs.Run.Fieldwork
import Rollout.Proofs.Run.Frontier
import Rollout.Proofs.Run.Growth
import Rollout.Proofs.Run.History
import Rollout.Proofs.Run.Hosts
import Rollout.Proofs.Run.InTurn
import Rollout.Proofs.Run.Interrupted
import Rollout.Proofs.Run.Invariant
import Rollout.Proofs.Run.Ledger
import Rollout.Proofs.Run.Monitored
import Rollout.Proofs.Run.Orderly
import Rollout.Proofs.Run.Orders
import Rollout.Proofs.Run.Propagation
import Rollout.Proofs.Run.Reached
import Rollout.Proofs.Run.Records
import Rollout.Proofs.Run.Report
import Rollout.Proofs.Run.Rollup
import Rollout.Proofs.Run.Saved
import Rollout.Proofs.Run.Steady
import Rollout.Proofs.Run.Timeouts
import Rollout.Proofs.Run.Turns
import Rollout.Proofs.Run.Verdict
import Rollout.Proofs.Text.Bytes
import Rollout.Proofs.Text.Digits
import Rollout.Proofs.Text.Pieces
import Rollout.Proofs.Time.Moment
import Rollout.Rehearsal.Agents
import Rollout.Rehearsal.Calls
import Rollout.Rehearsal.Install
import Rollout.Rehearsal.ShellLine
import Rollout.Rehearsal.ShellRun
import Rollout.Rehearsal.Stage
import Rollout.Rehearsal.Workstation
import Rollout.Remote.Breaker
import Rollout.Remote.Call
import Rollout.Remote.Guard
import Rollout.Remote.Script
import Rollout.Remote.Shell
import Rollout.Remote.Ssh
import Rollout.Retry.Backoff
import Rollout.Retry.Policy
import Rollout.Run.Attempt
import Rollout.Run.Control
import Rollout.Run.Record
import Rollout.Run.Report
import Rollout.Run.ReportJson
import Rollout.Run.Summary
import Rollout.Run.Transition
import Rollout.Settings.Basic
import Rollout.Settings.Reader
import Rollout.Settings.Store
import Rollout.Text.Blank
import Rollout.Text.LossyUtf8
import Rollout.Text.Quoted
import Rollout.Text.Search
import Rollout.Time.Moment
import Rollout.Time.Span
