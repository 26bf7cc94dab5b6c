import Rollout.Inventory.Basic
import Rollout.Plan.Basic
import Rollout.Run.Record

namespace Rollout

inductive Outcome
  | success
  | partialFailure
  | cancelled
  | running
  deriving DecidableEq, Repr, Inhabited

namespace Outcome

def text : Outcome → String
  | .success => "success"
  | .partialFailure => "partial failure"
  | .cancelled => "cancelled"
  | .running => "running"

def name : Outcome → String
  | .partialFailure => "partial"
  | o => o.text

end Outcome

structure Report where
  runId : String
  startedAt : Moment
  finishedAt : Option Moment := none
  cancelled : Bool := false
  hosts : List HostRecord
  steps : List StepRecord
  deriving DecidableEq, Repr, Inhabited

/-- What became of an event that was handed to a step. -/
structure Applied where
  state : Status
  effects : List StepEffect
  /-- The new state of the step's host, if it changed. -/
  hostChange : Option Status
  deriving DecidableEq, Repr, Inhabited

namespace Report

/-- The record of a host before the run. There is nothing left to do on a host without steps. -/
def hostRecord (plan : Plan) (h : Host) : HostRecord where
  address := h.address
  roles := h.roles
  state := if (plan.stepsForHost h.address).isEmpty then .succeeded else .pending

def start (runId : String) (now : Moment) (plan : Plan) (inventory : Inventory) : Report where
  runId := runId
  startedAt := now
  hosts := inventory.hosts.map (hostRecord plan)
  steps := plan.steps.map .ofStep

def outcome (r : Report) : Outcome :=
  if r.finishedAt.isNone then .running
  else if r.cancelled then .cancelled
  else if r.hosts.all fun h ↦ h.state == .succeeded && !h.monitoringDegraded then .success
  else .partialFailure

def exitCode (r : Report) : Nat := if r.outcome = .success then 0 else 2

def host? (r : Report) (address : String) : Option HostRecord :=
  r.hosts.find? fun h ↦ h.address == address

def step? (r : Report) (host name : String) : Option StepRecord :=
  r.steps.find? fun s ↦ s.host == host && s.name == name

def countSteps (r : Report) (state : Status) : Nat :=
  (r.steps.filter fun s ↦ s.state == state).length

def stepState (r : Report) (id : Nat) : Option Status := (r.steps[id]?).map StepRecord.state

def attempts (r : Report) (id : Nat) : Nat := ((r.steps[id]?).map StepRecord.attempts).getD 0

def hostState (r : Report) (address : String) : Option Status :=
  (r.host? address).map HostRecord.state

def succeededHosts (r : Report) : List String :=
  (r.hosts.filter fun h ↦ h.state == .succeeded).map HostRecord.address

def stepsOfHost (r : Report) (address : String) : List StepRecord :=
  r.steps.filter fun s ↦ s.host == address

def modifyHost (address : String) (f : HostRecord → HostRecord) (r : Report) : Report :=
  { r with hosts := r.hosts.map fun h ↦ if h.address == address then f h else h }

def rollUp (r : Report) (address : String) : Report :=
  r.modifyHost address (HostRecord.rollUp (r.stepsOfHost address))

def apply (now : Moment) (r : Report) (id : Nat) (e : StepEvent) : Report × Applied :=
  match r.steps[id]? with
  | none => (r, ⟨.failed, [], none⟩)
  | some s =>
    let (s, effects) := s.apply now e
    let changed := { r with steps := r.steps.set id s }.rollUp s.host
    let after := changed.hostState s.host
    (changed, ⟨s.state, effects, if after = r.hostState s.host then none else after⟩)

def setAgent (address : String) (health : AgentHealth) (degraded : Bool) (r : Report) : Report :=
  r.modifyHost address fun h ↦
    { h with agentHealth := some health, monitoringDegraded := degraded }

def markCancelled (r : Report) : Report := { r with cancelled := true }

def markFinished (now : Moment) (r : Report) : Report := { r with finishedAt := some now }

end Report

/-- A change of a report. -/
inductive Change
  | event (now : Moment) (id : Nat) (e : StepEvent)
  | agent (host : String) (health : AgentHealth) (degraded : Bool)
  | cancelled
  | finished (now : Moment)
  deriving DecidableEq, Repr, Inhabited

def Report.change (r : Report) : Change → Report
  | .event now id e => (r.apply now id e).1
  | .agent host health degraded => r.setAgent host health degraded
  | .cancelled => r.markCancelled
  | .finished now => r.markFinished now

end Rollout
