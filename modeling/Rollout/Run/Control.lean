import Rollout.Retry.Policy
import Rollout.Run.Report

namespace Rollout

structure Job where
  plan : Plan
  inventory : Inventory
  workers : Nat
  commandTimeout : Span
  retry : RetryPolicies
  /-- Whether collector agents are started on the hosts. -/
  agents : Bool

inductive RunOrder
  | attempt (id : Nat)
  | retryLater (id : Nat) (delay : Span)
  | startAgent (host : String)
  | abandonAgent (host : String)
  deriving DecidableEq, Repr, Inhabited

inductive RunMessage
  | finished (id : Nat) (outcome : Result Bool)
  | retryDue (id : Nat)
  | agentDone (host : String) (outcome : Result AgentHealth)

/-- The state of the control. `remaining` counts for every step the predecessors that have not
succeeded; `ready` are the steps that can begin, in increasing order. `history` are the changes of
the report, the latest first: who reads the report during the run sees it between two of them. -/
structure Control where
  report : Report
  history : List Change := []
  remaining : List Nat
  ready : List Nat
  inFlight : Nat := 0
  waitingRetry : Nat := 0
  agentStarts : List String := []
  cancelled : Bool := false
  outbox : List RunOrder := []
  deriving DecidableEq, Repr, Inhabited

namespace Job

def timeoutOf (j : Job) (s : Step) : Span := s.timeout.getD j.commandTimeout

end Job

namespace Control

def order (o : RunOrder) (c : Control) : Control := { c with outbox := c.outbox ++ [o] }

def write (x : Change) (c : Control) : Control :=
  { c with report := c.report.change x, history := x :: c.history }

def apply (now : Moment) (id : Nat) (e : StepEvent) (c : Control) : Control × Applied :=
  let (report, applied) := c.report.apply now id e
  ({ c with report := report, history := .event now id e :: c.history }, applied)

def startAgent (j : Job) (host : String) (c : Control) : Control :=
  if c.cancelled || !j.agents || (j.inventory.find? host).isNone then c
  else { c with agentStarts := c.agentStarts ++ [host] }.order (.startAgent host)

def hostChanged (j : Job) (host : String) (change : Option Status) (c : Control) : Control :=
  if change = some .succeeded then c.startAgent j host else c

def dispatch (j : Job) (now : Moment) (id : Nat) (c : Control) : Control :=
  match j.plan.step? id with
  | none => c
  | some _ =>
    let (c, applied) := c.apply now id .dispatched
    if applied.state = .inProgress then
      { c with inFlight := c.inFlight + 1 }.order (.attempt id)
    else c

/-- Begins ready steps while there are free workers; every round takes one. -/
def dispatchReady (j : Job) (now : Moment) : (rounds : Nat) → Control → Control
  | 0, c => c
  | rounds + 1, c =>
    if c.cancelled || j.workers ≤ c.inFlight then c
    else
      match c.ready with
      | [] => c
      | id :: ready => dispatchReady j now rounds ({ c with ready := ready }.dispatch j now id)

def fill (j : Job) (now : Moment) (c : Control) : Control :=
  c.dispatchReady j now c.ready.length

def isOver (c : Control) : Bool :=
  c.inFlight == 0 && c.waitingRetry == 0 && c.agentStarts.isEmpty &&
    (c.ready.isEmpty || c.cancelled)

def addReady (id : Nat) (c : Control) : Control := { c with ready := Plan.insertId id c.ready }

def releaseStep (c : Control) (id : Nat) : Control :=
  let count := (c.remaining[id]?).getD 0 - 1
  let c := { c with remaining := c.remaining.set id count }
  if count = 0 && !c.cancelled && c.report.stepState id == some .pending then c.addReady id else c

def skipStep (j : Job) (now : Moment) (cause : String) (c : Control) (id : Nat) : Control :=
  if c.report.stepState id == some .pending then
    let c := { c with ready := c.ready.filter fun r ↦ r ≠ id }
    let (c, applied) := c.apply now id (.dependencyFailed cause)
    match j.plan.step? id with
    | some s => c.hostChanged j s.host applied.hostChange
    | none => c
  else c

def skipDependents (j : Job) (now : Moment) (id : Nat) (cause : String) (c : Control) : Control :=
  (j.plan.dependents id).foldl (skipStep j now cause) c

def perform (j : Job) (now : Moment) (id : Nat) (label : String) (c : Control) :
    StepEffect → Control
  | .scheduleRetry delay =>
    { c with waitingRetry := c.waitingRetry + 1 }.order (.retryLater id delay)
  | .releaseDependents => (j.plan.successors id).foldl releaseStep c
  | .skipDependents => c.skipDependents j now id label
  | _ => c

/-- The event that the outcome of an attempt is. A cancelled run repeats nothing. -/
def outcomeEvent (j : Job) (c : Control) (s : Step) : Result Bool → StepEvent
  | .ok alreadySatisfied => .completed alreadySatisfied
  | .error fault =>
    .failed fault.message
      (if c.cancelled then none
       else retryDelay s.kind s.retryable fault (c.report.attempts s.id) (j.retry.forKind s.kind))

def stepFinished (j : Job) (now : Moment) (s : Step) (outcome : Result Bool) (c : Control) :
    Control :=
  let (c, applied) := c.apply now s.id (c.outcomeEvent j s outcome)
  (applied.effects.foldl (perform j now s.id s.label) c).hostChanged j s.host applied.hostChange

def handle (j : Job) (now : Moment) (c : Control) : RunMessage → Control
  | .finished id outcome =>
    let c := { c with inFlight := c.inFlight - 1 }
    match j.plan.step? id with
    | some s => c.stepFinished j now s outcome
    | none => c
  | .retryDue id =>
    let c := { c with waitingRetry := c.waitingRetry - 1 }
    if !c.cancelled && c.report.stepState id == some .pending then c.addReady id else c
  | .agentDone host outcome =>
    if c.agentStarts.contains host then
      let c := { c with agentStarts := c.agentStarts.erase host }
      match outcome with
      | .ok health => c.write (.agent host health false)
      | .error _ => c.write (.agent host .unhealthy true)
    else c

def abandonAgent (c : Control) (host : String) : Control :=
  (c.write (.agent host .unknown false)).order (.abandonAgent host)

def applyIfPending (now : Moment) (e : StepEvent) (c : Control) (id : Nat) : Control :=
  if c.report.stepState id == some .pending then (c.apply now id e).1 else c

def applyToPending (j : Job) (now : Moment) (e : StepEvent) (c : Control) : Control :=
  (j.plan.steps.map Step.id).foldl (applyIfPending now e) c

def cancel (j : Job) (now : Moment) (c : Control) : Control :=
  let starts := c.agentStarts
  let c := { c with
    cancelled := true
    ready := []
    waitingRetry := 0
    agentStarts := [] }
  (starts.foldl abandonAgent (c.write .cancelled)).applyToPending j now .cancelled

def initial (j : Job) (runId : String) (now : Moment) : Control where
  report := .start runId now j.plan j.inventory
  remaining := j.plan.steps.map fun s ↦ s.predecessors.length
  ready := (j.plan.steps.filter fun s ↦ s.predecessors.isEmpty).map Step.id

def start (j : Job) (now : Moment) (cancelled : Bool) (c : Control) : Control :=
  let c := if cancelled then c.cancel j now else c
  c.report.succeededHosts.foldl (fun c host ↦ c.startAgent j host) c

/-- The run ends. Nothing is reported as pending. -/
def finish (j : Job) (now : Moment) (c : Control) : Control :=
  let e : StepEvent :=
    if c.cancelled then .cancelled else .dependencyFailed "prerequisites never completed"
  (c.applyToPending j now e).write (.finished now)

def takeOrders (c : Control) : Control × List RunOrder := ({ c with outbox := [] }, c.outbox)

end Control

end Rollout
