import Rollout.Agents.Work
import Rollout.Rehearsal.Stage
import Rollout.Run.Attempt
import Rollout.Run.Control

namespace Rollout

inductive InstallTask
  | attempt (id : Nat)
  | retry (id : Nat)
  | agent (host : String)
  deriving DecidableEq, Repr, Inhabited

inductive InstallWork
  | fresh
  | attempt (stage : AttemptStage)
  | retry (delay : Span)
  | agent (w : AgentWork)
  deriving DecidableEq, Repr, Inhabited

/-- Everything that is shared in a run. -/
structure InstallScene where
  job : Job
  control : Control
  fleet : Fleet
  inbox : List RunMessage := []
  begun : Bool := false
  cancelRequested : Bool := false
  /-- When the run ended, in milliseconds. -/
  endedAt : Option Nat := none

namespace InstallScene

def moment (now : Span) : Moment := Moment.origin.later now.millis

def initial (job : Job) (fleet : Fleet) (runId : String) (now : Span) : InstallScene where
  job := job
  control := .initial job runId (moment now)
  fleet := fleet

def post (m : RunMessage) (s : InstallScene) : InstallScene := { s with inbox := s.inbox ++ [m] }

def carryAttempt (id : Nat) (s : InstallScene) :
    Move AttemptStage (Result Bool) → InstallScene × Move InstallWork Unit
  | .call c within stage => (s, .call c within (.attempt stage))
  | .pause d stage => (s, .pause d (.attempt stage))
  | .done outcome => (s.post (.finished id outcome), .done ())

def carryAgent (host : String) (s : InstallScene) :
    Move AgentWork AgentAnswer → InstallScene × Move InstallWork Unit
  | .call c within w => (s, .call c within (.agent w))
  | .pause d w => (s, .pause d (.agent w))
  | .done (.agent r) => (s.post (.agentDone host (r.map Agent.health)), .done ())
  | .done _ => (s, .done ())

def start (s : InstallScene) (t : InstallTask) (work : InstallWork) :
    InstallScene × Move InstallWork Unit :=
  match t, work with
  | .attempt id, _ =>
    match s.job.plan.step? id with
    | some step => s.carryAttempt id (step.beginAttempt (s.job.timeoutOf step))
    | none => (s, .done ())
  | .retry _, .retry delay => (s, .pause delay .fresh)
  | .retry id, _ => (s.post (.retryDue id), .done ())
  | .agent host, _ => s.carryAgent host (s.fleet.answerRequest (.ensure host .succeeded))

def resume (now : Span) (s : InstallScene) (t : InstallTask) (work : InstallWork) (w : Wake) :
    InstallScene × Move InstallWork Unit :=
  match t, work with
  | .attempt id, .attempt stage =>
    match s.job.plan.step? id with
    | some step => s.carryAttempt id (step.continueAttempt (s.job.timeoutOf step) stage w)
    | none => (s, .done ())
  | .retry id, _ => (s.post (.retryDue id), .done ())
  | .agent host, .agent work =>
    let (fleet, m) := work.resume now s.fleet w
    { s with fleet := fleet }.carryAgent host m
  | t, _ => s.start t work

def settle (now : Span) (s : InstallScene) : InstallScene :=
  let control := s.control.fill s.job (moment now)
  if control.isOver then
    { s with control := control.finish s.job (moment now), endedAt := some now.millis }
  else { s with control := control }

def handle (now : Span) (s : InstallScene) (m : RunMessage) : InstallScene :=
  if s.endedAt.isSome then s
  else { s with control := s.control.handle s.job (moment now) m }.settle now

def cancelIfRequested (now : Span) (s : InstallScene) : InstallScene :=
  if s.cancelRequested && !s.control.cancelled && s.endedAt.isNone then
    { s with control := s.control.cancel s.job (moment now) }.settle now
  else s

def stageOrder : RunOrder → Order InstallTask InstallWork
  | .attempt id => .start (.attempt id) .fresh
  | .retryLater id delay => .start (.retry id) (.retry delay)
  | .startAgent host => .start (.agent host) .fresh
  | .abandonAgent host => .abort (.agent host)

def direct (now : Span) (s : InstallScene) : InstallScene × List (Order InstallTask InstallWork) :=
  let s :=
    if !s.begun then
      { s with
        begun := true
        control := s.control.start s.job (moment now) s.cancelRequested }.settle now
    else (s.inbox.foldl (handle now) { s with inbox := [] }).cancelIfRequested now
  let (control, orders) := s.control.takeOrders
  ({ s with control := control }, orders.map stageOrder)

def isWaiting (s : InstallScene) : Bool :=
  s.endedAt.isNone &&
    (!s.begun || !s.inbox.isEmpty || (s.cancelRequested && !s.control.cancelled))

def play : Play InstallTask InstallWork InstallScene where
  start := fun _ ↦ start
  resume := resume
  direct := direct
  isWaiting := isWaiting

end InstallScene

abbrev InstallStage (ε π : Type) := Stage InstallTask InstallWork InstallScene ε π

namespace InstallStage

variable {ε π : Type}

def new (executor : Executor ε π) (clock : Nat → UInt64) (hosts : ε)
    (guard : Option (Guard InstallTask)) (scene : InstallScene) : InstallStage ε π :=
  Stage.callDirector
    { play := InstallScene.play, executor, clock, hosts, shared := scene, guard }

def requestCancel (s : InstallStage ε π) : InstallStage ε π :=
  Stage.change (fun x ↦ { x with cancelRequested := true }) s

def report (s : InstallStage ε π) : Report := s.shared.control.report

end InstallStage

end Rollout
