import Rollout.Agents.Fleet
import Rollout.Cluster.Status
import Rollout.Remote.Call
import Rollout.Retry.Backoff

namespace Rollout

/-- How far the start of an agent has come: the start command is under way, a probe is under way,
or the next probe is due after a pause. -/
inductive StartStage
  | command
  | probe (deadline : Span) (backoff : Backoff)
  | rest (deadline : Span) (backoff : Backoff)
  deriving DecidableEq, Repr, Inhabited

/-- An activity under way. `rest` are the hosts whose turn is still to come. -/
inductive AgentWork
  | start (host : String) (stage : StartStage)
  | check (host : String)
  | stop (host : String)
  | stopAll (host : String) (course : Tolerant) (rest : List String) (stopped : Nat)
  | superviseCheck (host : String) (rest : List String)
  | superviseStart (host : String) (stage : StartStage) (rest : List String)
  deriving DecidableEq, Repr, Inhabited

/-- How a start ends. It breaks off when the clock cannot show a time that it has to reckon with. -/
inductive StartEnd
  | result (r : Result Agent)
  | brokenOff

inductive AgentAnswer
  | agent (r : Result Agent)
  | health (r : Result AgentHealth)
  | stopped (r : Result Unit)
  | count (n : Nat)
  | passed
  | brokenOff

def StartEnd.answer : StartEnd → AgentAnswer
  | .result r => .agent r
  | .brokenOff => .brokenOff

namespace Fleet

def probeBackoff (f : Fleet) : Backoff :=
  .new (.ofMillis f.settings.pollInitialBackoff) (.ofMillis f.settings.pollMaxBackoff)

/-- Until when an agent is given time whose start command has succeeded at `ready`. -/
def deadline (f : Fleet) (ready : Span) : Span := f.settings.startTimeout.after ready

def beginStart (f : Fleet) (host : String) : Move StartStage StartEnd :=
  .call (f.startCall host) none .command

def failStart (f : Fleet) (now : Span) (host message : String) :
    Fleet × Move StartStage StartEnd :=
  (f.record now host .unhealthy (some message),
    .done (.result (.error (.agentStart host message))))

def healthyAgent (f : Fleet) (host : String) : Agent :=
  (f.find? host).getD (f.unknownAgent host)

/-- A start goes on. Probes follow the start command until one succeeds or the next would come after
the deadline. -/
def continueStart (f : Fleet) (now : Span) (host : String) :
    StartStage → Wake → Fleet × Move StartStage StartEnd
  | .command, .reply (.ok _) =>
    if f.clock.Shows (f.deadline now) then
      (f, .call (f.healthCall host) none (.probe (f.deadline now) f.probeBackoff))
    else (f, .done .brokenOff)
  | .command, .reply (.error e) =>
    f.failStart now host ("start command failed: " ++ e.message)
  | .probe _ _, .reply (.ok _) =>
    let f := f.record now host .healthy none
    (f, .done (.result (.ok (f.healthyAgent host))))
  | .probe deadline backoff, .reply (.error e) =>
    let next := backoff.delay.after now
    if ¬f.clock.Shows next then (f, .done .brokenOff)
    else if deadline < next then
      f.failStart now host
        ("not healthy after " ++ f.settings.startTimeout.text ++ ": " ++ e.message)
    else (f, .pause backoff.delay (.rest deadline backoff.advance))
  | .rest deadline backoff, _ =>
    (f, .call (f.healthCall host) none (.probe deadline backoff))
  | .command, .rested => (f, f.beginStart host)
  | .probe deadline backoff, .rested =>
    (f, .call (f.healthCall host) none (.probe deadline backoff))

/-- Makes sure that an agent runs on a host whose installation has this state. An agent that is
known to be healthy is left alone. -/
def ensure (f : Fleet) (host : String) (state : Status) : Move AgentWork AgentAnswer :=
  if state ≠ .succeeded then
    .done (.agent (.error (.agentStart host ("host is " ++ state.name ++ ", not succeeded"))))
  else
    match f.find? host with
    | some a =>
      if a.isHealthy then .done (.agent (.ok a))
      else ((f.beginStart host).mapRest (.start host)).map StartEnd.answer
    | none => ((f.beginStart host).mapRest (.start host)).map StartEnd.answer

def isStopped (f : Fleet) (host : String) : Bool :=
  ((f.find? host).map fun a ↦ a.health == .stopped).getD false

def beginCheck (f : Fleet) (host : String) : Move AgentWork AgentAnswer :=
  if f.isStopped host then .done (.health (.ok .stopped))
  else .call (f.healthCall host) none (.check host)

def probed (f : Fleet) (now : Span) (host : String) : Reply → Fleet × Result AgentHealth
  | .ok _ => (f.record now host .healthy none, .ok .healthy)
  | .error e =>
    if e.isExec then (f.record now host .unhealthy (some e.message), .ok .unhealthy)
    else (f, .error e)

def beginStop (f : Fleet) (host : String) : Move AgentWork AgentAnswer :=
  .call (f.stopCall host) none (.stop host)

def stopReplied (f : Fleet) (now : Span) (host : String) : Reply → Fleet × Result Unit
  | .ok _ => (f.record now host .stopped none, .ok ())
  | .error e => (f, .error e)

def nextStop (f : Fleet) (stopped : Nat) : List String → Move AgentWork AgentAnswer
  | [] => .done (.count stopped)
  | host :: rest => .call (f.stopCall host) none (.stopAll host (.new 3) rest stopped)

/-- Stops every agent that was not stopped, one after the other. -/
def stopAll (f : Fleet) : Move AgentWork AgentAnswer := f.nextStop 0 f.activeHosts

def nextCheck (f : Fleet) : List String → Move AgentWork AgentAnswer
  | [] => .done .passed
  | host :: rest =>
    if f.isStopped host then nextCheck f rest
    else .call (f.healthCall host) none (.superviseCheck host rest)

/-- Looks after every agent that was not stopped: those that are unhealthy are started again. -/
def supervise (f : Fleet) : Move AgentWork AgentAnswer := f.nextCheck f.activeHosts

/-- What a pass goes on with after a start, whose result does not matter. It breaks off with it. -/
def afterStart (f : Fleet) (rest : List String) : StartEnd → Move AgentWork AgentAnswer
  | .result _ => f.nextCheck rest
  | .brokenOff => .done .brokenOff

def superviseMove (f : Fleet) (host : String) (rest : List String) :
    Move StartStage StartEnd → Move AgentWork AgentAnswer
  | .call c within stage => .call c within (.superviseStart host stage rest)
  | .pause d stage => .pause d (.superviseStart host stage rest)
  | .done e => f.afterStart rest e

end Fleet

inductive AgentRequest
  | ensure (host : String) (state : Status)
  | check (host : String)
  | stop (host : String)
  | stopAll
  | supervise
  deriving DecidableEq, Repr, Inhabited

def Fleet.answerRequest (f : Fleet) : AgentRequest → Move AgentWork AgentAnswer
  | .ensure host state => f.ensure host state
  | .check host => f.beginCheck host
  | .stop host => f.beginStop host
  | .stopAll => f.stopAll
  | .supervise => f.supervise

namespace AgentWork

def resume (now : Span) (f : Fleet) : AgentWork → Wake → Fleet × Move AgentWork AgentAnswer
  | .start host stage, w =>
    let (f, m) := f.continueStart now host stage w
    (f, (m.mapRest (.start host)).map StartEnd.answer)
  | .check host, .reply r =>
    let (f, health) := f.probed now host r
    (f, .done (.health health))
  | .check host, .rested => (f, f.beginCheck host)
  | .stop host, .reply r =>
    let (f, result) := f.stopReplied now host r
    (f, .done (.stopped result))
  | .stop host, .rested => (f, f.beginStop host)
  | .stopAll host course rest stopped, .reply r =>
    let (f, result) := f.stopReplied now host r
    match course.next result.toOption with
    | .succeeded _ => (f, f.nextStop (stopped + 1) rest)
    | .givenUp => (f, f.nextStop stopped rest)
    | .retry after course => (f, .pause after (.stopAll host course rest stopped))
  | .stopAll host course rest stopped, .rested =>
    (f, .call (f.stopCall host) none (.stopAll host course rest stopped))
  | .superviseCheck host rest, .reply r =>
    match f.probed now host r with
    | (f, .ok .unhealthy) =>
      let f := f.countRestart host
      (f, f.superviseMove host rest (f.beginStart host))
    | (f, _) => (f, f.nextCheck rest)
  | .superviseCheck host rest, .rested => (f, f.nextCheck (host :: rest))
  | .superviseStart host stage rest, w =>
    let (f, m) := f.continueStart now host stage w
    (f, f.superviseMove host rest m)

end AgentWork

end Rollout
