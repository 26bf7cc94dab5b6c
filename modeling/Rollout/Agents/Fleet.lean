import Rollout.Cluster.Status
import Rollout.Remote.Call
import Rollout.Settings.Basic

namespace Rollout

structure Agent where
  host : String
  interval : Span
  sink : String
  health : AgentHealth := .unknown
  startedAt : Option Span := none
  lastChecked : Option Span := none
  restarts : UInt32 := 0
  lastError : Option String := none
  deriving DecidableEq, Repr, Inhabited

def Agent.isHealthy (a : Agent) : Bool := a.health == .healthy

structure Fleet where
  settings : AgentSettings
  sink : String
  commandTimeout : Span := .ofSeconds 30
  clock : Clock := {}
  agents : List Agent := []
  deriving DecidableEq, Repr, Inhabited

namespace Fleet

def find? (f : Fleet) (host : String) : Option Agent := f.agents.find? fun a ↦ a.host == host

def unknownAgent (f : Fleet) (host : String) : Agent where
  host := host
  interval := f.settings.interval
  sink := f.sink

def insertAgent (a : Agent) : List Agent → List Agent
  | [] => [a]
  | b :: bs =>
    if a.host == b.host then a :: bs
    else if Text.lt a.host b.host then a :: b :: bs
    else b :: insertAgent a bs

def put (f : Fleet) (a : Agent) : Fleet := { f with agents := insertAgent a f.agents }

/-- An agent after its health was found out. Its last error stays unless there is a new one or the
agent is healthy. -/
def observed (now : Span) (health : AgentHealth) (error : Option String) (a : Agent) : Agent :=
  { a with
    health := health
    startedAt := if health = .healthy && !a.isHealthy then some now else a.startedAt
    lastChecked := some now
    lastError := if error.isSome || health = .healthy then error else a.lastError }

def record (f : Fleet) (now : Span) (host : String) (health : AgentHealth)
    (error : Option String) : Fleet :=
  f.put (observed now health error ((f.find? host).getD (f.unknownAgent host)))

/-- Takes on an agent that was started by someone else. -/
def adopt (f : Fleet) (host : String) : Fleet :=
  if (f.find? host).isSome then f else f.put (f.unknownAgent host)

def activeHosts (f : Fleet) : List String :=
  (f.agents.filter fun a ↦ a.health != .stopped).map Agent.host

def countRestart (f : Fleet) (host : String) : Fleet :=
  match f.find? host with
  | some a => f.put { a with restarts := a.restarts + 1 }
  | none => f

def command (f : Fleet) (template host : String) : Call :=
  ⟨host, .run (AgentSettings.render template host f.settings.interval f.sink) f.commandTimeout⟩

def startCall (f : Fleet) (host : String) : Call := f.command f.settings.startCommand host

def healthCall (f : Fleet) (host : String) : Call := f.command f.settings.healthCommand host

def stopCall (f : Fleet) (host : String) : Call := f.command f.settings.stopCommand host

end Fleet

end Rollout
