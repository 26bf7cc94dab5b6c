import Rollout.Text.Search
import Rollout.Time.Span

namespace Rollout

structure RunSettings where
  workers : Nat := 4
  commandTimeoutSeconds : Nat := 300
  stateDir : String := ".pfsmon"
  startAgents : Bool := true
  deriving DecidableEq, Repr, Inhabited

/-- How commands and files reach the hosts, and how hosts that refuse connections are fenced. -/
structure TransportSettings where
  sshProgram : String := "ssh"
  scpProgram : String := "scp"
  user : Option String := none
  identityFile : Option String := none
  port : Option Nat := none
  connectTimeoutSeconds : Nat := 10
  maxInFlight : Nat := 16
  breakerThreshold : Nat := 3
  breakerCooldownSeconds : Nat := 60
  deriving DecidableEq, Repr, Inhabited

structure AgentSettings where
  startCommand : String :=
    "nohup pfsmon agent run --host \x7bhost\x7d --interval \x7binterval\x7d --sink \x7bsink\x7d " ++
      ">/var/log/pfsmon-agent.log 2>&1 &"
  healthCommand : String := "pgrep -f 'pfsmon agent run'"
  stopCommand : String := "pkill -f 'pfsmon agent run' || true"
  intervalSeconds : Nat := 10
  startTimeoutSeconds : Nat := 60
  pollInitialBackoff : Nat := 500
  pollMaxBackoff : Nat := 8000
  superviseIntervalSeconds : Nat := 30
  deriving DecidableEq, Repr, Inhabited

structure PipelineSettings where
  sinkUrl : String := "http://localhost:8086/write?db=pfsmon"
  sampleIntervalSeconds : Nat := 10
  flushIntervalSeconds : Nat := 10
  batchSize : Nat := 500
  bufferCapacity : Nat := 10000
  sinkInitialBackoff : Nat := 1000
  sinkMaxBackoff : Nat := 60000
  procRoot : String := "/proc"
  statsDir : Option String := none
  deriving DecidableEq, Repr, Inhabited

structure Settings where
  run : RunSettings := {}
  transport : TransportSettings := {}
  agent : AgentSettings := {}
  pipeline : PipelineSettings := {}
  deriving DecidableEq, Repr, Inhabited

namespace RunSettings

def commandTimeout (s : RunSettings) : Span := .ofSeconds s.commandTimeoutSeconds

end RunSettings

namespace AgentSettings

def interval (s : AgentSettings) : Span := .ofSeconds s.intervalSeconds

def startTimeout (s : AgentSettings) : Span := .ofSeconds s.startTimeoutSeconds

def superviseInterval (s : AgentSettings) : Span := .ofSeconds s.superviseIntervalSeconds

/-- A command with its placeholders for host, interval in seconds and sink filled in, in this
order. -/
def render (template host : String) (interval : Span) (sink : String) : String :=
  let t := Text.replace template "\x7bhost\x7d" host
  let t := Text.replace t "\x7binterval\x7d" (Text.decimal interval.seconds)
  Text.replace t "\x7bsink\x7d" sink

end AgentSettings

namespace PipelineSettings

def sampleInterval (s : PipelineSettings) : Span := .ofSeconds s.sampleIntervalSeconds

def flushInterval (s : PipelineSettings) : Span := .ofSeconds s.flushIntervalSeconds

end PipelineSettings

end Rollout
