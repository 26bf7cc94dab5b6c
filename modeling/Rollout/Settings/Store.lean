import Rollout.Document.JsonWriter
import Rollout.Machine.Files
import Rollout.Settings.Basic
import Rollout.Settings.Reader

namespace Rollout.Settings

/-- A string value. None of the texts that settings start with holds a control character. -/
def stringText (s : String) : String := String.ofList (Json.stringChars s)

def textLine (key value : String) : List String := [key ++ " = " ++ stringText value]

def numberLine (key : String) (n : Nat) : List String := [key ++ " = " ++ Text.decimal n]

def flagLine (key : String) (b : Bool) : List String :=
  [key ++ " = " ++ (if b then "true" else "false")]

def optionalLine {α : Type} (line : String → α → List String) (key : String) :
    Option α → List String
  | some a => line key a
  | none => []

def runLines (s : RunSettings) : List String :=
  numberLine "workers" s.workers ++
  numberLine "command_timeout_secs" s.commandTimeoutSeconds ++
  textLine "state_dir" s.stateDir ++
  flagLine "start_agents" s.startAgents

def transportLines (s : TransportSettings) : List String :=
  textLine "ssh_program" s.sshProgram ++
  textLine "scp_program" s.scpProgram ++
  optionalLine textLine "user" s.user ++
  optionalLine textLine "identity_file" s.identityFile ++
  optionalLine numberLine "port" s.port ++
  numberLine "connect_timeout_secs" s.connectTimeoutSeconds ++
  numberLine "max_in_flight" s.maxInFlight ++
  numberLine "breaker_threshold" s.breakerThreshold ++
  numberLine "breaker_cooldown_secs" s.breakerCooldownSeconds

def agentLines (s : AgentSettings) : List String :=
  textLine "start_command" s.startCommand ++
  textLine "health_command" s.healthCommand ++
  textLine "stop_command" s.stopCommand ++
  numberLine "interval_secs" s.intervalSeconds ++
  numberLine "start_timeout_secs" s.startTimeoutSeconds ++
  numberLine "poll_initial_backoff_ms" s.pollInitialBackoff ++
  numberLine "poll_max_backoff_ms" s.pollMaxBackoff ++
  numberLine "supervise_interval_secs" s.superviseIntervalSeconds

def pipelineLines (s : PipelineSettings) : List String :=
  textLine "sink_url" s.sinkUrl ++
  numberLine "sample_interval_secs" s.sampleIntervalSeconds ++
  numberLine "flush_interval_secs" s.flushIntervalSeconds ++
  numberLine "batch_size" s.batchSize ++
  numberLine "buffer_capacity" s.bufferCapacity ++
  numberLine "sink_initial_backoff_ms" s.sinkInitialBackoff ++
  numberLine "sink_max_backoff_ms" s.sinkMaxBackoff ++
  textLine "proc_root" s.procRoot ++
  optionalLine textLine "stats_dir" s.statsDir

def section_ (name : String) (lines : List String) : String :=
  String.join ((("[" ++ name ++ "]") :: lines).map fun l ↦ l ++ "\n")

def write (s : Settings) : String :=
  String.intercalate "\n"
    [section_ "orchestrator" (runLines s.run), section_ "transport" (transportLines s.transport),
      section_ "agent" (agentLines s.agent), section_ "pipeline" (pipelineLines s.pipeline)]

def sample : String := write {}

end Rollout.Settings

namespace Rollout

namespace Settings

def load (files : FileTree) (path : String) : Result Settings :=
  if files.existsAt path then
    match files.read path with
    | .ok content => read content
    | .error e => .error (.ofFile e)
  else .ok {}

def writeSample (files : FileTree) (path : String) : Result FileTree :=
  let made : Except FileFault FileTree := match FileTree.parentText? path with
    | some directory => if directory.isEmpty then .ok files else files.makeDirectories directory
    | none => .ok files
  match made.bind fun files ↦ files.write path sample with
  | .ok files => .ok files
  | .error e => .error (.ofFile e)

end Settings

end Rollout
