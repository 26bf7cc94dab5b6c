import Rollout.Text.Search
import Rollout.Time.Span

namespace Rollout

inductive Fault
  | config (message : String)
  | plan (message : String)
  | connect (host message : String)
  | exec (host : String) (exitCode : Int) (stderr : String)
  | timeout (host : String) (after : Span)
  | agentStart (host message : String)
  | sinkWrite (message : String)
  | orchestrator (message : String)
  | io (message : String)
  | serialization (message : String)
  | other (message : String)
  deriving DecidableEq, Repr, Inhabited

namespace Fault

def message : Fault → String
  | .config m => "Configuration error: " ++ m
  | .plan m => "Plan error: " ++ m
  | .connect host m => "Cannot connect to " ++ host ++ ": " ++ m
  | .exec host code stderr =>
    "Command failed on " ++ host ++ " (exit " ++ Text.signedDecimal code ++ "): " ++ stderr
  | .timeout host after => "Command timed out on " ++ host ++ " after " ++ after.text
  | .agentStart host m => "Collector agent failed to start on " ++ host ++ ": " ++ m
  | .sinkWrite m => "Sink write error: " ++ m
  | .orchestrator m => "Orchestrator error: " ++ m
  | .io m => "I/O error: " ++ m
  | .serialization m => "Serialization error: " ++ m
  | .other m => m

def isTransient : Fault → Bool
  | .connect .. | .timeout .. => true
  | _ => false

def isFatal : Fault → Bool
  | .config _ | .plan _ => true
  | _ => false

def isConnect : Fault → Bool
  | .connect .. => true
  | _ => false

def isExec : Fault → Bool
  | .exec .. => true
  | _ => false

end Fault

abbrev Result (α : Type) := Except Fault α

end Rollout
