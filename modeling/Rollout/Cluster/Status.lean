import Rollout.Text.Search

namespace Rollout

inductive Status
  | pending
  | inProgress
  | succeeded
  | failed
  | skipped
  deriving DecidableEq, Repr, Inhabited

namespace Status

def all : List Status := [.pending, .inProgress, .succeeded, .failed, .skipped]

def name : Status → String
  | .pending => "pending"
  | .inProgress => "in_progress"
  | .succeeded => "succeeded"
  | .failed => "failed"
  | .skipped => "skipped"

def ofName? (s : String) : Option Status := all.find? fun x ↦ x.name == s

/-- The state with this name, in letters of either case; `in_progress` also without its line. -/
def parse? (s : String) : Option Status :=
  let w := Text.foldedCase s
  if w == "inprogress" then some .inProgress else ofName? w

def invalidMessage (s : String) : String := "Invalid state: " ++ s

def isTerminal : Status → Bool
  | .succeeded | .failed | .skipped => true
  | _ => false

end Status

inductive AgentHealth
  | unknown
  | healthy
  | unhealthy
  | stopped
  deriving DecidableEq, Repr, Inhabited

namespace AgentHealth

def all : List AgentHealth := [.unknown, .healthy, .unhealthy, .stopped]

def name : AgentHealth → String
  | .unknown => "unknown"
  | .healthy => "healthy"
  | .unhealthy => "unhealthy"
  | .stopped => "stopped"

def ofName? (s : String) : Option AgentHealth := all.find? fun h ↦ h.name == s

end AgentHealth

end Rollout
