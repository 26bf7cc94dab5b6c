import Rollout.Plan.Step
import Rollout.Remote.Call

namespace Rollout

inductive AttemptStage
  | check
  | action
  deriving DecidableEq, Repr, Inhabited

namespace Step

/-- The call of a step's action, and the limit for its wait: commands keep to their timeout
themselves. -/
def actionCall (s : Step) (timeout : Span) : Call × Option Span :=
  match s.action with
  | .run command => (⟨s.host, .run command timeout⟩, none)
  | .push localPath remotePath => (⟨s.host, .push localPath remotePath⟩, some timeout)

def beginAction (s : Step) (timeout : Span) : Move AttemptStage (Result Bool) :=
  let (c, within) := s.actionCall timeout
  .call c within .action

def beginAttempt (s : Step) (timeout : Span) : Move AttemptStage (Result Bool) :=
  match s.check with
  | some command => .call ⟨s.host, .run command timeout⟩ none .check
  | none => s.beginAction timeout

/-- An attempt goes on. It ends with whether its check showed that nothing had to be done. -/
def continueAttempt (s : Step) (timeout : Span) :
    AttemptStage → Wake → Move AttemptStage (Result Bool)
  | .check, .reply (.ok _) => .done (.ok true)
  | .check, .reply (.error e) => if e.isExec then s.beginAction timeout else .done (.error e)
  | .action, .reply (.ok _) => .done (.ok false)
  | .action, .reply (.error e) => .done (.error e)
  | .check, .rested => s.beginAttempt timeout
  | .action, .rested => s.beginAction timeout

end Step

end Rollout
