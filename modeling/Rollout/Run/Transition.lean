import Rollout.Cluster.Status
import Rollout.Text.Quoted
import Rollout.Time.Span

namespace Rollout

inductive StepEvent
  | dispatched
  | completed (alreadySatisfied : Bool)
  | failed (error : String) (retryAfter : Option Span)
  | dependencyFailed (cause : String)
  | cancelled
  deriving DecidableEq, Repr, Inhabited

inductive StepEffect
  | execute
  | scheduleRetry (delay : Span)
  | releaseDependents
  | skipDependents
  | recordError (error : String)
  | recordSkip (reason : String)
  | logActivity (message : String)
  deriving DecidableEq, Repr, Inhabited

namespace StepEvent

def flagText (b : Bool) : String := if b then "true" else "false"

def text : StepEvent → String
  | .dispatched => "Dispatched"
  | .completed b => "Completed \x7b already_satisfied: " ++ flagText b ++ " \x7d"
  | .failed error none =>
    "Failed \x7b error: " ++ Text.quoted error ++ ", retry_after: None \x7d"
  | .failed error (some delay) =>
    "Failed \x7b error: " ++ Text.quoted error ++ ", retry_after: Some(" ++ delay.text ++ ") \x7d"
  | .dependencyFailed cause => "DependencyFailed \x7b cause: " ++ Text.quoted cause ++ " \x7d"
  | .cancelled => "Cancelled"

end StepEvent

namespace Status

/-- The next state, and what has to be done. An event that a state does not allow is a failure. -/
def next : Status → StepEvent → Status × List StepEffect
  | .pending, .dispatched => (.inProgress, [.execute])
  | .inProgress, .completed alreadySatisfied =>
    (.succeeded, .releaseDependents ::
      if alreadySatisfied then [.logActivity "already satisfied, action skipped"] else [])
  | .inProgress, .failed error (some delay) =>
    (.pending,
      [.logActivity ("failed, retrying in " ++ delay.text ++ ": " ++ error), .recordError error,
        .scheduleRetry delay])
  | .inProgress, .failed error none => (.failed, [.recordError error, .skipDependents])
  | .pending, .dependencyFailed cause => (.skipped, [.recordSkip ("dependency failed: " ++ cause)])
  | .pending, .cancelled => (.skipped, [.recordSkip "run cancelled"])
  | state, event =>
    (.failed, [.recordError ("Invalid step transition: " ++ state.name ++ " cannot handle event " ++
      event.text)])

end Status

end Rollout
