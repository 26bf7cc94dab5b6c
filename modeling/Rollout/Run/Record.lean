import Rollout.Cluster.Status
import Rollout.Plan.Step
import Rollout.Run.Transition
import Rollout.Time.Moment

namespace Rollout

structure StepRecord where
  id : Nat
  host : String
  role : Role
  name : String
  kind : StepKind
  state : Status := .pending
  attempts : Nat := 0
  alreadySatisfied : Bool := false
  error : Option String := none
  skippedBecause : Option String := none
  startedAt : Option Moment := none
  finishedAt : Option Moment := none
  deriving DecidableEq, Repr, Inhabited

namespace StepRecord

def ofStep (s : Step) : StepRecord where
  id := s.id
  host := s.host
  role := s.role
  name := s.name
  kind := s.kind

def label (r : StepRecord) : String := r.host ++ "/" ++ r.role.name ++ "/" ++ r.name

def isLog : StepEffect → Bool
  | .logActivity _ => true
  | _ => false

/-- Notes one of the effects of a change of state. Errors of earlier attempts do not outlive a
success. -/
def note (now : Moment) (effects : List StepEffect) (r : StepRecord) : StepEffect → StepRecord
  | .execute =>
    { r with attempts := r.attempts + 1, startedAt := some (r.startedAt.getD now) }
  | .releaseDependents => { r with error := none, alreadySatisfied := effects.any isLog }
  | .recordError error => { r with error := some error }
  | .recordSkip reason => { r with skippedBecause := some reason }
  | _ => r

def apply (now : Moment) (r : StepRecord) (e : StepEvent) : StepRecord × List StepEffect :=
  let (state, effects) := r.state.next e
  let r := effects.foldl (note now effects) { r with state := state }
  (if state.isTerminal then { r with finishedAt := some now } else r, effects)

end StepRecord

structure HostRecord where
  address : String
  roles : List Role
  state : Status := .pending
  failedStep : Option String := none
  lastError : Option String := none
  skippedBecause : Option String := none
  agentHealth : Option AgentHealth := none
  monitoringDegraded : Bool := false
  deriving DecidableEq, Repr, Inhabited

namespace HostRecord

def stateOf (steps : List StepRecord) : Status :=
  if steps.any fun s ↦ s.state == .failed then .failed
  else if steps.all fun s ↦ s.state == .succeeded then .succeeded
  else if steps.all fun s ↦ s.state == .pending then .pending
  else if steps.all fun s ↦ s.state.isTerminal then .skipped
  else .inProgress

def rollUp (steps : List StepRecord) (h : HostRecord) : HostRecord :=
  let state := stateOf steps
  let h := match steps.find? fun s ↦ s.state == .failed with
    | some s => { h with failedStep := some s.name, lastError := s.error }
    | none => h
  let h := if state = .skipped then
      { h with skippedBecause :=
          (steps.find? fun s ↦ s.state == .skipped).bind StepRecord.skippedBecause }
    else h
  { h with state := state }

end HostRecord

end Rollout
