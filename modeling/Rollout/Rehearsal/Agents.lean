import Rollout.Agents.Supervisor
import Rollout.Rehearsal.Stage

namespace Rollout

/-- What is rehearsed: a request, or the supervisor. -/
inductive AgentTask
  | request (r : AgentRequest)
  | work (w : AgentWork)
  | supervisor (s : Supervisor)
  deriving Inhabited

/-- The fleet, the answers so far, latest first, and whether the supervisor is to stop. -/
structure AgentScene where
  fleet : Fleet
  answers : List AgentAnswer := []
  stopping : Bool := false

namespace AgentScene

def carry (s : AgentScene) : Move AgentWork AgentAnswer → AgentScene × Move AgentTask Unit
  | .call c within w => (s, .call c within (.work w))
  | .pause d w => (s, .pause d (.work w))
  | .done a => ({ s with answers := a :: s.answers }, .done ())

def carrySupervisor (s : AgentScene) :
    Move Supervisor SupervisorEnd → AgentScene × Move AgentTask Unit
  | .call c within x => (s, .call c within (.supervisor x))
  | .pause d x => (s, .pause d (.supervisor x))
  | .done .stopped => (s, .done ())
  | .done .brokenOff => ({ s with answers := .brokenOff :: s.answers }, .done ())

def start (now : Span) (s : AgentScene) : AgentTask → AgentScene × Move AgentTask Unit
  | .request r => s.carry (s.fleet.answerRequest r)
  | .work w => (s, .pause .zero (.work w))
  | .supervisor x =>
    s.carrySupervisor (x.begin now s.fleet.settings.superviseInterval s.stopping)

def resume (now : Span) (s : AgentScene) (task : AgentTask) (w : Wake) :
    AgentScene × Move AgentTask Unit :=
  match task with
  | .request r => s.carry (s.fleet.answerRequest r)
  | .work work =>
    let (fleet, m) := work.resume now s.fleet w
    { s with fleet := fleet }.carry m
  | .supervisor x =>
    let (fleet, m) := x.resume now s.fleet s.stopping w
    { s with fleet := fleet }.carrySupervisor m

def play : Play Nat AgentTask AgentScene where
  start := fun now s _ task ↦ s.start now task
  resume := fun now s _ task w ↦ s.resume now task w
  direct := fun _ s ↦ (s, [])
  isWaiting := fun _ ↦ false

end AgentScene

abbrev AgentStage (ε π : Type) := Stage Nat AgentTask AgentScene ε π

namespace AgentStage

variable {ε π : Type}

def request (s : AgentStage ε π) (r : AgentRequest) : AgentStage ε π × Option AgentAnswer :=
  let s := Stage.finish (Stage.add 0 (.request r) { s with shared.answers := [] })
  (s, s.shared.answers.head?)

def brokeOff (s : AgentStage ε π) : Bool :=
  s.shared.answers.any fun
    | .brokenOff => true
    | _ => false

/-- Lets the supervisor work for a while and then stop. A pass that is under way is completed. -/
def supervise (s : AgentStage ε π) (millis : Nat) : AgentStage ε π :=
  let s := Stage.add 0 (.supervisor { start := s.time }) { s with shared.answers := [] }
  let s := Stage.runTo (s.now + millis) s
  let s := match s.situation? 0 with
    | some (.resting _ (.supervisor { start := _, passes := _, pass := none })) =>
      s.obey (.abort 0)
    | _ => { s with shared.stopping := true }
  let s := Stage.finish s
  { s with shared.stopping := false }

end AgentStage

end Rollout
