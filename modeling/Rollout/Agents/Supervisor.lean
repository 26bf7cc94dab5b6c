import Rollout.Agents.Work

namespace Rollout

/-- A supervisor: when it started, the number of passes begun so far, and the pass under way. -/
structure Supervisor where
  start : Span
  passes : Nat := 0
  pass : Option AgentWork := none
  deriving DecidableEq, Repr, Inhabited

inductive SupervisorEnd
  | stopped
  | brokenOff
  deriving DecidableEq, Repr, Inhabited

namespace Supervisor

def nextPass (interval : Span) (s : Supervisor) : Span :=
  ⟨s.start.nanos + s.passes * interval.nanos⟩

def await (now interval : Span) (stopping : Bool) (s : Supervisor) :
    Move Supervisor SupervisorEnd :=
  if stopping then .done .stopped
  else .pause ⟨(s.nextPass interval).nanos - now.nanos⟩ { s with pass := none }

/-- The supervisor begins, unless there is no time between its passes. -/
def begin (now interval : Span) (stopping : Bool) (s : Supervisor) :
    Move Supervisor SupervisorEnd :=
  if interval = .zero then .done .brokenOff else s.await now interval stopping

def afterPass (now interval : Span) (stopping : Bool) (s : Supervisor) :
    AgentAnswer → Move Supervisor SupervisorEnd
  | .brokenOff => .done .brokenOff
  | _ => s.await now interval stopping

def passMove (now interval : Span) (stopping : Bool) (s : Supervisor) :
    Move AgentWork AgentAnswer → Move Supervisor SupervisorEnd
  | .call c within work => .call c within { s with pass := some work }
  | .pause d work => .pause d { s with pass := some work }
  | .done a => s.afterPass now interval stopping a

def resume (now : Span) (f : Fleet) (stopping : Bool) (s : Supervisor) (w : Wake) :
    Fleet × Move Supervisor SupervisorEnd :=
  let interval := f.settings.superviseInterval
  match s.pass with
  | some work =>
    let (f, m) := work.resume now f w
    (f, s.passMove now interval stopping m)
  | none =>
    if stopping then (f, .done .stopped)
    else (f, { s with passes := s.passes + 1 }.passMove now interval stopping f.supervise)

end Supervisor

end Rollout
