import Rollout.Fault

namespace Rollout

structure CommandOutput where
  exitCode : Int := 0
  stdout : String := ""
  stderr : String := ""
  deriving DecidableEq, Repr, Inhabited

inductive Operation
  | run (command : String) (timeout : Span)
  | push (localPath remotePath : String)
  deriving DecidableEq, Repr, Inhabited

structure Call where
  host : String
  operation : Operation
  deriving DecidableEq, Repr, Inhabited

/-- The outcome of an operation. A copy that succeeds has an empty output. -/
abbrev Reply := Result CommandOutput

/-- What an activity does next: it calls a host, perhaps within a limit for its whole wait, it
pauses, or it is over. `ω` is what is left to do afterwards. -/
inductive Move (ω α : Type)
  | call (c : Call) (within : Option Span) (rest : ω)
  | pause (d : Span) (rest : ω)
  | done (a : α)
  deriving Repr

inductive Wake
  | reply (r : Reply)
  | rested
  deriving Repr

namespace Move

variable {ω ω' α β : Type}

def mapRest (f : ω → ω') : Move ω α → Move ω' α
  | .call c within rest => .call c within (f rest)
  | .pause d rest => .pause d (f rest)
  | .done a => .done a

def map (f : α → β) : Move ω α → Move ω β
  | .call c within rest => .call c within rest
  | .pause d rest => .pause d rest
  | .done a => .done (f a)

end Move

/-- How far an operation has come: its next stage begins after a while, or it has ended. -/
inductive Progress (π : Type)
  | wait (d : Span) (rest : π)
  | done (reply : Reply)

/-- A way to carry out operations, with states `ε` and stages `π`. -/
structure Executor (ε π : Type) where
  start : Span → ε → Call → ε × Progress π
  resume : Span → ε → π → ε × Progress π

end Rollout
