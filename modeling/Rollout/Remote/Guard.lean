import Rollout.Remote.Breaker
import Rollout.Remote.Call

namespace Rollout

/-- A guard for calls with names of type `τ`. -/
structure Guard (τ : Type) where
  limit : Nat
  threshold : UInt32
  cooldown : Span
  breakers : List (String × Breaker) := []
  running : List τ := []
  waiting : List τ := []
  deriving Inhabited

namespace Guard

variable {τ : Type}

def new (maxInFlight : Nat) (threshold : UInt32) (cooldown : Span) : Guard τ where
  limit := max maxInFlight 1
  threshold := threshold
  cooldown := cooldown

def breaker (g : Guard τ) (host : String) : Breaker :=
  ((g.breakers.find? fun p ↦ p.1 == host).map (·.2)).getD (.new g.threshold g.cooldown)

def setBreaker (g : Guard τ) (host : String) (b : Breaker) : Guard τ :=
  { g with breakers := (host, b) :: g.breakers.filter fun p ↦ p.1 != host }

/-- A guard for other calls that knows the same hosts; none of them is under way. -/
def withoutCalls {τ' : Type} (g : Guard τ) : Guard τ' where
  limit := g.limit
  threshold := g.threshold
  cooldown := g.cooldown
  breakers := g.breakers

inductive Admission
  | rejected (fault : Fault)
  | begins
  | waits
  deriving DecidableEq, Repr, Inhabited

def fencedFault (host : String) (b : Breaker) (now : UInt64) : Fault :=
  .connect host ("host fenced after " ++ Text.decimal b.failures.toNat ++
    " connect failures, next attempt in " ++ Text.decimal (b.untilRetry now).toNat ++ "ms")

/-- What becomes of a call that asks the breaker of its host, if it is turned away. -/
def refusal? (g : Guard τ) (now : UInt64) (host : String) : Option Fault :=
  let b := g.breaker host
  if b.admits now then none else some (fencedFault host b now)

/-- A call that was let through takes a place if one is free, and waits in line otherwise. -/
def enter (g : Guard τ) (t : τ) : Guard τ × Bool :=
  if g.running.length < g.limit then ({ g with running := g.running ++ [t] }, true)
  else ({ g with waiting := g.waiting ++ [t] }, false)

def arrive (g : Guard τ) (now : UInt64) (t : τ) (host : String) : Guard τ × Admission :=
  match g.refusal? now host with
  | some fault => (g, .rejected fault)
  | none =>
    let (g, begins) := g.enter t
    (g, if begins then .begins else .waits)

variable [DecidableEq τ]

def release (g : Guard τ) (t : τ) : Guard τ × Option τ :=
  let running := g.running.erase t
  match g.waiting with
  | [] => ({ g with running := running }, none)
  | next :: waiting => ({ g with running := running ++ [next], waiting := waiting }, some next)

/-- Takes note of a reply. Only connection failures and successes say something about a host. -/
def record (g : Guard τ) (now : UInt64) (host : String) : Reply → Guard τ
  | .ok _ => g.setBreaker host (g.breaker host).recordSuccess
  | .error fault =>
    if fault.isConnect then g.setBreaker host ((g.breaker host).recordFailure now) else g

def finish (g : Guard τ) (now : UInt64) (t : τ) (host : String) (r : Reply) :
    Guard τ × Option τ :=
  (g.record now host r).release t

def abandon (g : Guard τ) (t : τ) : Guard τ × Option τ :=
  if g.running.contains t then g.release t
  else ({ g with waiting := g.waiting.erase t }, none)

end Guard

end Rollout
