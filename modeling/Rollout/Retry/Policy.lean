import Rollout.Fault
import Rollout.Number.Binary64
import Rollout.Retry.Backoff

namespace Rollout

inductive StepKind
  | push
  | command
  | serviceStart
  | verify
  deriving DecidableEq, Repr, Inhabited

namespace StepKind

def all : List StepKind := [.push, .command, .serviceStart, .verify]

def name : StepKind → String
  | .push => "push"
  | .command => "command"
  | .serviceStart => "service_start"
  | .verify => "verify"

def ofName? (s : String) : Option StepKind := all.find? fun k ↦ k.name == s

def defaultRetryable : StepKind → Bool
  | .push | .serviceStart => true
  | _ => false

end StepKind

structure RetryPolicy where
  maxAttempts : Nat := 3
  initialBackoff : Nat := 1000
  maxBackoff : Nat := 30000
  multiplier : Binary64 := .ofNat 2
  deriving DecidableEq, Repr, Inhabited

namespace RetryPolicy

def noRetry : RetryPolicy := { maxAttempts := 1 }

def withMaxAttempts (p : RetryPolicy) (n : Nat) : RetryPolicy := { p with maxAttempts := max n 1 }

/-- Other delays, in whole milliseconds of 64 bits. -/
def withBackoff (p : RetryPolicy) (initial max : Span) : RetryPolicy :=
  { p with initialBackoff := initial.millis % word64, maxBackoff := max.millis % word64 }

def allowsRetry (p : RetryPolicy) (attempts : Nat) : Bool := attempts < p.maxAttempts

/-- The exponent of the factor after the given attempt: one less than its number, read as a signed
word of 32 bits. -/
def exponent (attempt : Nat) : Int := (attempt - 1 : Nat).toInt32.toInt

/-- The delay after the given failed attempt, counted from one. -/
def backoffFor (p : RetryPolicy) (attempt : Nat) : Span :=
  let factor := p.multiplier.atLeastOne.pow (exponent attempt)
  let delay := ((Binary64.ofNat p.initialBackoff).mul factor).toWord
  .ofMillis (min delay p.maxBackoff)

def backoff (p : RetryPolicy) : Backoff :=
  (Backoff.new (.ofMillis p.initialBackoff) (.ofMillis p.maxBackoff)).withMultiplier p.multiplier

end RetryPolicy

structure RetryPolicies where
  push : RetryPolicy := {}
  command : RetryPolicy := {}
  serviceStart : RetryPolicy := {}
  deriving DecidableEq, Repr, Inhabited

namespace RetryPolicies

def forKind (p : RetryPolicies) : StepKind → RetryPolicy
  | .push => p.push
  | .command => p.command
  | .serviceStart => p.serviceStart
  | .verify => .noRetry

def uniform (p : RetryPolicy) : RetryPolicies := ⟨p, p, p⟩

end RetryPolicies

/-- How long to wait before a step is tried again after its attempt number `attempts` failed, or
`none` if it is not. Connection failures and timeouts are repeated for every kind but
verifications, failed commands only where the step allows it. -/
def retryDelay (kind : StepKind) (retryable : Bool) (fault : Fault) (attempts : Nat)
    (policy : RetryPolicy) : Option Span :=
  if kind = .verify then none
  else if (fault.isTransient || (retryable && fault.isExec)) && policy.allowsRetry attempts then
    some (policy.backoffFor attempts)
  else none

end Rollout
