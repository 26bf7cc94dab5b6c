import Rollout.Time.Span

namespace Rollout

/-- A breaker. Clock readings are words of milliseconds. -/
structure Breaker where
  threshold : UInt32
  cooldown : Span
  failures : UInt32 := 0
  lastFailure : UInt64 := 0
  deriving DecidableEq, Repr, Inhabited

namespace Breaker

inductive State
  | closed
  | opened
  | halfOpen
  deriving DecidableEq, Repr, Inhabited

def State.name : State → String
  | .closed => "closed"
  | .opened => "open"
  | .halfOpen => "half_open"

def new (threshold : UInt32) (cooldown : Span) : Breaker where
  threshold := max threshold 1
  cooldown := cooldown

/-- Three failures close a host off for a minute. -/
def standard : Breaker := new 3 (.ofSeconds 60)

def cooldownMillis (b : Breaker) : UInt64 := b.cooldown.millis.toUInt64

def elapsed (b : Breaker) (now : UInt64) : UInt64 :=
  if now < b.lastFailure then 0 else now - b.lastFailure

def state (b : Breaker) (now : UInt64) : State :=
  if b.failures < b.threshold then .closed
  else if b.cooldownMillis ≤ b.elapsed now then .halfOpen
  else .opened

def admits (b : Breaker) (now : UInt64) : Bool := b.state now != .opened

def recordSuccess (b : Breaker) : Breaker := { b with failures := 0 }

def recordFailure (b : Breaker) (now : UInt64) : Breaker :=
  { b with failures := b.failures + 1, lastFailure := now }

/-- The milliseconds until an open breaker lets a call through. -/
def untilRetry (b : Breaker) (now : UInt64) : UInt64 :=
  if b.state now = .opened then b.cooldownMillis - b.elapsed now else 0

end Breaker

end Rollout
