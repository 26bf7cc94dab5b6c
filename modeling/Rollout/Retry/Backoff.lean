import Rollout.Number.Binary64
import Rollout.Time.Span

namespace Rollout

/-- A sequence of growing delays and the place in it. -/
structure Backoff where
  initial : Span
  current : Span
  max : Span
  multiplier : Binary64
  deriving DecidableEq, Repr, Inhabited

namespace Backoff

def new (initial max : Span) : Backoff := ⟨initial, initial, max, .ofNat 2⟩

def withMultiplier (b : Backoff) (m : Binary64) : Backoff := { b with multiplier := m.atLeastOne }

def delay (b : Backoff) : Span := b.current.min b.max

def advance (b : Backoff) : Backoff :=
  let grown := ((Binary64.ofNat b.current.nanos).mul b.multiplier).toWord
  { b with current := (Span.mk grown).min b.max }

def reset (b : Backoff) : Backoff := { b with current := b.initial }

end Backoff

/-- Side work under way: attempts still allowed, and the delays to come. -/
structure Tolerant where
  left : Nat
  backoff : Backoff
  deriving DecidableEq, Repr, Inhabited

inductive Tolerant.Next (α : Type)
  | succeeded (a : α)
  | givenUp
  | retry (after : Span) (rest : Tolerant)

namespace Tolerant

def new (attempts : Nat) : Tolerant := ⟨attempts, .new (.ofMillis 100) (.ofSeconds 5)⟩

def next {α : Type} (w : Tolerant) : Option α → Next α
  | some a => .succeeded a
  | none =>
    if w.left ≤ 1 then .givenUp
    else .retry w.backoff.delay ⟨w.left - 1, w.backoff.advance⟩

/-- What is tried. Attempts are counted from zero; `outcome n` is what the `n`-th one gives, and
`takes n` the time it takes. -/
structure Trial (α : Type) where
  outcome : Nat → Option α
  takes : Nat → Span

structure Stretch where
  since : Span
  till : Span
  deriving DecidableEq, Repr

/-- A whole course of side work: its attempts, its pauses, the time of its end, and its value if an
attempt succeeded. -/
structure Course (α : Type) where
  attempts : List Stretch
  pauses : List Stretch
  endsAt : Span
  value : Option α

def Course.starts {α : Type} (c : Course α) : List Nat := c.attempts.map fun s ↦ s.since.millis

def Course.ended {α : Type} (c : Course α) : Nat := c.endsAt.millis

/-- The course from the `n`-th attempt at time `now` on; `left` attempts are allowed. -/
def courseFrom {α : Type} (trial : Trial α) : (left : Nat) → Backoff → (n : Nat) → Span → Course α
  | 0, _, _, now => ⟨[], [], now, none⟩
  | left + 1, backoff, n, now =>
    let till := (trial.takes n).after now
    match (Tolerant.mk (left + 1) backoff).next (trial.outcome n) with
    | .succeeded a => ⟨[⟨now, till⟩], [], till, some a⟩
    | .givenUp => ⟨[⟨now, till⟩], [], till, none⟩
    | .retry delay rest =>
      let c := courseFrom trial left rest.backoff (n + 1) (delay.after till)
      { c with
        attempts := ⟨now, till⟩ :: c.attempts
        pauses := ⟨till, delay.after till⟩ :: c.pauses }

def courseOf {α : Type} (trial : Trial α) (attempts : Nat) (begun : Span) : Course α :=
  courseFrom trial attempts (new attempts).backoff 0 begun

def course {α : Type} (outcome : Nat → Option α) (attempts : Nat) : Course α :=
  courseOf ⟨outcome, fun _ ↦ .zero⟩ attempts .zero

/-- One attempt, which takes no time, and whose failure is dropped. -/
def once {α : Type} (outcome : Nat → Option α) : Course α :=
  ⟨[⟨.zero, .zero⟩], [], .zero, outcome 0⟩

end Tolerant

end Rollout
