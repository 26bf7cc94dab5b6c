import Rollout.Metrics.Queue
import Rollout.Metrics.Reading
import Rollout.Retry.Backoff
import Rollout.Settings.Basic

namespace Rollout

/-- What a sink with states `σ` does with a batch: it takes it, or says why not. -/
structure Sink (σ : Type) where
  write : σ → List Sample → Option Fault × σ

abbrev Sampling := String × Result (List Reading)

structure Pipeline where
  host : String
  settings : PipelineSettings
  queue : BoundedQueue Sample
  backoff : Backoff
  blockedUntil : Option Span := none
  sampled : Nat := 0
  flushed : Nat := 0
  failedWrites : Nat := 0
  samplerErrors : Nat := 0
  deriving DecidableEq, Repr, Inhabited

namespace Pipeline

def new (host : String) (settings : PipelineSettings) : Pipeline where
  host := host
  settings := settings
  queue := .empty settings.bufferCapacity
  backoff := .new (.ofMillis settings.sinkInitialBackoff) (.ofMillis settings.sinkMaxBackoff)

def batchSize (p : Pipeline) : Nat := max p.settings.batchSize 1

def pending (p : Pipeline) : Nat := p.queue.size

def dropped (p : Pipeline) : Nat := p.queue.dropped

def toSample (p : Pipeline) (now : Span) (subsystem : String) (r : Reading) : Sample :=
  ⟨now.nanos, p.host, subsystem, r.1, r.2⟩

def collect (now : Span) (p : Pipeline) : Sampling → Pipeline
  | (subsystem, .ok readings) =>
    { p with
      queue := p.queue.extend (readings.map (p.toSample now subsystem))
      sampled := p.sampled + readings.length }
  | (_, .error _) => { p with samplerErrors := p.samplerErrors + 1 }

/-- Takes over a round of all samplers. A round that broke off is lost, as one error. -/
def sample (now : Span) (p : Pipeline) : Option (List Sampling) → Pipeline
  | some samplings => samplings.foldl (collect now) p
  | none => { p with samplerErrors := p.samplerErrors + 1 }

def acknowledge (p : Pipeline) (batch : List Sample) : Pipeline :=
  { p with
    queue := p.queue.consume batch.length
    backoff := p.backoff.reset
    flushed := p.flushed + batch.length }

def refuse (now : Span) (p : Pipeline) : Pipeline :=
  { p with
    backoff := p.backoff.advance
    blockedUntil := some ⟨now.nanos + p.backoff.delay.nanos⟩
    failedWrites := p.failedWrites + 1 }

variable {σ : Type}

/-- Writes batches until the sink refuses one; `delivered` counts the samples it took. -/
def deliver (sink : Sink σ) (now : Span) :
    List (List Sample) → (delivered : Nat) → Pipeline → σ → Result Nat × Pipeline × σ
  | [], delivered, p, s => (.ok delivered, p, s)
  | batch :: batches, delivered, p, s =>
    match sink.write s batch with
    | (none, s) => deliver sink now batches (delivered + batch.length) (p.acknowledge batch) s
    | (some fault, s) => (.error fault, p.refuse now, s)

def isBlocked (now : Span) (p : Pipeline) : Bool :=
  match p.blockedUntil with
  | some until_ => decide (now < until_)
  | none => false

def flush (sink : Sink σ) (now : Span) (p : Pipeline) (s : σ) : Result Nat × Pipeline × σ :=
  if p.isBlocked now then (.ok 0, p, s)
  else deliver sink now (p.queue.batches p.batchSize) 0 { p with blockedUntil := none } s

/-- Whether the loop of a pipeline can be started: there is time between its ticks, and the clock can
show the first flush tick. -/
def CanRun (c : Clock) (now : Span) (p : Pipeline) : Prop :=
  p.settings.sampleInterval ≠ .zero ∧ p.settings.flushInterval ≠ .zero ∧
    c.Shows (p.settings.flushInterval.after now)

instance (c : Clock) (now : Span) (p : Pipeline) : Decidable (p.CanRun c now) :=
  inferInstanceAs (Decidable (_ ∧ _))

inductive Event
  | sampleTick (round : Option (List Sampling))
  | flushTick
  | stop

/-- One turn of the loop. A sample tick also writes once a whole batch is waiting, and stopping
writes even while writes have to wait. -/
def handle (sink : Sink σ) (now : Span) (p : Pipeline) (s : σ) : Event → Pipeline × σ
  | .sampleTick round =>
    let p := p.sample now round
    if p.settings.batchSize ≤ p.pending then (p.flush sink now s).2 else (p, s)
  | .flushTick => (p.flush sink now s).2
  | .stop => ({ p with blockedUntil := none }.flush sink now s).2

end Pipeline

structure MemorySink where
  samples : List Sample := []
  failing : Bool := false
  attempts : Nat := 0
  deriving DecidableEq, Repr, Inhabited

namespace MemorySink

def write (m : MemorySink) (batch : List Sample) : Option Fault × MemorySink :=
  let m := { m with attempts := m.attempts + 1 }
  if m.failing then (some (.sinkWrite "memory sink set to fail"), m)
  else (none, { m with samples := m.samples ++ batch })

def sink : Sink MemorySink := ⟨write⟩

end MemorySink

end Rollout
