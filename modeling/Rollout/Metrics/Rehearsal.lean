import Rollout.Metrics.Pipeline
import Rollout.Metrics.Source

namespace Rollout.Pipeline

/-- What one call of a scripted sampler gives; a call that breaks off loses the whole round. -/
inductive ScriptEntry
  | readings (rs : List Reading)
  | failure (message : String)
  | breaksOff
  deriving Inhabited

inductive Sampler
  | source (s : Source)
  | script (subsystem : String) (entries : List ScriptEntry) (calls : Nat)
  deriving Inhabited

/-- One call of a sampler: what it gives, `none` if it breaks off, and the sampler afterwards. The
last entry of a script is repeated. -/
def Sampler.call (files : FileTree) : Sampler → Option Sampling × Sampler
  | .source s => (some (s.subsystem, s.sample files), .source s)
  | .script subsystem entries calls =>
    let next := Sampler.script subsystem entries (calls + 1)
    match (entries[calls]?).orElse fun _ ↦ entries.getLast? with
    | some (.readings rs) => (some (subsystem, .ok rs), next)
    | some (.failure m) => (some (subsystem, .error (.other m)), next)
    | some .breaksOff => (none, next)
    | none => (some (subsystem, .ok []), next)

def callAll (files : FileTree) : List Sampler → Option (List Sampling) × List Sampler
  | [] => (some [], [])
  | s :: ss =>
    match s.call files with
    | (none, s) => (none, s :: ss)
    | (some sampling, s) =>
      let (rest, ss) := callAll files ss
      (rest.map (sampling :: ·), s :: ss)

/-- A pipeline under rehearsal; the times of the next ticks are in milliseconds. -/
structure Rehearsal where
  pipeline : Pipeline
  sink : MemorySink
  samplers : List Sampler
  files : FileTree
  now : Nat
  nextSample : Nat
  nextFlush : Nat
  stopped : Bool
  deriving Inhabited

namespace Rehearsal

def start (p : Pipeline) (samplers : List Sampler) (files : FileTree) : Rehearsal where
  pipeline := p
  sink := {}
  samplers := samplers
  files := files
  now := 0
  nextSample := 0
  nextFlush := p.settings.flushInterval.millis
  stopped := false

def clock (r : Rehearsal) : Span := .ofMillis r.now

def canRun (r : Rehearsal) : Bool := r.pipeline.CanRun {} r.clock

def sample (r : Rehearsal) : Rehearsal :=
  let (round, samplers) := callAll r.files r.samplers
  { r with pipeline := r.pipeline.sample r.clock round, samplers := samplers }

def flush (r : Rehearsal) : Result Nat × Rehearsal :=
  let (result, p, sink) := r.pipeline.flush MemorySink.sink r.clock r.sink
  (result, { r with pipeline := p, sink := sink })

def advance (r : Rehearsal) (millis : Nat) : Rehearsal := { r with now := r.now + millis }

def setFailing (r : Rehearsal) (failing : Bool) : Rehearsal :=
  { r with sink := { r.sink with failing := failing } }

def handle (r : Rehearsal) (e : Event) : Rehearsal :=
  let (p, sink) := r.pipeline.handle MemorySink.sink r.clock r.sink e
  { r with pipeline := p, sink := sink }

def tick (r : Rehearsal) : Rehearsal :=
  if r.nextSample ≤ r.nextFlush then
    let (round, samplers) := callAll r.files r.samplers
    let r := { r with now := r.nextSample, samplers := samplers }
    { r.handle (.sampleTick round) with
      nextSample := r.nextSample + r.pipeline.settings.sampleInterval.millis }
  else
    let r := { r with now := r.nextFlush }
    { r.handle .flushTick with
      nextFlush := r.nextFlush + r.pipeline.settings.flushInterval.millis }

/-- All ticks before a time, of which there are at most `fuel`. -/
def ticksBefore (time : Nat) : (fuel : Nat) → Rehearsal → Rehearsal
  | 0, r => r
  | fuel + 1, r =>
    if min r.nextSample r.nextFlush < time then ticksBefore time fuel r.tick else r

def runTo (time : Nat) (r : Rehearsal) : Rehearsal :=
  if r.stopped then { r with now := time }
  else { ticksBefore time (2 * time + 2) r with now := time }

def stop (r : Rehearsal) : Rehearsal :=
  if r.stopped then r else { r.handle .stop with stopped := true }

end Rehearsal

end Rollout.Pipeline
