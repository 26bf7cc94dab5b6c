import Rollout.Remote.Call
import Rollout.Remote.Guard

namespace Rollout

/-- What the director of a play orders. -/
inductive Order (τ ω : Type)
  | start (name : τ) (work : ω)
  | abort (name : τ)
  deriving Repr

/-- The rules of a play: how activities begin and go on, with what they share, and what its director
does, who is called when `isWaiting` says so. -/
structure Play (τ ω σ : Type) where
  start : Span → σ → τ → ω → σ × Move ω Unit
  resume : Span → σ → τ → ω → Wake → σ × Move ω Unit
  direct : Span → σ → σ × List (Order τ ω)
  isWaiting : σ → Bool

/-- A due time in milliseconds. Serial numbers count the timers. -/
structure Timer where
  due : Nat
  serial : Nat
  deriving DecidableEq, Repr, Inhabited

structure Deadline where
  timer : Timer
  length : Span
  deriving DecidableEq, Repr, Inhabited

inductive Situation (ω π : Type)
  | fresh (work : ω)
  | woken (wake : Wake) (work : ω)
  | resting (timer : Timer) (work : ω)
  | atGuard (c : Call) (deadline : Option Deadline) (work : ω)
  | underWay (c : Call) (timer : Timer) (stage : π) (deadline : Option Deadline) (work : ω)
  deriving Repr

namespace Situation

variable {ω π : Type}

def timers : Situation ω π → List Timer
  | .resting t _ => [t]
  | .atGuard _ d _ => (d.map Deadline.timer).toList
  | .underWay _ t _ d _ => t :: (d.map Deadline.timer).toList
  | _ => []

end Situation

/-- A play with everything that belongs to it. `clock` is what breakers see as the time. -/
structure Stage (τ ω σ ε π : Type) where
  play : Play τ ω σ
  executor : Executor ε π
  clock : Nat → UInt64
  hosts : ε
  shared : σ
  guard : Option (Guard τ) := none
  now : Nat := 0
  tasks : List (τ × Situation ω π) := []
  /-- Who can go on; `none` is the director. -/
  line : List (Option τ) := []
  serial : Nat := 0

namespace Stage

variable {τ ω σ ε π : Type} [DecidableEq τ]

def time (s : Stage τ ω σ ε π) : Span := .ofMillis s.now

def situation? (s : Stage τ ω σ ε π) (t : τ) : Option (Situation ω π) :=
  (s.tasks.find? fun x ↦ x.1 = t).map (·.2)

def wake (who : Option τ) (s : Stage τ ω σ ε π) : Stage τ ω σ ε π :=
  if s.line.contains who then s else { s with line := s.line ++ [who] }

def wakeNext (t : Option τ) (s : Stage τ ω σ ε π) : Stage τ ω σ ε π :=
  match t with
  | some t => s.wake (some t)
  | none => s

/-- Puts an activity first in line, because it goes on at once. -/
def goOn (t : τ) (s : Stage τ ω σ ε π) : Stage τ ω σ ε π :=
  { s with line := some t :: s.line.erase (some t) }

def place (t : τ) (x : Situation ω π) (s : Stage τ ω σ ε π) : Stage τ ω σ ε π :=
  if s.tasks.any fun y ↦ y.1 = t then
    { s with tasks := s.tasks.map fun y ↦ if y.1 = t then (t, x) else y }
  else { s with tasks := s.tasks ++ [(t, x)] }

def remove (t : τ) (s : Stage τ ω σ ε π) : Stage τ ω σ ε π :=
  { s with tasks := s.tasks.filter fun y ↦ y.1 ≠ t, line := s.line.erase (some t) }

def setTimer (d : Span) (s : Stage τ ω σ ε π) : Timer × Stage τ ω σ ε π :=
  (⟨s.now + d.ceilMillis, s.serial⟩, { s with serial := s.serial + 1 })

def answer (t : τ) (w : Wake) (work : ω) (s : Stage τ ω σ ε π) : Stage τ ω σ ε π :=
  (s.place t (.woken w work)).goOn t

def leaveGuard (f : Guard τ → Guard τ × Option τ) (s : Stage τ ω σ ε π) : Stage τ ω σ ε π :=
  match s.guard with
  | none => s
  | some g =>
    let (g, next) := f g
    { s with guard := some g }.wakeNext next

def finishCall (t : τ) (c : Call) (r : Reply) (work : ω) (s : Stage τ ω σ ε π) :
    Stage τ ω σ ε π :=
  (s.leaveGuard fun g ↦ g.finish (s.clock s.now) t c.host r).answer t (.reply r) work

def timeOut (t : τ) (c : Call) (d : Deadline) (work : ω) (s : Stage τ ω σ ε π) :
    Stage τ ω σ ε π :=
  (s.leaveGuard fun g ↦ g.abandon t).answer t (.reply (.error (.timeout c.host d.length))) work

def isOver (s : Stage τ ω σ ε π) (d : Option Deadline) : Option Deadline :=
  match d with
  | some d => if d.timer.due ≤ s.now then some d else none
  | none => none

def heedDeadline (t : τ) (c : Call) (deadline : Option Deadline) (work : ω)
    (s : Stage τ ω σ ε π) : Stage τ ω σ ε π :=
  match s.isOver deadline with
  | some d => s.timeOut t c d work
  | none => s

def progress (t : τ) (c : Call) (deadline : Option Deadline) (work : ω) (s : Stage τ ω σ ε π) :
    Progress π → Stage τ ω σ ε π
  | .done r => s.finishCall t c r work
  | .wait d stage =>
    let (timer, s) := s.setTimer d
    let s := s.place t (.underWay c timer stage deadline work)
    if timer.due ≤ s.now then s.goOn t else s.heedDeadline t c deadline work

def ask (t : τ) (c : Call) (deadline : Option Deadline) (work : ω) (s : Stage τ ω σ ε π) :
    Stage τ ω σ ε π :=
  match s.guard with
  | none => (s.place t (.atGuard c deadline work)).goOn t
  | some g =>
    match g.arrive (s.clock s.now) t c.host with
    | (g, .rejected fault) => { s with guard := some g }.answer t (.reply (.error fault)) work
    | (g, _) => ({ s with guard := some g }.place t (.atGuard c deadline work)).goOn t

def arrive (t : τ) (c : Call) (within : Option Span) (work : ω) (s : Stage τ ω σ ε π) :
    Stage τ ω σ ε π :=
  match within with
  | none => s.ask t c none work
  | some d =>
    let (timer, s) := s.setTimer d
    s.ask t c (some ⟨timer, d⟩) work

def callDirector (s : Stage τ ω σ ε π) : Stage τ ω σ ε π :=
  if s.play.isWaiting s.shared then s.wake none else s

def carryOut (t : τ) (s : Stage τ ω σ ε π) (m : σ × Move ω Unit) : Stage τ ω σ ε π :=
  let s := { s with shared := m.1 }.callDirector
  match m.2 with
  | .call c within work => s.arrive t c within work
  | .pause d work =>
    let (timer, s) := s.setTimer d
    if timer.due ≤ s.now then s.answer t .rested work else s.place t (.resting timer work)
  | .done () => s.remove t

def mayBegin (s : Stage τ ω σ ε π) (t : τ) : Bool :=
  match s.guard with
  | none => true
  | some g => g.running.contains t

def takeTurn (t : τ) (s : Stage τ ω σ ε π) : Stage τ ω σ ε π :=
  match s.situation? t with
  | none => s
  | some (.fresh work) => s.carryOut t (s.play.start s.time s.shared t work)
  | some (.woken w work) => s.carryOut t (s.play.resume s.time s.shared t work w)
  | some (.resting timer work) => if timer.due ≤ s.now then s.answer t .rested work else s
  | some (.atGuard c deadline work) =>
    if s.mayBegin t then
      let (hosts, p) := s.executor.start s.time s.hosts c
      { s with hosts := hosts }.progress t c deadline work p
    else s.heedDeadline t c deadline work
  | some (.underWay c timer stage deadline work) =>
    if timer.due ≤ s.now then
      let (hosts, p) := s.executor.resume s.time s.hosts stage
      { s with hosts := hosts }.progress t c deadline work p
    else s.heedDeadline t c deadline work

def obey (s : Stage τ ω σ ε π) : Order τ ω → Stage τ ω σ ε π
  | .start t work => (s.place t (.fresh work)).wake (some t)
  | .abort t => (s.leaveGuard fun g ↦ g.abandon t).remove t

def directorTurn (s : Stage τ ω σ ε π) : Stage τ ω σ ε π :=
  let (shared, orders) := s.play.direct s.time s.shared
  orders.foldl obey { s with shared := shared }

def allTimers (s : Stage τ ω σ ε π) : List (Timer × τ) :=
  s.tasks.flatMap fun x ↦ x.2.timers.map fun timer ↦ (timer, x.1)

def nextDue? (s : Stage τ ω σ ε π) : Option Nat := (s.allTimers.map fun x ↦ x.1.due).min?

def jump (time : Nat) (s : Stage τ ω σ ε π) : Stage τ ω σ ε π :=
  let due := (s.allTimers.filter fun x ↦ x.1.due ≤ time).mergeSort fun a b ↦
    a.1.due < b.1.due || (a.1.due == b.1.due && a.1.serial ≤ b.1.serial)
  due.foldl (fun s x ↦ s.wake (some x.2)) { s with now := max s.now time }

/-- Lets the play go on until nothing is left to do before the time `limit`, in at most `fuel`
turns. -/
def run (limit : Option Nat) : (fuel : Nat) → Stage τ ω σ ε π → Stage τ ω σ ε π
  | 0, s => s
  | fuel + 1, s =>
    match s.line with
    | who :: line =>
      let s := { s with line := line }
      run limit fuel (match who with
        | some t => s.takeTurn t
        | none => s.directorTurn)
    | [] =>
      match s.nextDue? with
      | none => s
      | some time =>
        if (limit.map fun l ↦ decide (time < l)).getD true then run limit fuel (s.jump time) else s

def longestPlay : Nat := 1000000

def finish (s : Stage τ ω σ ε π) : Stage τ ω σ ε π := s.run none longestPlay

def runTo (time : Nat) (s : Stage τ ω σ ε π) : Stage τ ω σ ε π :=
  let s := s.run (some time) longestPlay
  { s with now := max s.now time }

def add (t : τ) (work : ω) (s : Stage τ ω σ ε π) : Stage τ ω σ ε π := s.obey (.start t work)

def change (f : σ → σ) (s : Stage τ ω σ ε π) : Stage τ ω σ ε π :=
  { s with shared := f s.shared }.callDirector

end Stage

end Rollout
