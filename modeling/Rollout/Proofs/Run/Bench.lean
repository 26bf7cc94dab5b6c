import Mathlib.Logic.Function.Basic
import Rollout.Proofs.Remote.Desk
import Rollout.Proofs.Remote.Diary
import Rollout.Run.Attempt
import Rollout.Run.Control

namespace Rollout

/-- An attempt of a step. The attempts of a step are numbered. -/
structure Attempt where
  step : Nat
  number : Nat
  deriving DecidableEq

/-- Who calls: the attempts of steps, once at each stage, and anyone else. -/
inductive Caller (ρ : Type)
  | attempt (a : Attempt) (stage : AttemptStage)
  | other (r : ρ)
  deriving DecidableEq

def Caller.attempt? {ρ : Type} : Caller ρ → Option Attempt
  | .attempt a _ => some a
  | .other _ => none

def Attempt.ticket {ρ : Type} (a : Attempt) (stage : AttemptStage) (c : Call) :
    Ticket (Caller ρ) := ⟨.attempt a stage, 0, c⟩

/-- A call that an attempt waits for. -/
structure Errand where
  stage : AttemptStage
  call : Call
  /-- The limit for the whole wait, if there is one. -/
  within : Option Span
  since : Span

structure Conclusion where
  attempt : Attempt
  moment : Span
  outcome : Result Bool

/-- The attempts of steps, and the calls at the guard in front of the hosts. -/
structure Bench (ρ : Type) where
  diary : Diary (Ticket (Caller ρ))
  begun : List Attempt := []
  errands : Attempt → Option Errand := fun _ ↦ none
  conclusions : List Conclusion := []

inductive Deed (ρ : Type)
  | passes (d : Span)
  | moves (p : Passage (Ticket (Caller ρ)))
  | begins (clock : UInt64) (a : Attempt)
  | hears (clock : UInt64) (a : Attempt) (r : Reply)
  | expires (clock : UInt64) (a : Attempt) (limit : Span)

/-- Whether a call takes a step on its own. An attempt has its calls made, and given up. -/
def Passage.OnItsOwn {ρ : Type} : Passage (Ticket (Caller ρ)) → Prop
  | .asks _ t | .givesUp t => t.activity.attempt? = none
  | _ => True

instance {ρ : Type} (p : Passage (Ticket (Caller ρ))) : Decidable p.OnItsOwn :=
  match p with
  | .asks _ t | .givesUp t => inferInstanceAs (Decidable (t.activity.attempt? = none))
  | .enters _ | .begins .. | .answered .. | .leaves .. => inferInstanceAs (Decidable True)

namespace Bench

variable {ρ : Type} [DecidableEq ρ]

def write (b : Bench ρ) (p : Passage (Ticket (Caller ρ))) : Bench ρ :=
  { b with diary := b.diary.write Ticket.call p }

def carryOut (b : Bench ρ) (clock : UInt64) (a : Attempt) :
    Move AttemptStage (Result Bool) → Bench ρ
  | .call c within stage =>
    { b.write (.asks clock (a.ticket stage c)) with
      errands := Function.update b.errands a (some ⟨stage, c, within, b.diary.now⟩) }
  | .pause _ _ => b
  | .done outcome =>
    { b with
      errands := Function.update b.errands a none
      conclusions := ⟨a, b.diary.now, outcome⟩ :: b.conclusions }

def goOn (j : Job) (b : Bench ρ) (clock : UInt64) (a : Attempt) (r : Reply) : Bench ρ :=
  match j.plan.step? a.step, b.errands a with
  | some s, some e => b.carryOut clock a (s.continueAttempt (j.timeoutOf s) e.stage (.reply r))
  | _, _ => b

def step (j : Job) (b : Bench ρ) : Deed ρ → Bench ρ
  | .passes d => { b with diary := b.diary.wait d }
  | .moves p => b.write p
  | .begins clock a =>
    match j.plan.step? a.step with
    | some s => { b with begun := a :: b.begun }.carryOut clock a (s.beginAttempt (j.timeoutOf s))
    | none => b
  | .hears clock a r => b.goOn j clock a r
  | .expires clock a limit =>
    match b.errands a with
    | some e =>
      -- What the call holds is free again before the attempt goes on.
      (b.write (.givesUp (a.ticket e.stage e.call))).goOn j clock a
        (.error (.timeout e.call.host limit))
    | none => b

/-- Whether something can happen. A call is given up when its limit is over while it still waits,
for a place or for its operation. -/
def CanStep (j : Job) (b : Bench ρ) : Deed ρ → Prop
  | .passes _ => True
  | .moves p => b.diary.traffic.CanStep p ∧ p.OnItsOwn
  | .begins _ a => a ∉ b.begun ∧ (j.plan.step? a.step).isSome
  | .hears _ a r =>
    ∃ e ∈ b.errands a, (a.ticket e.stage e.call, r) ∈ b.diary.traffic.returned
  | .expires _ a limit =>
    ∃ e ∈ b.errands a, e.within = some limit ∧
      e.since.nanos + limit.nanos ≤ b.diary.now.nanos ∧
      b.diary.traffic.CanStep (.givesUp (a.ticket e.stage e.call))

instance (j : Job) (b : Bench ρ) (d : Deed ρ) : Decidable (b.CanStep j d) :=
  match d with
  | .passes _ => inferInstanceAs (Decidable True)
  | .moves p => inferInstanceAs (Decidable (b.diary.traffic.CanStep p ∧ p.OnItsOwn))
  | .begins _ a => inferInstanceAs (Decidable (a ∉ b.begun ∧ (j.plan.step? a.step).isSome))
  | .hears _ a r => inferInstanceAs (Decidable
    (∃ e ∈ b.errands a, (a.ticket e.stage e.call, r) ∈ b.diary.traffic.returned))
  | .expires _ a limit => inferInstanceAs (Decidable
    (∃ e ∈ b.errands a, e.within = some limit ∧
      e.since.nanos + limit.nanos ≤ b.diary.now.nanos ∧
      b.diary.traffic.CanStep (.givesUp (a.ticket e.stage e.call))))

def start (g : Guard (Ticket (Caller ρ))) : Bench ρ where
  diary := { traffic := { guard := g } }

/-- What attempts at a guard can come to. -/
inductive Reached (j : Job) (g : Guard (Ticket (Caller ρ))) : Bench ρ → Prop
  | start : Reached j g (start g)
  | step {b : Bench ρ} {d : Deed ρ} : Reached j g b → b.CanStep j d → Reached j g (b.step j d)

end Bench

end Rollout
