import Rollout.Run.Control

namespace Rollout

inductive Signal
  | message (m : RunMessage)
  | cancel

/-- What has been begun outside and not been heard of. Of the start of an agent that was given up
the control may hear still. -/
structure Outside where
  attempts : List Nat := []
  retries : List Nat := []
  starts : List String := []

namespace Outside

def obey (u : Outside) : RunOrder → Outside
  | .attempt id => { u with attempts := id :: u.attempts }
  | .retryLater id _ => { u with retries := id :: u.retries }
  | .startAgent host => { u with starts := host :: u.starts }
  | .abandonAgent _ => u

def Expects (u : Outside) : RunMessage → Prop
  | .finished id _ => id ∈ u.attempts
  | .retryDue id => id ∈ u.retries
  | .agentDone host _ => host ∈ u.starts

instance (u : Outside) (m : RunMessage) : Decidable (u.Expects m) :=
  match m with
  | .finished id _ => inferInstanceAs (Decidable (id ∈ u.attempts))
  | .retryDue id => inferInstanceAs (Decidable (id ∈ u.retries))
  | .agentDone host _ => inferInstanceAs (Decidable (host ∈ u.starts))

def hear (u : Outside) : Signal → Outside
  | .message (.finished id _) => { u with attempts := u.attempts.erase id }
  | .message (.retryDue id) => { u with retries := u.retries.erase id }
  | .message (.agentDone host _) => { u with starts := u.starts.erase host }
  | .cancel => u

end Outside

/-- How a run was begun. -/
structure Launch where
  runId : String
  createdAt : Moment
  cancelled : Bool

def Launch.report (l : Launch) (j : Job) : Report := .start l.runId l.createdAt j.plan j.inventory

structure Course where
  control : Control
  outside : Outside

namespace Course

def turn (j : Job) (now : Moment) (c : Control) (u : Outside) : Course :=
  let (c, orders) := (c.fill j now).takeOrders
  ⟨c, orders.foldl Outside.obey u⟩

def launch (j : Job) (l : Launch) (now : Moment) : Course :=
  turn j now ((Control.initial j l.runId l.createdAt).start j now l.cancelled) {}

def respond (j : Job) (now : Moment) (c : Control) : Signal → Control
  | .message m => c.handle j now m
  | .cancel => c.cancel j now

def hear (j : Job) (now : Moment) (x : Course) (σ : Signal) : Course :=
  turn j now (respond j now x.control σ) (x.outside.hear σ)

/-- Whether a signal may come. A run that is over hears nothing, and is cancelled once. -/
def CanHear (x : Course) : Signal → Prop
  | .message m => x.control.isOver = false ∧ x.outside.Expects m
  | .cancel => x.control.isOver = false ∧ x.control.cancelled = false

instance (x : Course) (σ : Signal) : Decidable (x.CanHear σ) :=
  match σ with
  | .message m => inferInstanceAs (Decidable (x.control.isOver = false ∧ x.outside.Expects m))
  | .cancel => inferInstanceAs (Decidable (x.control.isOver = false ∧ x.control.cancelled = false))

def finish (j : Job) (now : Moment) (x : Course) : Course :=
  { x with control := x.control.finish j now }

/-- The courses that a run can come to, with the signals heard so far, the latest first. -/
inductive Reached (j : Job) (l : Launch) : List Signal → Course → Prop
  | launch (now : Moment) : Reached j l [] (launch j l now)
  | hear (now : Moment) {σs : List Signal} {x : Course} {σ : Signal} :
      Reached j l σs x → x.CanHear σ → Reached j l (σ :: σs) (x.hear j now σ)
  | finish (now : Moment) {σs : List Signal} {x : Course} :
      Reached j l σs x → x.control.isOver = true → x.control.report.finishedAt = none →
      Reached j l σs (x.finish j now)

end Course

/-- The course in which signals are heard one after another, all in one moment. -/
def Course.play (j : Job) (l : Launch) (now : Moment) : List Signal → Course
  | [] => launch j l now
  | σ :: σs => (play j l now σs).hear j now σ

def Job.trio (workers : Nat) : Job where
  plan :=
    { steps :=
        [{ id := 0, host := "a", role := .metadata, name := "format", kind := .command
           action := .run "format" },
         { id := 1, host := "b", role := .client, name := "install", kind := .command
           action := .run "install" },
         { id := 2, host := "a", role := .metadata, name := "mount", kind := .command
           action := .run "mount", predecessors := [0, 1] }]
      successorTable := [[2], [2], []]
      order := [0, 1, 2] }
  inventory := ⟨[{ address := "a", roles := [.metadata] }, { address := "b", roles := [.client] }]⟩
  workers := workers
  commandTimeout := .ofSeconds 60
  retry := {}
  agents := true

theorem Job.ofSteps_trio (workers : Nat) :
    Plan.ofSteps (Job.trio workers).plan.steps = .ok (Job.trio workers).plan := rfl

end Rollout
