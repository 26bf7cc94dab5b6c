import Rollout.Proofs.Agents.Fleet

namespace Rollout

/-- What an activity can end with, whatever is replied to it, and whatever else happens to the fleet
while it goes on. -/
inductive Move.MayEnd : Move AgentWork AgentAnswer → AgentAnswer → Prop
  | done (answer : AgentAnswer) : MayEnd (.done answer) answer
  | call (c : Call) (within : Option Span) {work : AgentWork} (now : Span) (f : Fleet) (w : Wake)
      {answer : AgentAnswer} :
      MayEnd (work.resume now f w).2 answer → MayEnd (.call c within work) answer
  | pause (d : Span) {work : AgentWork} (now : Span) (f : Fleet) (w : Wake)
      {answer : AgentAnswer} :
      MayEnd (work.resume now f w).2 answer → MayEnd (.pause d work) answer

namespace Fleet

variable {f : Fleet} {now : Span} {host : String}

def OfStart : Move AgentWork AgentAnswer → Prop
  | .call _ _ (.start _ _) => True
  | .pause _ (.start _ _) => True
  | .done (.agent r) => ∀ a, r = .ok a → a.health = .healthy
  | .done .brokenOff => True
  | _ => False

theorem ofStart_continueStart (stage : StartStage) (w : Wake) :
    OfStart (((f.continueStart now host stage w).2.mapRest (.start host)).map StartEnd.answer) := by
  cases stage with
  | command =>
    cases w with
    | rested => trivial
    | reply r =>
      cases r with
      | ok out =>
        simp only [continueStart]
        split <;> trivial
      | error e =>
        intro a ha
        cases ha
  | rest deadline backoff => trivial
  | probe deadline backoff =>
    cases w with
    | rested => trivial
    | reply r =>
      cases r with
      | ok out =>
        intro a ha
        cases ha
        rw [healthyAgent, find?_record]
        rfl
      | error e =>
        simp only [continueStart]
        split
        · trivial
        · split
          · intro a ha
            cases ha
          · trivial

theorem ofStart_ensure : OfStart (f.ensure host .succeeded) := by
  simp only [ensure, ne_eq, not_true_eq_false, if_false]
  split
  · rename_i a _
    split
    · rename_i hhealthy
      intro a' ha
      cases ha
      simpa [Agent.isHealthy] using hhealthy
    · trivial
  · trivial

theorem healthy_of_mayEnd {m : Move AgentWork AgentAnswer} {answer : AgentAnswer}
    (h : m.MayEnd answer) (hm : OfStart m) {a : Agent} (ha : answer = .agent (.ok a)) :
    a.health = .healthy := by
  induction h with
  | done answer =>
    subst ha
    exact hm a rfl
  | @call c within work now f w answer _ ih =>
    cases work with
    | start host stage => exact ih (ofStart_continueStart stage w) ha
    | _ => cases hm
  | @pause d work now f w answer _ ih =>
    cases work with
    | start host stage => exact ih (ofStart_continueStart stage w) ha
    | _ => cases hm

/-- What may be heard of an agent that is to be started on a host whose steps have succeeded. -/
def Answers (host : String) (outcome : Result AgentHealth) : Prop :=
  ∃ (f : Fleet) (r : Result Agent),
    (f.ensure host .succeeded).MayEnd (.agent r) ∧ outcome = r.map Agent.health

theorem Answers.healthy {health : AgentHealth} (h : Answers host (.ok health)) :
    health = .healthy := by
  obtain ⟨f, r, hend, hr⟩ := h
  cases r with
  | error e => cases hr
  | ok a =>
    cases hr
    exact healthy_of_mayEnd hend ofStart_ensure rfl

theorem ensure_of_find?_eq_none (h : f.find? host = none) :
    f.ensure host .succeeded = .call (f.startCall host) none (.start host .command) := by
  simp only [ensure, h, ne_eq, not_true_eq_false, if_false]
  rfl

theorem answers_healthy (host : String) : Answers host (.ok .healthy) := by
  let f : Fleet := { settings := {}, sink := "" }
  have hready : (AgentWork.start host .command).resume ⟨0⟩ f (.reply (.ok {})) =
      (f, .call (f.healthCall host) none (.start host (.probe (f.deadline ⟨0⟩) f.probeBackoff))) := by
    rw [AgentWork.resume, continueStart_ready (by decide)]
    rfl
  refine ⟨f, .ok ((f.record ⟨0⟩ host .healthy none).healthyAgent host), ?_, ?_⟩
  · rw [ensure_of_find?_eq_none rfl]
    refine .call _ _ ⟨0⟩ f (.reply (.ok {})) ?_
    rw [hready]
    exact .call _ _ ⟨0⟩ f (.reply (.ok {})) (.done _)
  · rw [healthyAgent, find?_record]
    rfl

theorem answers_failed (host : String) (e : Fault) :
    Answers host (.error (.agentStart host ("start command failed: " ++ e.message))) := by
  let f : Fleet := { settings := {}, sink := "" }
  refine ⟨f, .error _, ?_, rfl⟩
  rw [ensure_of_find?_eq_none rfl]
  exact .call _ _ ⟨0⟩ f (.reply (.error e)) (.done _)

end Fleet

end Rollout
