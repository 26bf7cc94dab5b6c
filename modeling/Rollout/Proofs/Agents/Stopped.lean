import Rollout.Proofs.Agents.Ensured

namespace Rollout

namespace Fleet

variable {f : Fleet} {now : Span} {host h : String}

theorem isStopped_record_of_ne (hne : h ≠ host) (health : AgentHealth) (error : Option String) :
    (f.record now h health error).isStopped host = f.isStopped host := by
  rw [isStopped, isStopped, find?_record_of_ne hne]

theorem isStopped_record (health : AgentHealth) (error : Option String) :
    (f.record now host health error).isStopped host = (health == .stopped) :=
  isStopped_of_find? (find?_record health error)

theorem isStopped_countRestart : (f.countRestart h).isStopped host = f.isStopped host := by
  by_cases heq : h = host
  · subst heq
    cases hfind : f.find? h with
    | none => rw [countRestart, hfind]
    | some a => rw [isStopped_of_find? (find?_countRestart hfind), isStopped_of_find? hfind]
  · rw [isStopped, isStopped, find?_countRestart_of_ne heq]

end Fleet

/-- Whether an activity is about to find something out about the agent on a host, or to start it. -/
def AgentWork.Touches (host : String) : AgentWork → Prop
  | .start h _ | .check h | .superviseCheck h _ | .superviseStart h _ _ => h = host
  | .stop _ | .stopAll .. => False

/-- Whether the only thing that a move does on a host is to call `stop` there. -/
def Move.Spares (host : String) (stop : Call) : Move AgentWork AgentAnswer → Prop
  | .call c _ work => (c.host = host → c = stop) ∧ ¬work.Touches host
  | .pause _ work => ¬work.Touches host
  | .done _ => True

theorem Move.spares_call {host : String} {stop c : Call} {within : Option Span} {work : AgentWork}
    (hne : c.host ≠ host) (hwork : ¬work.Touches host) :
    (Move.call c within work : Move AgentWork AgentAnswer).Spares host stop :=
  ⟨fun hhost ↦ absurd hhost hne, hwork⟩

namespace Fleet

/-- The agent on a host is stopped, and `stop` is the command that stops it. -/
structure Stopped (host : String) (stop : Call) (f : Fleet) : Prop where
  isStopped : f.isStopped host = true
  stop_eq : f.stopCall host = stop

variable {f : Fleet} {now : Span} {host h : String} {stop : Call}

theorem spares_nextCheck (hs : f.isStopped host = true) (hosts : List String) :
    (f.nextCheck hosts).Spares host stop := by
  induction hosts with
  | nil => trivial
  | cons h rest ih =>
    rw [nextCheck]
    split
    · exact ih
    · rename_i hgoing
      have hne : h ≠ host := fun heq ↦ hgoing (heq ▸ hs)
      exact Move.spares_call hne hne

theorem spares_stopCall (hs : f.stopCall host = stop) (within : Option Span) {work : AgentWork}
    (hwork : ¬work.Touches host) :
    (Move.call (f.stopCall h) within work : Move AgentWork AgentAnswer).Spares host stop := by
  refine ⟨fun hhost ↦ ?_, hwork⟩
  rw [← hs, ← show h = host from hhost]

theorem spares_nextStop (hs : f.stopCall host = stop) (stopped : Nat) (hosts : List String) :
    (f.nextStop stopped hosts).Spares host stop := by
  cases hosts with
  | nil => trivial
  | cons h rest => exact spares_stopCall hs none id

theorem stopped_record_of_ne (hs : f.Stopped host stop) (hne : h ≠ host) (health : AgentHealth)
    (error : Option String) : (f.record now h health error).Stopped host stop :=
  ⟨(isStopped_record_of_ne hne health error).trans hs.isStopped, hs.stop_eq⟩

theorem stopped_continueStart (hs : f.Stopped host stop) (hne : h ≠ host) (stage : StartStage)
    (w : Wake) : (f.continueStart now h stage w).1.Stopped host stop := by
  rcases continueStart_fst f now h stage w with heq | ⟨health, error, heq⟩
  · rwa [heq]
  · rw [heq]
    exact stopped_record_of_ne hs hne health error

theorem host_of_continueStart {stage stage' : StartStage} {w : Wake} {c : Call}
    {within : Option Span} (hmove : (f.continueStart now h stage w).2 = .call c within stage') :
    c.host = h := by
  revert hmove
  fun_cases continueStart f now h stage w <;> rintro ⟨⟩ <;> rfl

theorem spares_start (hne : h ≠ host) {m : Move StartStage StartEnd}
    (hm : ∀ c within stage, m = .call c within stage → c.host = h) :
    ((m.mapRest (.start h)).map StartEnd.answer).Spares host stop := by
  cases m with
  | call c within stage => exact Move.spares_call (hm c within stage rfl ▸ hne) hne
  | pause d stage => exact hne
  | done r => trivial

theorem spares_superviseMove (hs : f.Stopped host stop) (hne : h ≠ host) (rest : List String)
    {m : Move StartStage StartEnd}
    (hm : ∀ c within stage, m = .call c within stage → c.host = h) :
    (f.superviseMove h rest m).Spares host stop := by
  cases m with
  | call c within stage => exact Move.spares_call (hm c within stage rfl ▸ hne) hne
  | pause d stage => exact hne
  | done e =>
    cases e with
    | result r => exact spares_nextCheck hs.isStopped rest
    | brokenOff => trivial

theorem stopped_probed (hs : f.Stopped host stop) (hne : h ≠ host) (r : Reply) :
    (f.probed now h r).1.Stopped host stop := by
  fun_cases probed f now h r with
  | case1 | case2 => exact stopped_record_of_ne hs hne _ _
  | case3 => exact hs

theorem stopped_stopReplied (hs : f.Stopped host stop) (r : Reply) :
    (f.stopReplied now h r).1.Stopped host stop := by
  cases r with
  | error e => exact hs
  | ok out =>
    by_cases hhost : h = host
    · subst hhost
      exact ⟨isStopped_record .stopped none, hs.stop_eq⟩
    · exact stopped_record_of_ne hs hhost _ _

theorem stopped_countRestart (hs : f.Stopped host stop) : (f.countRestart h).Stopped host stop := by
  refine ⟨isStopped_countRestart.trans hs.isStopped, ?_⟩
  rw [← hs.stop_eq, stopCall, stopCall, settings_countRestart, command_countRestart]

theorem spares_answerRequest (hs : f.Stopped host stop) {q : AgentRequest}
    (hq : ∀ state, q ≠ .ensure host state) : (f.answerRequest q).Spares host stop := by
  cases q with
  | ensure h state =>
    have hne : h ≠ host := fun heq ↦ hq state (heq ▸ rfl)
    have hstart : (((f.beginStart h).mapRest (.start h)).map StartEnd.answer).Spares host stop :=
      spares_start hne fun c within stage heq ↦ by cases heq; rfl
    simp only [answerRequest]
    fun_cases ensure f h state with
    | case1 | case2 => trivial
    | case3 | case4 => exact hstart
  | check h =>
    simp only [answerRequest, beginCheck]
    split
    · trivial
    · rename_i hgoing
      have hne : h ≠ host := fun heq ↦ hgoing (heq ▸ hs.isStopped)
      exact Move.spares_call hne hne
  | stop h => exact spares_stopCall hs.stop_eq none id
  | stopAll => exact spares_nextStop hs.stop_eq 0 f.activeHosts
  | supervise => exact spares_nextCheck hs.isStopped f.activeHosts

end Fleet

open Fleet in
theorem AgentWork.spares_resume {f : Fleet} {host : String} {stop : Call} {work : AgentWork}
    (hs : f.Stopped host stop) (hwork : ¬work.Touches host) (now : Span) (w : Wake) :
    (work.resume now f w).1.Stopped host stop ∧ (work.resume now f w).2.Spares host stop := by
  cases work with
  | start h stage =>
    exact ⟨stopped_continueStart hs hwork stage w,
      spares_start hwork fun c within stage' ↦ host_of_continueStart⟩
  | check h =>
    cases w with
    | reply r => exact ⟨stopped_probed hs hwork r, trivial⟩
    | rested =>
      exact ⟨hs, spares_answerRequest hs (q := .check h) fun state heq ↦ by cases heq⟩
  | stop h =>
    cases w with
    | reply r => exact ⟨stopped_stopReplied hs r, trivial⟩
    | rested => exact ⟨hs, spares_answerRequest hs (q := .stop h) fun state heq ↦ by cases heq⟩
  | stopAll h course rest stopped =>
    cases w with
    | rested => exact ⟨hs, spares_stopCall hs.stop_eq none id⟩
    | reply r =>
      have hreplied : (f.stopReplied now h r).1.Stopped host stop := stopped_stopReplied hs r
      simp only [resume]
      split
      · exact ⟨hreplied, spares_nextStop hreplied.stop_eq _ rest⟩
      · exact ⟨hreplied, spares_nextStop hreplied.stop_eq _ rest⟩
      · exact ⟨hreplied, id⟩
  | superviseCheck h rest =>
    cases w with
    | rested => exact ⟨hs, spares_nextCheck hs.isStopped (h :: rest)⟩
    | reply r =>
      have hprobed : (f.probed now h r).1.Stopped host stop := stopped_probed hs hwork r
      simp only [resume]
      split
      · -- An agent elsewhere is started again.
        rename_i f' hmatch
        rw [hmatch] at hprobed
        have hcounted := stopped_countRestart (h := h) hprobed
        refine ⟨hcounted, spares_superviseMove hcounted hwork rest
          (m := (f'.countRestart h).beginStart h) fun c within stage heq ↦ ?_⟩
        cases heq
        rfl
      · rename_i f' health hother hmatch
        rw [hmatch] at hprobed
        exact ⟨hprobed, spares_nextCheck hprobed.isStopped rest⟩
  | superviseStart h stage rest =>
    have hnext : (f.continueStart now h stage w).1.Stopped host stop :=
      stopped_continueStart hs hwork stage w
    exact ⟨hnext, spares_superviseMove hnext hwork rest fun c within stage' ↦ host_of_continueStart⟩

end Rollout
