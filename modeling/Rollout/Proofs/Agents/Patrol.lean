import Rollout.Proofs.Agents.Stopped

namespace Rollout

/-- The agents, and what is under way with them. -/
structure Patrol where
  fleet : Fleet
  works : List AgentWork := []
  calls : List Call := []
  answers : List AgentAnswer := []

namespace Patrol

inductive Event
  | asks (q : AgentRequest)
  | wakes (now : Span) (work : AgentWork) (w : Wake)

def carryOut (x : Patrol) : Move AgentWork AgentAnswer → Patrol
  | .call c _ work => { x with works := work :: x.works, calls := c :: x.calls }
  | .pause _ work => { x with works := work :: x.works }
  | .done a => { x with answers := a :: x.answers }

def step (x : Patrol) : Event → Patrol
  | .asks q => x.carryOut (x.fleet.answerRequest q)
  | .wakes now work w =>
    let (f, m) := work.resume now x.fleet w
    { x with fleet := f, works := x.works.erase work }.carryOut m

def CanStep (x : Patrol) : Event → Prop
  | .asks _ => True
  | .wakes _ work _ => work ∈ x.works

instance (x : Patrol) (e : Event) : Decidable (x.CanStep e) :=
  match e with
  | .asks _ => inferInstanceAs (Decidable True)
  | .wakes _ work _ => inferInstanceAs (Decidable (work ∈ x.works))

def follow (x : Patrol) (es : List Event) : Patrol := es.foldl step x

def CanFollow : Patrol → List Event → Prop
  | _, [] => True
  | x, e :: es => x.CanStep e ∧ CanFollow (x.step e) es

instance decidableCanFollow : (x : Patrol) → (es : List Event) → Decidable (x.CanFollow es)
  | _, [] => inferInstanceAs (Decidable True)
  | x, e :: es =>
    have := decidableCanFollow (x.step e) es
    inferInstanceAs (Decidable (x.CanStep e ∧ (x.step e).CanFollow es))

variable {x y z : Patrol} {host : String} {stop : Call}

theorem fleet_carryOut (m : Move AgentWork AgentAnswer) : (x.carryOut m).fleet = x.fleet := by
  cases m <;> rfl

theorem ordered_step (h : Fleet.Ordered x.fleet.agents) (e : Event) :
    Fleet.Ordered (x.step e).fleet.agents := by
  cases e with
  | asks q =>
    rw [step, fleet_carryOut]
    exact h
  | wakes now work w =>
    simp only [step, fleet_carryOut]
    exact (Fleet.noted_resume x.fleet now work w).ordered h

theorem ordered_follow (h : Fleet.Ordered x.fleet.agents) (es : List Event) :
    Fleet.Ordered (x.follow es).fleet.agents := by
  induction es generalizing x with
  | nil => exact h
  | cons e es ih => exact ih (ordered_step h e)

/-- The agent on a host is stopped, and nothing is under way that touches it. -/
structure Undisturbed (host : String) (stop : Call) (x : Patrol) : Prop where
  stopped : x.fleet.Stopped host stop
  works : ∀ work ∈ x.works, ¬work.Touches host

/-- Nothing but `stop` has been called on a host since then. -/
def CallsOnly (host : String) (stop : Call) (x y : Patrol) : Prop :=
  ∃ new, y.calls = new ++ x.calls ∧ ∀ c ∈ new, c.host = host → c = stop

theorem CallsOnly.refl : CallsOnly host stop x x :=
  ⟨[], rfl, fun _ hc ↦ absurd hc List.not_mem_nil⟩

theorem CallsOnly.trans (h : CallsOnly host stop x y) (h' : CallsOnly host stop y z) :
    CallsOnly host stop x z := by
  obtain ⟨new, hnew, honly⟩ := h
  obtain ⟨new', hnew', honly'⟩ := h'
  refine ⟨new' ++ new, by rw [hnew', hnew, List.append_assoc], fun c hc ↦ ?_⟩
  exact (List.mem_append.mp hc).elim (honly' c) (honly c)

theorem Undisturbed.carryOut (h : x.Undisturbed host stop) {m : Move AgentWork AgentAnswer}
    (hm : m.Spares host stop) :
    (x.carryOut m).Undisturbed host stop ∧ CallsOnly host stop x (x.carryOut m) := by
  cases m with
  | call c within work =>
    refine ⟨⟨h.stopped, List.forall_mem_cons.mpr ⟨hm.2, h.works⟩⟩, [c], rfl, ?_⟩
    exact List.forall_mem_singleton.mpr hm.1
  | pause d work => exact ⟨⟨h.stopped, List.forall_mem_cons.mpr ⟨hm, h.works⟩⟩, .refl⟩
  | done a => exact ⟨⟨h.stopped, h.works⟩, .refl⟩

theorem Undisturbed.step (h : x.Undisturbed host stop) {e : Event} (hcan : x.CanStep e)
    (he : ∀ state, e ≠ .asks (.ensure host state)) :
    (x.step e).Undisturbed host stop ∧ CallsOnly host stop x (x.step e) := by
  cases e with
  | asks q =>
    exact h.carryOut (Fleet.spares_answerRequest h.stopped fun state hq ↦ he state (hq ▸ rfl))
  | wakes now work w =>
    -- What is under way is known to leave the agent alone, so what it goes on with does too.
    obtain ⟨hstopped, hspares⟩ := AgentWork.spares_resume h.stopped (h.works work hcan) now w
    exact carryOut (x := { x with
        fleet := (work.resume now x.fleet w).1
        works := x.works.erase work })
      ⟨hstopped, fun other hother ↦ h.works other (List.mem_of_mem_erase hother)⟩ hspares

theorem Undisturbed.follow (h : x.Undisturbed host stop) {es : List Event} (hcan : x.CanFollow es)
    (hes : ∀ e ∈ es, ∀ state, e ≠ .asks (.ensure host state)) :
    (x.follow es).Undisturbed host stop ∧ CallsOnly host stop x (x.follow es) := by
  induction es generalizing x with
  | nil => exact ⟨h, .refl⟩
  | cons e es ih =>
    rw [List.forall_mem_cons] at hes
    obtain ⟨hnext, honly⟩ := h.step hcan.1 hes.1
    obtain ⟨hend, hrest⟩ := ih hnext hcan.2 hes.2
    exact ⟨hend, honly.trans hrest⟩

/-- What becomes of an agent whose stop command has succeeded. -/
structure Halted (host : String) (x y : Patrol) : Prop where
  answered : y.answers = .stopped (.ok ()) :: x.answers
  isStopped : y.fleet.isStopped host = true
  stays : (∀ work ∈ y.works, ¬work.Touches host) →
    ∀ es, y.CanFollow es → (∀ e ∈ es, ∀ state, e ≠ .asks (.ensure host state)) →
      (y.follow es).fleet.isStopped host = true ∧
      CallsOnly host (x.fleet.stopCall host) y (y.follow es)
  /-- A check that was under way then writes down that the agent is healthy, if it hears so. -/
  revived : ∀ now out, .check host ∈ y.works →
    (y.step (.wakes now (.check host) (.reply (.ok out)))).fleet.isStopped host = false
  /-- A pass of the supervisor that was asking after the agent then starts it again, if it hears
  that it is not running. -/
  restarted : ∀ now rest e, .superviseCheck host rest ∈ y.works → e.isExec = true →
    let z := y.step (.wakes now (.superviseCheck host rest) (.reply (.error e)))
    z.fleet.isStopped host = false ∧ z.calls = x.fleet.startCall host :: y.calls

theorem halted (x : Patrol) (host : String) (now : Span) (out : CommandOutput) :
    Halted host x (x.step (.wakes now (.stop host) (.reply (.ok out)))) := by
  refine ⟨rfl, Fleet.isStopped_record .stopped none, fun hworks es hcan hes ↦ ?_, ?_, ?_⟩
  · have hstopped : Undisturbed host (x.fleet.stopCall host)
        (x.step (.wakes now (.stop host) (.reply (.ok out)))) :=
      ⟨⟨Fleet.isStopped_record .stopped none, rfl⟩, hworks⟩
    obtain ⟨hend, honly⟩ := hstopped.follow hcan hes
    exact ⟨hend.stopped.isStopped, honly⟩
  · intro now' out' _
    exact Fleet.isStopped_record .healthy none
  · intro now' rest e _ he
    simp only [step, AgentWork.resume, Fleet.probed, he, if_true]
    refine ⟨Fleet.isStopped_countRestart.trans (Fleet.isStopped_record .unhealthy _), ?_⟩
    refine congrArg (· :: _) ?_
    rw [Fleet.startCall, Fleet.settings_countRestart, Fleet.command_countRestart]
    rfl

def lone : Patrol where
  fleet :=
    { settings := {}, sink := ""
      agents := [{ host := "oss01", interval := .zero, sink := "" }] }

/-- The supervisor asks after the agent. While it waits, the agent is stopped. -/
def overtaken : List Event :=
  [.asks .supervise, .asks (.stop "oss01"), .wakes ⟨1⟩ (.stop "oss01") (.reply (.ok {})),
    .wakes ⟨2⟩ (.superviseCheck "oss01" []) (.reply (.error (.exec "oss01" 1 "")))]

theorem follow_overtaken : lone.CanFollow overtaken ∧
    (lone.follow overtaken).answers = [.stopped (.ok ())] ∧
    (lone.follow overtaken).fleet.isStopped "oss01" = false ∧
    (lone.follow overtaken).calls.head? = some (lone.fleet.startCall "oss01") :=
  ⟨by decide, rfl, by decide, rfl⟩

end Patrol

end Rollout
