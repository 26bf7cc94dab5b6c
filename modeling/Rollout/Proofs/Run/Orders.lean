import Rollout.Proofs.Run.Attended

namespace Rollout

variable {j : Job} {told : Outcomes} {l : Launch} {now : Moment} {u : Outside}
  {σs : List Signal}

namespace Control

variable {c : Control} {m : RunMessage}

theorem fill_of_settled (h : c.cancelled = true ∨ c.ready = [] ∨ j.workers ≤ c.inFlight) :
    c.fill j now = c := by
  unfold fill
  cases hready : c.ready with
  | nil => rfl
  | cons id ready =>
    have hstay : (c.cancelled || decide (j.workers ≤ c.inFlight)) = true := by
      simpa [hready] using h
    rw [List.length_cons, dispatchReady, if_pos hstay]

theorem fill_cancel : (c.cancel j now).fill j now = c.cancel j now :=
  fill_of_settled (.inl cancelled_cancel)

theorem hostChanged_of_cancelled (h : c.cancelled = true) (host : String)
    (change : Option Status) : c.hostChanged j host change = c := by
  unfold hostChanged
  split
  · exact startAgent_of_cancelled h host
  · rfl

theorem Invariant.handle_of_cancelled (now : Moment) (hp : j.plan.WellFormed)
    (h : c.Invariant j told l u) (hempty : c.outbox = []) (hstop : c.cancelled = true)
    (hm : u.Expects m) :
    (c.handle j now m).outbox = [] ∧ (c.handle j now m).report.agents = c.report.agents := by
  cases m with
  | retryDue id =>
    rw [handle_retryDue_of_cancelled hstop]
    exact ⟨hempty, rfl⟩
  | agentDone host outcome =>
    rw [handle_agentDone, (h.closed hstop).starts_eq]
    exact ⟨hempty, rfl⟩
  | finished id outcome =>
    have hbegun := (h.steady.mem_attempts id).mp hm
    obtain ⟨s, hs, hid⟩ := h.steady.step?_of_stepState hp hbegun
    refine ⟨?_, ?_⟩
    · cases outcome with
      | ok b =>
        have hreleased : ((j.plan.successors id).foldl releaseStep
            (c.ended now id (.completed b))).cancelled = true := by
          rw [foldl_releaseStep_eq]
          exact hstop
        rw [handle_completed hs hid hbegun, hostChanged_of_cancelled hreleased,
          foldl_releaseStep_eq]
        exact hempty
      | error fault =>
        have hframe := frame_skipDependents j now id s.label
          (c.ended now id (.failed fault.message none))
        rw [handle_failed hs hid hbegun (.inl hstop)]
        exact (congrArg Control.outbox hframe :).trans hempty
    · obtain ⟨d, hquiet, heq⟩ := exists_quiet_finished (c := c) now outcome hs hid
      rw [heq, report_hostChanged, hquiet.agents]
      exact Report.agents_apply ..

theorem outbox_cancel : (c.cancel j now).outbox = c.outbox ++ c.agentStarts.map .abandonAgent := by
  have hfold : ∀ (hosts : List String) (c : Control),
      (hosts.foldl abandonAgent c).outbox = c.outbox ++ hosts.map .abandonAgent := by
    intro hosts
    induction hosts with
    | nil => simp
    | cons host hosts ih =>
      intro c
      rw [List.foldl_cons, ih]
      simp [abandonAgent, order, write]
  have hstopped : c.stopped.outbox = c.outbox ++ c.agentStarts.map .abandonAgent := hfold _ _
  rw [← hstopped, cancel_eq]
  exact foldl_applyIfPending_induct (P := fun c' ↦ c'.outbox = c.stopped.outbox) rfl
    fun _ _ _ hc' _ ↦ hc'

theorem agents_cancel : (c.cancel j now).report.agents =
    c.report.agents.map fun p ↦ if p.1 ∈ c.agentStarts then (p.1, some .unknown, false) else p := by
  have hfold : ∀ (hosts : List String) (c : Control), (hosts.foldl abandonAgent c).report.agents =
      c.report.agents.map fun p ↦ if p.1 ∈ hosts then (p.1, some .unknown, false) else p := by
    intro hosts
    induction hosts with
    | nil => simp
    | cons host hosts ih =>
      intro c
      have hone : (c.abandonAgent host).report.agents = c.report.agents.map fun p ↦
          if p.1 == host then (p.1, some .unknown, false) else p := Report.agents_setAgent ..
      rw [List.foldl_cons, ih, hone, List.map_map]
      refine List.map_congr_left fun p _ ↦ ?_
      by_cases hp : p.1 = host <;> simp [hp]
  have hstopped : c.stopped.report.agents = c.report.agents.map fun p ↦
      if p.1 ∈ c.agentStarts then (p.1, some .unknown, false) else p := hfold _ _
  rw [← hstopped, cancel_eq]
  exact foldl_applyIfPending_induct (P := fun c' ↦ c'.report.agents = c.stopped.report.agents) rfl
    fun _ _ _ hc' _ ↦ (Report.agents_apply ..).trans hc'

end Control

namespace Course

variable {x : Course} {σ : Signal} {os : List RunOrder}

def firstOrders (j : Job) (l : Launch) (now : Moment) : List RunOrder :=
  (((Control.initial j l.runId l.createdAt).start j now l.cancelled).fill j now).outbox

def orders (j : Job) (now : Moment) (x : Course) (σ : Signal) : List RunOrder :=
  ((respond j now x.control σ).fill j now).outbox

theorem outside_launch (j : Job) (l : Launch) (now : Moment) :
    (launch j l now).outside = (firstOrders j l now).foldl Outside.obey {} := rfl

theorem outside_hear (j : Job) (now : Moment) (x : Course) (σ : Signal) :
    (x.hear j now σ).outside = (x.orders j now σ).foldl Outside.obey (x.outside.hear σ) := rfl

theorem orders_cancel (j : Job) (now : Moment) (x : Course) :
    x.orders j now .cancel = x.control.outbox ++ x.control.agentStarts.map .abandonAgent := by
  rw [orders, respond, Control.fill_cancel, Control.outbox_cancel]

/-- To be cancelled before the beginning is to be cancelled at once. -/
theorem launch_of_cancelled (j : Job) (now : Moment) (hstop : l.cancelled = true) :
    launch j l now = hear j now ⟨.initial j l.runId l.createdAt, {}⟩ .cancel ∧
      firstOrders j l now = orders j now ⟨.initial j l.runId l.createdAt, {}⟩ .cancel := by
  have hstart : (Control.initial j l.runId l.createdAt).start j now l.cancelled =
      (Control.initial j l.runId l.createdAt).cancel j now := by
    rw [Control.start, hstop, if_pos rfl,
      Control.foldl_startAgent_of_cancelled Control.cancelled_cancel]
  rw [launch, firstOrders, hstart]
  exact ⟨rfl, rfl⟩

theorem Sound.orders_of_cancelled (now : Moment) (hp : j.plan.WellFormed)
    (h : x.Sound j told l σs) (hstop : x.control.cancelled = true) {m : RunMessage}
    (hm : x.outside.Expects m) :
    x.orders j now (.message m) = [] ∧
      (x.hear j now (.message m)).control = x.control.handle j now m := by
  obtain ⟨houtbox, -⟩ := h.invariant.handle_of_cancelled now hp h.outbox_eq hstop hm
  have hcore := Control.core_handle j now {} x.control m
  have hstop' : (x.control.handle j now m).cancelled = true :=
    (congrArg (fun p ↦ p.2.2) hcore :).trans hstop
  have hfill : (x.control.handle j now m).fill j now = x.control.handle j now m :=
    Control.fill_of_settled (.inl hstop')
  refine ⟨?_, ?_⟩
  · rw [orders, respond, hfill, houtbox]
  · have hempty : { x.control.handle j now m with outbox := [] } = x.control.handle j now m := by
      rw [← houtbox]
    simp only [Course.hear, turn, respond, Control.takeOrders, hfill, hempty]

/-- Only a run that is not cancelled asks for more than that starts of agents be given up. -/
theorem Sound.going_of_orders (hp : j.plan.WellFormed) (h : x.Sound j told l σs)
    (hσ : x.CanHear σ) {o : RunOrder} (ho : ∀ host, o ≠ .abandonAgent host)
    (hmem : o ∈ x.orders j now σ) : l.cancelled = false ∧ .cancel ∉ σ :: σs := by
  cases σ with
  | cancel =>
    rw [orders_cancel, h.outbox_eq, List.nil_append] at hmem
    obtain ⟨host, -, rfl⟩ := List.mem_map.mp hmem
    exact absurd rfl (ho host)
  | message m =>
    by_cases hstop : x.control.cancelled = true
    · rw [(h.orders_of_cancelled now hp hstop hσ.2).1] at hmem
      cases hmem
    · obtain ⟨hlaunch, hheard⟩ := h.going_iff.mp (by simpa using hstop)
      exact ⟨hlaunch, by simpa using hheard⟩

end Course

end Rollout
