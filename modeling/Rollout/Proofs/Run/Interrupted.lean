import Rollout.Proofs.Run.Agents
import Rollout.Proofs.Run.Orders

namespace Rollout

variable {j : Job} {told : Outcomes} {l : Launch} {now : Moment} {u : Outside}
  {σs τs : List Signal} {os : List RunOrder} {x y : Course}

theorem Job.Proper.begun {r : Report} {z : Change} (hp : j.plan.WellFormed)
    (hz : j.Proper told r z) (hstop : r.cancelled = true) {i : Nat} {y : StepRecord}
    (hy : r.steps[i]? = some y) (hbegun : y.state.isBegun = true) :
    (r.change z).cancelled = true ∧ ∃ y', (r.change z).steps[i]? = some y' ∧
      y'.attempts = y.attempts ∧ y'.state.isBegun = true := by
  cases z with
  | agent | finished => exact ⟨hstop, y, hy, rfl, hbegun⟩
  | cancelled => exact ⟨rfl, y, hy, rfl, hbegun⟩
  | event now id e =>
    obtain ⟨s, hs, hfits⟩ := hz
    obtain rfl := hp.id_of_step? hs
    rw [Report.change_event, Report.cancelled_apply, Report.getElem?_steps_apply]
    refine ⟨hstop, ?_⟩
    split
    · rename_i hi
      subst hi
      have hstate : r.stepState s.id = some y.state := by simp [Report.stepState, hy]
      rw [hy, Option.map_some]
      cases hfits with
      | dispatched h' | dependencyFailed _ h' | cancelled h' =>
        have hpending := Option.some.inj (hstate.symm.trans h')
        rw [hpending] at hbegun
        cases hbegun
      | retried _ _ _ _ hgo =>
        rw [hstop] at hgo
        cases hgo
      | completed b h' =>
        have hprogress := Option.some.inj (hstate.symm.trans h')
        rw [StepRecord.apply_completed now hprogress]
        exact ⟨_, rfl, rfl, rfl⟩
      | failed fault h' =>
        have hprogress := Option.some.inj (hstate.symm.trans h')
        rw [StepRecord.apply_failed now hprogress]
        exact ⟨_, rfl, rfl, rfl⟩
    · exact ⟨y, hy, rfl, hbegun⟩

namespace Course

/-- What a run can come to when it is cancelled in the course `x`, with the signals heard and the
orders given from then on. A run may have been cancelled before it begins. -/
inductive Interrupted (j : Job) (l : Launch) :
    Course → List Signal → List RunOrder → Course → Prop
  | launch (now : Moment) : l.cancelled = true →
      Interrupted j l ⟨.initial j l.runId l.createdAt, {}⟩ [] (firstOrders j l now)
        (launch j l now)
  | cancel (now : Moment) {σs : List Signal} {x : Course} :
      Reached j l σs x → x.CanHear .cancel →
      Interrupted j l x [] (x.orders j now .cancel) (x.hear j now .cancel)
  | hear (now : Moment) {τs : List Signal} {os : List RunOrder} {x y : Course} {σ : Signal} :
      Interrupted j l x τs os y → y.CanHear σ →
      Interrupted j l x (σ :: τs) (os ++ y.orders j now σ) (y.hear j now σ)
  | finish (now : Moment) {τs : List Signal} {os : List RunOrder} {x y : Course} :
      Interrupted j l x τs os y → y.control.isOver = true → y.control.report.finishedAt = none →
      Interrupted j l x τs os (y.finish j now)

theorem Interrupted.reached (h : Interrupted j l x τs os y) :
    ∃ σs, Reached j l σs y ∧ (l.cancelled = true ∨ .cancel ∈ σs) := by
  induction h with
  | launch now hstop => exact ⟨_, .launch now, .inl hstop⟩
  | cancel now hx hσ => exact ⟨_, .hear now hx hσ, .inr List.mem_cons_self⟩
  | hear now _ hσ ih =>
    obtain ⟨σs, hy, hstop⟩ := ih
    exact ⟨_, .hear now hy hσ, hstop.imp_right (List.mem_cons_of_mem _)⟩
  | finish now _ hover hopen ih =>
    obtain ⟨σs, hy, hstop⟩ := ih
    exact ⟨σs, .finish now hy hover hopen, hstop⟩

theorem Interrupted.sound (hp : j.plan.WellFormed) (h : Interrupted j l x τs os y) :
    ∃ σs, y.Sound j (fun _ _ _ ↦ True) l σs ∧ y.control.cancelled = true := by
  obtain ⟨σs, hy, hstop⟩ := h.reached
  have hsound := hy.sound_any hp
  exact ⟨σs, hsound, hsound.cancelled_iff.mpr hstop⟩

structure Poised (j : Job) (l : Launch) (x : Course) : Prop where
  invariant : x.control.Invariant j (fun _ _ _ ↦ True) l x.outside
  outbox_eq : x.control.outbox = []
  going : x.control.cancelled = false
  awaited : ∀ host, x.control.agentStarts.count host = x.outside.starts.count host
  known : ∀ host ∈ x.outside.starts, host ∈ j.inventory.addresses

theorem Interrupted.poised (hp : j.plan.WellFormed) (h : Interrupted j l x τs os y) :
    x.Poised j l := by
  induction h with
  | launch now _ =>
    exact ⟨.initial hp, rfl, rfl, fun _ ↦ rfl, fun _ hmem ↦ absurd hmem List.not_mem_nil⟩
  | @cancel now σs x hx hσ =>
    have hsound := hx.sound_any hp
    refine ⟨hsound.invariant, hsound.outbox_eq, hσ.2, fun host ↦ ?_, fun host hmem ↦ ?_⟩
    · have heq := (hx.attended hp hσ.2).awaited host
      rwa [hsound.outbox_eq, List.count_nil, Nat.add_zero] at heq
    · have hle := (hx.tended hp).starts_le host
      have hpos := List.count_pos_iff.mpr hmem
      exact List.count_pos_iff.mp (by omega)
  | hear _ _ _ ih => exact ih
  | finish _ _ _ _ ih => exact ih

theorem Poised.hear_cancel (now : Moment) (h : x.Poised j l) :
    x.orders j now .cancel = x.control.agentStarts.map .abandonAgent ∧
      x.hear j now .cancel = ⟨(x.control.cancel j now).takeOrders.1, x.outside⟩ := by
  refine ⟨?_, ?_⟩
  · rw [orders_cancel, h.outbox_eq, List.nil_append]
  · have hunder : (x.control.cancel j now).under x.outside = x.outside :=
      Control.under_cancel_of_empty h.outbox_eq
    simp only [Course.hear, turn, respond, Control.fill_cancel]
    exact congrArg (Course.mk _) hunder

/-- What is true right after a run was cancelled, and kept by every message, is true from then on.
Besides, no orders are given but to give up the starts of agents. -/
theorem Interrupted.induction {P : List Signal → Course → Prop} (hp : j.plan.WellFormed)
    (h : Interrupted j l x τs os y)
    (hcancel : ∀ now, P [] ⟨(x.control.cancel j now).takeOrders.1, x.outside⟩)
    (hmessage : ∀ now τs σs (y : Course) m, y.Sound j (fun _ _ _ ↦ True) l σs →
      y.control.cancelled = true → y.outside.Expects m → P τs y →
      P (.message m :: τs) ⟨y.control.handle j now m, y.outside.hear (.message m)⟩)
    (hfinish : ∀ now τs (y : Course), P τs y →
      P τs ⟨y.control.write (.finished now), y.outside⟩) :
    os = x.control.agentStarts.map .abandonAgent ∧ P τs y := by
  have hpoised := h.poised hp
  induction h with
  | launch now hstop =>
    obtain ⟨hlaunch, hfirst⟩ := launch_of_cancelled j now hstop
    obtain ⟨horders, hhear⟩ := hpoised.hear_cancel now
    rw [hlaunch, hfirst, horders, hhear]
    exact ⟨rfl, hcancel now⟩
  | cancel now hx hσ =>
    obtain ⟨horders, hhear⟩ := hpoised.hear_cancel now
    rw [horders, hhear]
    exact ⟨rfl, hcancel now⟩
  | @hear now τs os x y σ hy hσ ih =>
    obtain ⟨σs, hsound, hstop⟩ := hy.sound hp
    obtain ⟨hos, hP⟩ := ih hcancel hpoised
    cases σ with
    | cancel =>
      rw [hσ.2] at hstop
      cases hstop
    | message m =>
      obtain ⟨horders, hhear⟩ := hsound.orders_of_cancelled now hp hstop hσ.2
      have houtside : (y.hear j now (.message m)).outside = y.outside.hear (.message m) := by
        rw [outside_hear, horders, List.foldl_nil]
      have hcourse : y.hear j now (.message m) =
          ⟨y.control.handle j now m, y.outside.hear (.message m)⟩ :=
        congr (congrArg Course.mk hhear) houtside
      rw [horders, List.append_nil, hcourse]
      exact ⟨hos, hmessage now τs σs y m hsound hstop hσ.2 hP⟩
  | @finish now τs os x y hy hover _ ih =>
    obtain ⟨σs, hsound, -⟩ := hy.sound hp
    obtain ⟨hos, hP⟩ := ih hcancel hpoised
    rw [Course.finish, finish_eq now hp hsound.invariant hover]
    exact ⟨hos, hfinish now τs y hP⟩

section Interrupted

variable (hp : j.plan.WellFormed) (h : Interrupted j l x τs os y)
include hp h

theorem Interrupted.orders_eq : os = x.control.agentStarts.map .abandonAgent :=
  (h.induction (P := fun _ _ ↦ True) hp (fun _ ↦ trivial) (fun _ _ _ _ _ _ _ _ _ ↦ trivial)
    fun _ _ _ _ ↦ trivial).1

theorem Interrupted.history : ∃ now, (x.control.cancel j now).history <:+ y.control.history := by
  refine (h.induction (P := fun _ y ↦ ∃ now, (x.control.cancel j now).history <:+
    y.control.history) hp (fun now ↦ ⟨now, List.suffix_rfl⟩) ?_ ?_).2
  · rintro now τs σs y m - - - ⟨before, hsuf⟩
    exact ⟨before, hsuf.trans (Control.history_handle m)⟩
  · rintro now τs y ⟨before, hsuf⟩
    exact ⟨before, hsuf.trans (Control.history_write _)⟩

theorem Interrupted.attempts_eq :
    y.control.report.attempts = x.control.report.attempts :=
  (h.induction (P := fun _ y ↦ y.control.report.attempts = x.control.report.attempts) hp
    (fun _ ↦ Control.attempts_cancel)
    (fun now _ _ y m _ _ _ hy ↦
      (congrArg Prod.fst (Control.core_handle j now {} y.control m) :).trans hy)
    fun _ _ _ hy ↦ hy).2

theorem Interrupted.agents_eq : y.control.report.agents = x.control.report.agents.map fun p ↦
    if p.1 ∈ x.control.agentStarts then (p.1, some .unknown, false) else p :=
  (h.induction (P := fun _ y ↦ y.control.report.agents = x.control.report.agents.map fun p ↦
      if p.1 ∈ x.control.agentStarts then (p.1, some .unknown, false) else p) hp
    (fun _ ↦ Control.agents_cancel)
    (fun now _ _ _ _ hsound hstop hm hy ↦
      (hsound.invariant.handle_of_cancelled now hp hsound.outbox_eq hstop hm).2.trans hy)
    fun _ _ _ hy ↦ hy).2

theorem Interrupted.mem_attempts : ∀ i, i ∈ y.outside.attempts ↔
    i ∈ x.outside.attempts ∧ ∀ outcome, .message (.finished i outcome) ∉ τs := by
  refine (h.induction (P := fun τs y ↦ ∀ i, i ∈ y.outside.attempts ↔
    i ∈ x.outside.attempts ∧ ∀ outcome, .message (.finished i outcome) ∉ τs) hp ?_ ?_ ?_).2
  · intro now i
    simp
  · intro now τs σs y m hsound _ _ hy i
    cases m with
    | retryDue | agentDone => simpa [Outside.hear] using hy i
    | finished id outcome =>
      have hmem : i ∈ (y.outside.hear (.message (.finished id outcome))).attempts ↔
          i ≠ id ∧ i ∈ y.outside.attempts :=
        hsound.invariant.steady.nodup_attempts.mem_erase_iff
      rw [hmem, hy]
      by_cases hi : i = id
      · subst hi
        exact iff_of_false (fun hin ↦ hin.1 rfl) fun hin ↦ hin.2 outcome List.mem_cons_self
      · simp [hi]
  · intro now τs y hy
    exact hy

end Interrupted

/-- What a cancelled run comes to. -/
structure WoundDown (j : Job) (l : Launch) (x : Course) (τs : List Signal) (os : List RunOrder)
    (y : Course) : Prop where
  orders_eq : os = x.control.agentStarts.map .abandonAgent
  attempts_eq : y.control.report.attempts = x.control.report.attempts
  /-- What had not begun is skipped, be it that it waited for a retry. -/
  pending : ∃ now, ∀ (i : Nat) r, x.control.report.steps[i]? = some r → r.state = .pending →
    y.control.report.steps[i]? = some { r with
      state := .skipped, skippedBecause := some "run cancelled", finishedAt := some now }
  waiting : ∀ i ∈ x.outside.retries, x.control.report.stepState i = some .pending
  begun : ∀ (i : Nat) r, x.control.report.steps[i]? = some r → r.state = .inProgress →
    ∀ ws, x.control.history <:+ ws → ws <:+ y.control.history →
    ∃ r', ((l.report j).after ws).steps[i]? = some r' ∧ r'.attempts = r.attempts ∧
      (r'.state = .inProgress ∨ r'.state = .succeeded ∨ r'.state = .failed)
  report_eq : y.control.report = (l.report j).after y.control.history
  inProgress : ∀ i, y.control.report.stepState i = some .inProgress ↔ i ∈ y.outside.attempts
  attempts : ∀ i, i ∈ y.outside.attempts ↔
    i ∈ x.outside.attempts ∧ ∀ outcome, .message (.finished i outcome) ∉ τs
  agents : ∀ host ∈ x.outside.starts,
    host ∈ y.control.report.hosts.map HostRecord.address ∧
    ∀ g ∈ y.control.report.hosts, g.address = host →
      g.agentHealth = some .unknown ∧ g.monitoringDegraded = false
  /-- Nothing else that may be heard matters. -/
  late : ∀ now m, y.CanHear (.message m) → (∀ id outcome, m ≠ .finished id outcome) →
    (y.hear j now (.message m)).control = y.control
  isOver_iff : y.control.isOver = true ↔ y.outside.attempts = []
  exit : y.control.isOver = true → ∀ now, (y.finish j now).control.report.cancelled = true ∧
    (y.finish j now).control.report.exitCode = 2 ∧
    ∀ r ∈ (y.finish j now).control.report.steps, r.state ≠ .pending ∧ r.state ≠ .inProgress

theorem Interrupted.pending (hp : j.plan.WellFormed) (h : Interrupted j l x τs os y) :
    ∃ now, ∀ (i : Nat) r, x.control.report.steps[i]? = some r → r.state = .pending →
      y.control.report.steps[i]? = some { r with
        state := .skipped, skippedBecause := some "run cancelled", finishedAt := some now } := by
  obtain ⟨now, hsuf⟩ := h.history hp
  obtain ⟨σs, hsound, -⟩ := h.sound hp
  have hinv := (h.poised hp).invariant
  have hcancelled : (x.control.cancel j now).Invariant j (fun _ _ _ ↦ True) l x.outside :=
    hinv.cancel hp
  refine ⟨now, fun i r hr hpending ↦ ?_⟩
  have hskipped := hinv.steady.getElem?_cancel now hp hr hpending
  rw [hcancelled.steady.sound.report_eq] at hskipped
  rw [hsound.invariant.steady.sound.report_eq]
  exact hsound.invariant.steady.sound.chronicle.terminal hp hsuf hskipped rfl

theorem Interrupted.begun (hp : j.plan.WellFormed) (h : Interrupted j l x τs os y) {i : Nat}
    {r : StepRecord} (hr : x.control.report.steps[i]? = some r) (hbegun : r.state.isBegun = true)
    {ws : List Change} (hxw : x.control.history <:+ ws) (hwy : ws <:+ y.control.history) :
    ∃ r', ((l.report j).after ws).steps[i]? = some r' ∧ r'.attempts = r.attempts ∧
      r'.state.isBegun = true := by
  obtain ⟨now, hsuf⟩ := h.history hp
  obtain ⟨σs, hsound, -⟩ := h.sound hp
  rw [(h.poised hp).invariant.steady.sound.report_eq] at hr
  have hmark : .cancelled :: x.control.history <:+ y.control.history :=
    Control.history_cancelled.trans hsuf
  by_cases hle : (Change.cancelled :: x.control.history).length ≤ ws.length
  · have hmarked := List.suffix_of_suffix_length_le hmark hwy hle
    refine ((hsound.invariant.steady.sound.chronicle.of_suffix hwy).induction
      (P := fun q ↦ q.cancelled = true ∧ ∃ r', q.steps[i]? = some r' ∧ r'.attempts = r.attempts ∧
        r'.state.isBegun = true) hmarked ⟨rfl, r, hr, rfl, hbegun⟩ ?_).2
    rintro q z ⟨hstop, r', hr', hattempts, hbegun'⟩ hz
    obtain ⟨hstop', r'', hr'', hattempts', hbegun''⟩ := hz.begun hp hstop hr' hbegun'
    exact ⟨hstop', r'', hr'', hattempts'.trans hattempts, hbegun''⟩
  · -- not even the cancellation has been noted
    rw [List.length_cons, Nat.not_le, Nat.lt_succ_iff] at hle
    rw [← hxw.eq_of_length_le hle]
    exact ⟨r, hr, rfl, hbegun⟩

theorem Interrupted.agents (hp : j.plan.WellFormed) (h : Interrupted j l x τs os y)
    {g : HostRecord} (hg : g ∈ y.control.report.hosts) (hstart : g.address ∈ x.outside.starts) :
    g.agentHealth = some .unknown ∧ g.monitoringDegraded = false := by
  have hawaited : g.address ∈ x.control.agentStarts := by
    rw [← List.count_pos_iff, (h.poised hp).awaited, List.count_pos_iff]
    exact hstart
  have hmem := Report.mem_agents hg
  rw [h.agents_eq hp] at hmem
  obtain ⟨⟨address, health, degraded⟩, -, heq⟩ := List.mem_map.mp hmem
  split at heq
  · simp only [Prod.mk.injEq] at heq
    exact ⟨heq.2.1.symm, heq.2.2.symm⟩
  · rename_i hnot
    cases heq
    exact absurd hawaited hnot

theorem Sound.late (now : Moment) (hp : j.plan.WellFormed) (h : y.Sound j told l σs)
    (hstop : y.control.cancelled = true) {m : RunMessage} (hm : y.outside.Expects m)
    (hother : ∀ id outcome, m ≠ .finished id outcome) :
    (y.hear j now (.message m)).control = y.control := by
  have hclosed := h.invariant.closed hstop
  rw [(h.orders_of_cancelled now hp hstop hm).2]
  cases m with
  | finished id outcome => exact absurd rfl (hother id outcome)
  | retryDue id =>
    have hzero : y.control.waitingRetry - 1 = y.control.waitingRetry := by
      rw [hclosed.waiting_eq]
    rw [Control.handle_retryDue_of_cancelled hstop, hzero]
  | agentDone host outcome =>
    rw [Control.handle_agentDone, hclosed.starts_eq]
    rfl

theorem Sound.isOver_iff (h : y.Sound j told l σs) (hstop : y.control.cancelled = true) :
    y.control.isOver = true ↔ y.outside.attempts = [] := by
  have hclosed := h.invariant.closed hstop
  rw [Control.isOver_iff, h.invariant.steady.inFlight_eq, List.length_eq_zero_iff]
  simp [hclosed.waiting_eq, hclosed.starts_eq, hstop]

theorem Sound.exit (now : Moment) (hp : j.plan.WellFormed) (h : y.Sound j told l σs)
    (hstop : y.control.cancelled = true) (hover : y.control.isOver = true) :
    (y.finish j now).control.report.cancelled = true ∧
      (y.finish j now).control.report.exitCode = 2 ∧
      ∀ r ∈ (y.finish j now).control.report.steps, r.state ≠ .pending ∧ r.state ≠ .inProgress := by
  have hcancelled : y.control.report.cancelled = true :=
    h.invariant.steady.cancelled_eq.trans hstop
  rw [Course.finish, finish_eq now hp h.invariant hover]
  refine ⟨hcancelled, ?_, fun r hr ↦ ?_⟩
  · simp [Report.change, Report.markFinished, Report.exitCode, Report.outcome, hcancelled]
  · obtain ⟨i, hi⟩ := List.mem_iff_getElem?.mp hr
    have hstate : y.control.report.stepState i = some r.state :=
      Option.map_eq_some_iff.mpr ⟨r, hi, rfl⟩
    have hend := h.invariant.terminal_of_isOver hp hover hstate
    constructor <;> rintro hopen <;> rw [hopen] at hend <;> cases hend

/-- A cancelled run begins nothing, skips what had not begun, and waits for what had. -/
theorem Interrupted.woundDown {steps : List Step} (hplan : Plan.ofSteps steps = .ok j.plan)
    (h : Interrupted j l x τs os y) : WoundDown j l x τs os y := by
  have hp := Plan.wellFormed_of_ofSteps hplan
  have hpoised := h.poised hp
  obtain ⟨σs, hsound, hstop⟩ := h.sound hp
  have hsteady := hsound.invariant.steady
  refine ⟨h.orders_eq hp, h.attempts_eq hp, h.pending hp, ?_, ?_, hsteady.sound.report_eq, ?_,
    h.mem_attempts hp, ?_, ?_, hsound.isOver_iff hstop,
    fun hover now ↦ hsound.exit now hp hstop hover⟩
  · intro i hi
    exact (hpoised.invariant.going hpoised.going).pending (.inr hi)
  · intro i r hr hprogress ws hxw hwy
    obtain ⟨r', hr', hattempts, hbegun⟩ :=
      h.begun hp hr (by rw [hprogress]; rfl) hxw hwy
    refine ⟨r', hr', hattempts, ?_⟩
    cases hstate : r'.state with
    | inProgress => exact .inl rfl
    | succeeded => exact .inr (.inl rfl)
    | failed => exact .inr (.inr rfl)
    | pending | skipped =>
      rw [hstate] at hbegun
      cases hbegun
  · intro i
    exact (hsteady.mem_attempts i).symm
  · intro host hstart
    refine ⟨?_, ?_⟩
    · rw [hsteady.sound.addresses_eq]
      exact hpoised.known host hstart
    · rintro g hg rfl
      exact h.agents hp hg hstart
  · intro now m hm hother
    exact hsound.late now hp hstop hm.2 hother

/-- The run is cancelled while an attempt and the start of an agent are under way, and hears of both
later. -/
theorem woundDown_trio :
    let late : List Signal :=
      [.message (.finished 0 (.error (.connect "a" "refused"))),
        .message (.agentDone "b" (.ok .healthy))]
    let before : List Signal := [.message (.finished 1 (.ok true))]
    ∃ os, WoundDown (.trio 2) ⟨"run", .origin, false⟩
      (play (.trio 2) ⟨"run", .origin, false⟩ .origin before) late os
      (play (.trio 2) ⟨"run", .origin, false⟩ .origin (late ++ .cancel :: before)) := by
  intro late before
  have hreached : Reached (.trio 2) ⟨"run", .origin, false⟩ before
      (play (.trio 2) ⟨"run", .origin, false⟩ .origin before) :=
    .hear _ (.launch _) (by decide)
  exact ⟨_, Interrupted.woundDown (Job.ofSteps_trio 2)
    (.hear .origin (.hear .origin (.cancel .origin hreached (by decide)) (by decide)) (by decide))⟩

end Course

end Rollout
