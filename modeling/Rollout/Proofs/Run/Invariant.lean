import Rollout.Proofs.Run.Steady

namespace Rollout.Control

/-- What holds of a control and of what is under way outside. -/
structure Invariant (j : Job) (told : Outcomes) (l : Launch) (u : Outside) (c : Control) :
    Prop where
  steady : c.Steady j told l u
  going : c.cancelled = false → c.Open j u
  closed : c.cancelled = true → c.Closed

variable {j : Job} {told : Outcomes} {l : Launch} {now : Moment} {c c' : Control} {u u' : Outside}
  {id : Nat} {s : Step} {e : StepEvent}

theorem under_of_empty (h : c.outbox = []) : c.under u = u := by
  rw [under, h, List.foldl_nil]

theorem under_cancel_of_empty (h : c.outbox = []) : (c.cancel j now).under u = u :=
  under_cancel.trans (under_of_empty h)

namespace Closed

theorem ended (h : c.Closed) (hid : c.report.stepState id = some .inProgress)
    (he : (Status.next .inProgress e).1 ≠ .pending) : (c.ended now id e).Closed where
  ready_eq := h.ready_eq
  waiting_eq := h.waiting_eq
  starts_eq := h.starts_eq
  none_pending i := by
    rw [Control.ended, report_write, Report.change_event, Report.stepState_apply]
    split
    · rename_i hi
      simp [hi, hid, he]
    · exact h.none_pending i

theorem released (h : c.Closed) (hstop : c.cancelled = true) {ids : List Nat} (hids : ids.Nodup) :
    (ids.foldl releaseStep c).Closed := by
  have hready : (ids.foldl releaseStep c).ready = [] := by
    refine List.eq_nil_iff_forall_not_mem.mpr fun k hk ↦ ?_
    rw [mem_ready_foldl_releaseStep hids, h.ready_eq, hstop] at hk
    simp at hk
  rw [foldl_releaseStep_eq]
  exact ⟨hready, h.waiting_eq, h.starts_eq, h.none_pending⟩

theorem skipDependents (h : c.Closed) (cause : String) :
    (c.skipDependents j now id cause).Closed :=
  foldl_skipStep_induct h fun _ i _ hc' hpending ↦ absurd hpending (hc'.none_pending i)

end Closed

namespace Invariant

theorem startAgent (h : c.Invariant j told l (c.under u)) (host : String) :
    (c.startAgent j host).Invariant j told l ((c.startAgent j host).under u) := by
  by_cases hstop : c.cancelled = true
  · rwa [startAgent_of_cancelled hstop]
  · have hbare := bare_startAgent (j := j) (c := c) host
    obtain ⟨hattempts, hretries⟩ := under_startAgent (j := j) (c := c) (u := u) host
    have hreport := (congrArg Control.report hbare :)
    have hcancelled := (congrArg Control.cancelled hbare :)
    refine ⟨h.steady.frame hreport (congrArg Control.history hbare :)
      (congrArg Control.inFlight hbare :) hcancelled hattempts, ?_, ?_⟩
    · intro hgo
      exact (h.going (by simpa using hstop)).frame (congrArg Control.remaining hbare :)
        (congrArg Control.ready hbare :) (congrArg (fun c ↦ c.report.stepState) hbare :)
        (congrArg Control.waitingRetry hbare :) hretries
    · intro hstop'
      exact absurd (hcancelled.symm.trans hstop') hstop

theorem hostChanged (h : c.Invariant j told l (c.under u)) (host : String)
    (change : Option Status) :
    (c.hostChanged j host change).Invariant j told l ((c.hostChanged j host change).under u) := by
  unfold Control.hostChanged
  split
  · exact h.startAgent host
  · exact h

section Finished

variable (hp : j.plan.WellFormed) (h : c.Invariant j told l u) (hempty : c.outbox = [])
  (hid : id ∈ u.attempts)
include hp h hempty hid

theorem completed {b : Bool} (htold : told id (c.report.attempts id) (.ok b)) :
    (c.handle j now (.finished id (.ok b))).Invariant j told l
      ((c.handle j now (.finished id (.ok b))).under
        { u with attempts := u.attempts.erase id }) := by
  have hstate := (h.steady.mem_attempts id).mp hid
  obtain ⟨s, hs, rfl⟩ := h.steady.step?_of_stepState hp hstate
  rw [handle_completed hs rfl hstate]
  refine hostChanged ?_ _ _
  have hunder : ((j.plan.successors s.id).foldl releaseStep
      (c.ended now s.id (.completed b))).under { u with attempts := u.attempts.erase s.id } =
        { u with attempts := u.attempts.erase s.id } := by
    rw [foldl_releaseStep_eq]
    exact under_of_empty hempty
  have hcancelled : ((j.plan.successors s.id).foldl releaseStep
      (c.ended now s.id (.completed b))).cancelled = c.cancelled := by
    rw [foldl_releaseStep_eq]
    rfl
  have hfits : j.Fits told c.report s (.completed b) := .completed b hstate htold
  rw [hunder]
  refine ⟨?_, ?_, ?_⟩
  · exact (h.steady.ended hid ⟨s, hs, hfits⟩ (by simp [Status.next])).released _
  · intro hgo
    rw [hcancelled] at hgo
    exact ((h.going hgo).completed hp hgo hstate b).frame rfl rfl rfl rfl rfl
  · intro hstop
    rw [hcancelled] at hstop
    exact ((h.closed hstop).ended hstate (by simp [Status.next])).released hstop
      (hp.nodup_successors _)

theorem retried (hgo : c.cancelled = false) {s : Step} (hs : j.plan.step? id = some s)
    {fault : Fault} {delay : Span}
    (hdelay : j.delayAfter s (c.report.attempts id) fault = some delay)
    (htold : told id (c.report.attempts id) (.error fault)) :
    (c.handle j now (.finished id (.error fault))).Invariant j told l
      ((c.handle j now (.finished id (.error fault))).under
        { u with attempts := u.attempts.erase id }) := by
  have hstate := (h.steady.mem_attempts id).mp hid
  obtain rfl := hp.id_of_step? hs
  rw [handle_retried hs rfl hstate hgo hdelay, under_order]
  have hfits : j.Fits told c.report s (.failed fault.message (some delay)) :=
    .retried fault delay hstate htold (h.steady.cancelled_eq.trans hgo) hdelay
  have hunder : ({ c.ended now s.id (.failed fault.message (some delay)) with
      waitingRetry := c.waitingRetry + 1 }).under { u with attempts := u.attempts.erase s.id } =
        { u with attempts := u.attempts.erase s.id } := under_of_empty hempty
  have hpre : ∀ a, j.plan.Precedes a s.id → c.report.stepState a = some .succeeded := fun a ha ↦
    (h.steady.sound.holds hp).awaited_of_stepState (.single ha) hstate rfl
  rw [hunder]
  refine ⟨?_, ?_, ?_⟩
  · exact (h.steady.ended hid ⟨s, hs, hfits⟩ (by simp [Status.next])).frame rfl rfl rfl rfl rfl
  · intro _
    exact ((h.going hgo).retried hstate hpre fault.message delay).frame rfl rfl rfl rfl rfl
  · intro hstop
    exact absurd (hgo.symm.trans hstop) (by simp)

theorem failed {s : Step} (hs : j.plan.step? id = some s) {fault : Fault}
    (hend : c.cancelled = true ∨ j.delayAfter s (c.report.attempts id) fault = none)
    (htold : told id (c.report.attempts id) (.error fault)) :
    (c.handle j now (.finished id (.error fault))).Invariant j told l
      ((c.handle j now (.finished id (.error fault))).under
        { u with attempts := u.attempts.erase id }) := by
  have hstate := (h.steady.mem_attempts id).mp hid
  obtain rfl := hp.id_of_step? hs
  have hframe := frame_skipDependents j now s.id s.label
    (c.ended now s.id (.failed fault.message none))
  have hcancelled : ((c.ended now s.id (.failed fault.message none)).skipDependents j now s.id
      s.label).cancelled = c.cancelled := (congrArg Control.cancelled hframe :)
  have houtbox : ((c.ended now s.id (.failed fault.message none)).skipDependents j now s.id
      s.label).outbox = c.outbox := (congrArg Control.outbox hframe :)
  have hfits : j.Fits told c.report s (.failed fault.message none) :=
    .failed fault hstate htold (hend.imp_left h.steady.cancelled_eq.trans)
  have hawaits : ∀ b, j.plan.Awaits b s.id →
      c.report.stepState b = some .pending ∨ c.report.stepState b = some .skipped := by
    intro b hb
    obtain ⟨x, hx⟩ := h.steady.stepState_of_awaits hp hb
    rw [hx]
    cases x with
    | pending => exact .inl rfl
    | skipped => exact .inr rfl
    | inProgress | succeeded | failed =>
      have hpre := (h.steady.sound.holds hp).awaited_of_stepState hb hx rfl
      rw [hstate] at hpre
      cases hpre
  rw [handle_failed hs rfl hstate hend, under_of_empty (houtbox.trans hempty)]
  refine ⟨?_, ?_, ?_⟩
  · have hended : (c.ended now s.id (.failed fault.message none)).Steady j told l
        { u with attempts := u.attempts.erase s.id } :=
      h.steady.ended hid ⟨s, hs, hfits⟩ (by simp [Status.next])
    exact hended.skipDependents hp (List.mem_of_getElem? hs) (Report.stepState_apply_self hstate)
  · intro hgo
    rw [hcancelled] at hgo
    exact ((h.going hgo).failed hp hstate hawaits fault.message s.label).frame rfl rfl rfl rfl rfl
  · intro hstop
    rw [hcancelled] at hstop
    exact ((h.closed hstop).ended hstate (by simp [Status.next])).skipDependents _

end Finished

theorem retryDue (h : c.Invariant j told l u) (hempty : c.outbox = []) (hid : id ∈ u.retries) :
    (c.handle j now (.retryDue id)).Invariant j told l
      ((c.handle j now (.retryDue id)).under { u with retries := u.retries.erase id }) := by
  by_cases hstop : c.cancelled = true
  · have hclosed := h.closed hstop
    rw [handle_retryDue_of_cancelled hstop, under_of_empty]
    · refine ⟨h.steady.frame rfl rfl rfl rfl rfl, ?_, ?_⟩
      · intro hgo
        exact absurd (hgo.symm.trans hstop) (by simp)
      · intro _
        exact ⟨hclosed.ready_eq, by simp [hclosed.waiting_eq], hclosed.starts_eq,
          hclosed.none_pending⟩
    · exact hempty
  · have hgo : c.cancelled = false := by simpa using hstop
    have hopen := h.going hgo
    rw [handle_retryDue hgo (hopen.pending (.inr hid)), under_of_empty]
    · exact ⟨h.steady.frame rfl rfl rfl rfl rfl, fun _ ↦ hopen.retryDue hid,
        fun hstop' ↦ absurd hstop' hstop⟩
    · exact hempty

theorem agentDone (h : c.Invariant j told l u) (hempty : c.outbox = []) (host : String)
    (outcome : Result AgentHealth) :
    (c.handle j now (.agentDone host outcome)).Invariant j told l
      ((c.handle j now (.agentDone host outcome)).under
        { u with starts := u.starts.erase host }) := by
  have hwrite : ∀ health degraded,
      ({ c with agentStarts := c.agentStarts.erase host }.write
        (.agent host health degraded)).Invariant j told l
        { u with starts := u.starts.erase host } := by
    intro health degraded
    have hsteady := h.steady.write (x := .agent host health degraded) trivial (fun _ ↦ .rfl) rfl
    refine ⟨hsteady.frame rfl rfl rfl rfl rfl, fun hgo ↦ (h.going hgo).frame rfl rfl rfl rfl rfl,
      fun hstop ↦ ?_⟩
    have hclosed := h.closed hstop
    exact ⟨hclosed.ready_eq, hclosed.waiting_eq, by simp [hclosed.starts_eq], hclosed.none_pending⟩
  rw [handle_agentDone]
  split
  · rw [under_of_empty]
    · exact hwrite _ _
    · exact hempty
  · rw [under_of_empty hempty]
    exact ⟨h.steady.frame rfl rfl rfl rfl rfl, fun hgo ↦ (h.going hgo).frame rfl rfl rfl rfl rfl,
      h.closed⟩

theorem handle (hp : j.plan.WellFormed) (h : c.Invariant j told l u) (hempty : c.outbox = [])
    {m : RunMessage} (hm : u.Expects m)
    (htold : ∀ id outcome, m = .finished id outcome → told id (c.report.attempts id) outcome) :
    (c.handle j now m).Invariant j told l ((c.handle j now m).under (u.hear (.message m))) := by
  cases m with
  | retryDue id => exact h.retryDue hempty hm
  | agentDone host outcome => exact h.agentDone hempty host outcome
  | finished id outcome =>
    have htold := htold id outcome rfl
    cases outcome with
    | ok b => exact h.completed hp hempty hm htold
    | error fault =>
      obtain ⟨s, hs, -⟩ := h.steady.step?_of_stepState hp ((h.steady.mem_attempts id).mp hm)
      by_cases hstop : c.cancelled = true
      · exact h.failed hp hempty hm hs (.inl hstop) htold
      · cases hdelay : j.delayAfter s (c.report.attempts id) fault with
        | none => exact h.failed hp hempty hm hs (.inr hdelay) htold
        | some delay => exact h.retried hp hempty hm (by simpa using hstop) hs hdelay htold

theorem cancel (hp : j.plan.WellFormed) (h : c.Invariant j told l u) :
    (c.cancel j now).Invariant j told l u where
  steady := h.steady.cancel hp
  going hgo := absurd (hgo.symm.trans cancelled_cancel) (by simp)
  closed _ := h.steady.closed_cancel hp

theorem takeOrders (h : c.Invariant j told l u) : c.takeOrders.1.Invariant j told l u where
  steady := h.steady.frame rfl rfl rfl rfl rfl
  going hgo := (h.going hgo).frame rfl rfl rfl rfl rfl
  closed hstop :=
    have hclosed := h.closed hstop
    ⟨hclosed.ready_eq, hclosed.waiting_eq, hclosed.starts_eq, hclosed.none_pending⟩

theorem dispatch_eq (hp : j.plan.WellFormed) (h : c.Invariant j told l u)
    (hgo : c.cancelled = false) {ready : List Nat} (hready : c.ready = id :: ready) :
    { c with ready := ready }.dispatch j now id =
      { { c with ready := ready }.write (.event now id .dispatched) with
        inFlight := c.inFlight + 1 }.order (.attempt id) := by
  have hpending := (h.going hgo).pending (i := id) (by simp [hready])
  obtain ⟨s, hs, -⟩ := h.steady.step?_of_stepState hp hpending
  exact dispatch_of_pending hs hpending

theorem dispatch (hp : j.plan.WellFormed) (h : c.Invariant j told l (c.under u))
    (hgo : c.cancelled = false) (hlt : c.inFlight < j.workers) {ready : List Nat}
    (hready : c.ready = id :: ready) :
    ({ c with ready := ready }.dispatch j now id).Invariant j told l
      (({ c with ready := ready }.dispatch j now id).under u) := by
  have hopen := h.going hgo
  have hbegin := (hopen.frontier id).mp (by simp [hready])
  obtain ⟨s, hs, hid⟩ := h.steady.step?_of_stepState hp hbegin.1
  rw [h.dispatch_eq hp hgo hready, under_order]
  refine ⟨?_, ?_, ?_⟩
  · exact (h.steady.dispatched now hlt hs hid hbegin).frame rfl rfl rfl rfl rfl
  · intro _
    exact (hopen.dispatched hready).frame rfl rfl rfl rfl rfl
  · intro hstop
    exact absurd (hgo.symm.trans hstop) (by simp)

theorem dispatchReady_induct (now : Moment) (hp : j.plan.WellFormed) {P : Control → Prop}
    (hstep : ∀ c id ready, c.Invariant j told l (c.under u) → P c → c.ready = id :: ready →
      c.cancelled = false → c.inFlight < j.workers →
      P ({ c with ready := ready }.dispatch j now id))
    (rounds : Nat) {c : Control} (h : c.Invariant j told l (c.under u)) (hP : P c) :
    (c.dispatchReady j now rounds).Invariant j told l ((c.dispatchReady j now rounds).under u) ∧
      P (c.dispatchReady j now rounds) := by
  induction rounds generalizing c with
  | zero => exact ⟨h, hP⟩
  | succ rounds ih =>
    rw [Control.dispatchReady]
    split
    · exact ⟨h, hP⟩
    · rename_i hgo
      simp only [Bool.or_eq_true, decide_eq_true_eq, not_or, Bool.not_eq_true, Nat.not_le] at hgo
      split
      · exact ⟨h, hP⟩
      · rename_i id ready hready
        exact ih (h.dispatch hp hgo.1 hgo.2 hready) (hstep c id ready h hP hready hgo.1 hgo.2)

end Invariant

theorem ready_dispatch : (c.dispatch j now id).ready = c.ready := by
  simp only [Control.dispatch]
  split
  · rfl
  · split <;> rfl

/-- With enough rounds, ready steps are left only if all workers are taken. -/
theorem dispatchReady_settled {rounds : Nat} (hle : c.ready.length ≤ rounds)
    (hgo : (c.dispatchReady j now rounds).cancelled = false) :
    (c.dispatchReady j now rounds).ready = [] ∨
      j.workers ≤ (c.dispatchReady j now rounds).inFlight := by
  induction rounds generalizing c with
  | zero => exact .inl (List.eq_nil_of_length_eq_zero (Nat.le_zero.mp hle))
  | succ rounds ih =>
    rw [Control.dispatchReady] at hgo ⊢
    split at hgo
    · rename_i hfull
      rw [if_pos hfull]
      simp only [Bool.or_eq_true, decide_eq_true_eq, hgo, Bool.false_eq_true, false_or] at hfull
      exact .inr hfull
    · rename_i hfull
      rw [if_neg hfull]
      cases hready : c.ready with
      | nil => exact .inl hready
      | cons id ready =>
        rw [hready] at hgo hle
        exact ih (by rw [ready_dispatch]; simpa using hle) hgo

theorem isOver_iff : c.isOver = true ↔
    c.inFlight = 0 ∧ c.waitingRetry = 0 ∧ c.agentStarts = [] ∧
      (c.ready = [] ∨ c.cancelled = true) := by
  simp [isOver, and_assoc]

theorem Invariant.terminal_of_isOver (hp : j.plan.WellFormed) (h : c.Invariant j told l u)
    (hover : c.isOver = true) {i : Nat} {x : Status} (hx : c.report.stepState i = some x) :
    x.isTerminal = true := by
  obtain ⟨hinFlight, hwaiting, -, hready⟩ := isOver_iff.mp hover
  have hattempts : ∀ i, c.report.stepState i ≠ some .inProgress := by
    intro i hi
    rw [h.steady.inFlight_eq, List.length_eq_zero_iff] at hinFlight
    rw [← h.steady.mem_attempts, hinFlight] at hi
    cases hi
  have hpending : ∀ i, c.report.stepState i ≠ some .pending := by
    by_cases hstop : c.cancelled = true
    · exact (h.closed hstop).none_pending
    · have hopen := h.going (by simpa using hstop)
      have hretries : u.retries = [] :=
        List.eq_nil_of_length_eq_zero (hopen.waiting_eq.symm.trans hwaiting)
      intro i
      -- a pending step that comes first could begin, but nothing is left that can
      induction i using hp.acyclic.induction with
      | _ i ih =>
        intro hi
        have hnot := (hopen.frontier i).not.mp (by simp [hready.resolve_right hstop, hretries])
        refine hnot ⟨hi, fun a ha ↦ ?_⟩
        obtain ⟨s, hs, rfl⟩ := hp.exists_of_precedes ha
        obtain ⟨x, hx⟩ := h.steady.stepState_of_mem hp hs
        have hlost : ¬ c.report.IsLost s.id := fun hlost ↦ by
          rw [hopen.contagion _ i ha hlost] at hi
          cases hi
        rw [hx]
        cases x with
        | succeeded => rfl
        | pending => exact absurd hx (ih s.id ha)
        | inProgress => exact absurd hx (hattempts s.id)
        | failed => exact absurd (.inl hx) hlost
        | skipped => exact absurd (.inr hx) hlost
  cases x with
  | pending => exact absurd hx (hpending i)
  | inProgress => exact absurd hx (hattempts i)
  | succeeded | failed | skipped => rfl

end Rollout.Control
