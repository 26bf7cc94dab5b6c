import Rollout.Proofs.Run.Growth
import Rollout.Proofs.Run.Orders

namespace Rollout

variable {j : Job} {told : Outcomes} {l : Launch} {now : Moment} {u : Outside}
  {σs : List Signal} {id : Nat} {delay : Span}

/-- An attempt is repeated for these reasons only, and after this delay. -/
theorem retryDelay_eq_some_iff {kind : StepKind} {retryable : Bool} {fault : Fault} {k : Nat}
    {policy : RetryPolicy} : retryDelay kind retryable fault k policy = some delay ↔
      kind ≠ .verify ∧
      (fault.isTransient = true ∨ retryable = true ∧ fault.isExec = true) ∧
      k < policy.maxAttempts ∧ policy.backoffFor k = delay := by
  unfold retryDelay
  by_cases hkind : kind = .verify
  · simp [hkind]
  · simp [hkind, RetryPolicy.allowsRetry, and_assoc]

namespace Control

variable {c c' : Control} {m : RunMessage} {o : RunOrder}

theorem mem_outbox_fill_iff (ho : ∀ i, o ≠ .attempt i) :
    o ∈ (c.fill j now).outbox ↔ o ∈ c.outbox := by
  have hdispatch : ∀ (c : Control) (i : Nat), o ∈ (c.dispatch j now i).outbox ↔ o ∈ c.outbox := by
    intro c i
    simp only [dispatch]
    split
    · rfl
    · split
      · simp [order, apply, ho i]
      · rfl
  have hrounds : ∀ (rounds : Nat) (c : Control),
      o ∈ (c.dispatchReady j now rounds).outbox ↔ o ∈ c.outbox := by
    intro rounds
    induction rounds with
    | zero => exact fun _ ↦ Iff.rfl
    | succ rounds ih =>
      intro c
      rw [dispatchReady]
      split
      · rfl
      · split
        · rfl
        · rw [ih, hdispatch]
  exact hrounds _ c

theorem mem_outbox_hostChanged {host : String} {change : Option Status}
    (ho : ∀ a, o ≠ .startAgent a) : o ∈ (c.hostChanged j host change).outbox ↔ o ∈ c.outbox := by
  unfold hostChanged
  split
  · unfold startAgent
    split
    · rfl
    · simp [order, ho host]
  · rfl

theorem Invariant.retried_of_handle (hp : j.plan.WellFormed) (h : c.Invariant j told l u)
    (hempty : c.outbox = []) (hm : u.Expects m)
    (hmem : .retryLater id delay ∈ (c.handle j now m).outbox) :
    ∃ s fault, m = .finished id (.error fault) ∧ j.plan.step? id = some s ∧
      j.delayAfter s (c.report.attempts id) fault = some delay := by
  cases m with
  | retryDue i =>
    have houtbox : (c.handle j now (.retryDue i)).outbox = c.outbox := by
      simp only [Control.handle]
      split <;> rfl
    rw [houtbox, hempty] at hmem
    cases hmem
  | agentDone host outcome =>
    have houtbox : (c.handle j now (.agentDone host outcome)).outbox = c.outbox := by
      rw [handle_agentDone]
      split <;> rfl
    rw [houtbox, hempty] at hmem
    cases hmem
  | finished i outcome =>
    have hbegun := (h.steady.mem_attempts i).mp hm
    obtain ⟨s, hs, hid⟩ := h.steady.step?_of_stepState hp hbegun
    have hended : ∀ e, (c.ended now i e).outbox = [] := fun _ ↦ hempty
    cases outcome with
    | ok b =>
      rw [handle_completed hs hid hbegun, mem_outbox_hostChanged (by simp),
        foldl_releaseStep_eq, hended] at hmem
      cases hmem
    | error fault =>
      rcases handle_error hs hid hbegun fault with ⟨-, d, hdelay, heq⟩ | ⟨-, heq⟩
      · rw [heq] at hmem
        have hlast : RunOrder.retryLater id delay = .retryLater i d := by
          simpa [order, hended] using hmem
        cases hlast
        exact ⟨s, fault, rfl, hs, hdelay⟩
      · have hframe := frame_skipDependents j now i s.label
          (c.ended now i (.failed fault.message none))
        rw [heq, (congrArg Control.outbox hframe :), hended] at hmem
        cases hmem

theorem stepState_ended (hbegun : c.report.stepState id = some .inProgress) (e : StepEvent) :
    (c.ended now id e).report.stepState id = some (Status.next .inProgress e).1 := by
  rw [ended, report_write, Report.change_event]
  exact Report.stepState_apply_self hbegun

/-- After the end of an attempt its step has ended too, or another attempt is to follow. -/
theorem stepState_handle_finished (now : Moment) {s : Step} (hs : j.plan.step? id = some s)
    (hid : s.id = id) (hbegun : c.report.stepState id = some .inProgress) (outcome : Result Bool) :
    (∃ state, (c.handle j now (.finished id outcome)).report.stepState id = some state ∧
      state.isTerminal = true) ∨
    ∃ delay, .retryLater id delay ∈ (c.handle j now (.finished id outcome)).outbox := by
  cases outcome with
  | ok b =>
    rw [handle_completed hs hid hbegun, report_hostChanged, foldl_releaseStep_eq]
    exact .inl ⟨_, stepState_ended hbegun _, rfl⟩
  | error fault =>
    rcases handle_error hs hid hbegun fault with ⟨-, delay, -, heq⟩ | ⟨-, heq⟩
    · rw [heq]
      exact .inr ⟨delay, by simp [order]⟩
    · have hfailed : (c.ended now id (.failed fault.message none)).report.stepState id =
          some .failed := stepState_ended hbegun _
      rw [heq]
      refine .inl ⟨.failed, ?_, rfl⟩
      rw [skipDependents, stepState_foldl_skipStep, hfailed]
      simp

theorem Sound.stepState_of_suffix (hp : j.plan.WellFormed) (h : c.Sound j told l)
    (h' : c'.Sound j told l) (hsuf : c.history <:+ c'.history) {state : Status}
    (hstate : c.report.stepState id = some state) (hend : state.isTerminal = true) :
    c'.report.stepState id = some state := by
  obtain ⟨y, hy, rfl⟩ := Option.map_eq_some_iff.mp hstate
  rw [h.report_eq] at hy
  have hy' := h'.chronicle.terminal hp hsuf hy hend
  rw [← h'.report_eq] at hy'
  rw [Report.stepState, hy', Option.map_some]

end Control

namespace Course

variable {x : Course} {σ : Signal}

section Hear

variable (hp : j.plan.WellFormed) (h : x.Sound j told l σs)
include hp h

theorem Sound.retried_of_orders (hσ : x.CanHear σ)
    (hmem : .retryLater id delay ∈ x.orders j now σ) :
    ∃ s fault, σ = .message (.finished id (.error fault)) ∧ j.plan.step? id = some s ∧
      j.delayAfter s (x.control.report.attempts id) fault = some delay := by
  rw [orders, Control.mem_outbox_fill_iff (by simp)] at hmem
  cases σ with
  | cancel =>
    rw [respond, Control.outbox_cancel, h.outbox_eq] at hmem
    simp at hmem
  | message m =>
    obtain ⟨s, fault, rfl, hs, hdelay⟩ :=
      h.invariant.retried_of_handle hp h.outbox_eq hσ.2 hmem
    exact ⟨s, fault, rfl, hs, hdelay⟩

theorem Sound.settled_of_finished {outcome : Result Bool}
    (hσ : x.CanHear (.message (.finished id outcome)))
    (h' : (x.hear j now (.message (.finished id outcome))).Sound j told l
      (.message (.finished id outcome) :: σs))
    (htold : told id (x.control.report.attempts id) outcome) :
    (∃ state, (x.hear j now (.message (.finished id outcome))).control.report.stepState id =
      some state ∧ state.isTerminal = true) ∨
    ∃ delay, .retryLater id delay ∈ x.orders j now (.message (.finished id outcome)) := by
  have hbegun := (h.invariant.steady.mem_attempts id).mp hσ.2
  obtain ⟨s, hs, hid⟩ := h.invariant.steady.step?_of_stepState hp hbegun
  rcases Control.stepState_handle_finished now hs hid hbegun outcome with
    ⟨state, hstate, hend⟩ | ⟨delay, hmem⟩
  · have hhandled : (x.control.handle j now (.finished id outcome)).Sound j told l :=
      (h.invariant.handle hp h.outbox_eq hσ.2 fun _ _ hm ↦ by
        cases hm
        exact htold).steady.sound
    exact .inl ⟨state, hhandled.stepState_of_suffix hp h'.invariant.steady.sound
      (history_turn ..) hstate hend, hend⟩
  · exact .inr ⟨delay, (Control.mem_outbox_fill_iff (by simp)).mpr hmem⟩

end Hear

theorem Sound.under_way_le (h : x.Sound j told l σs) (hgo : x.control.cancelled = false)
    (id : Nat) : x.outside.attempts.count id + x.outside.retries.count id ≤ 1 := by
  have hopen := h.invariant.going hgo
  have hattempts := List.nodup_iff_count_le_one.mp h.invariant.steady.nodup_attempts id
  have hretries := List.nodup_iff_count_le_one.mp hopen.nodup_retries id
  by_cases hid : id ∈ x.outside.retries
  · have hpending := hopen.pending (.inr hid)
    have hnot : id ∉ x.outside.attempts := by
      rw [h.invariant.steady.mem_attempts, hpending]
      simp
    rw [List.count_eq_zero_of_not_mem hnot]
    omega
  · rw [List.count_eq_zero_of_not_mem hid]
    omega

end Course

end Rollout
