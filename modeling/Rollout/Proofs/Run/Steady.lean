import Rollout.Proofs.Run.Frontier

namespace Rollout.Control

/-- What the control keeps in mind of every run. -/
structure Steady (j : Job) (told : Outcomes) (l : Launch) (u : Outside) (c : Control) : Prop where
  sound : c.Sound j told l
  nodup_attempts : u.attempts.Nodup
  mem_attempts : ∀ i, i ∈ u.attempts ↔ c.report.stepState i = some .inProgress
  inFlight_eq : c.inFlight = u.attempts.length
  inFlight_le : c.inFlight ≤ j.workers
  cancelled_eq : c.report.cancelled = c.cancelled

structure Closed (c : Control) : Prop where
  ready_eq : c.ready = []
  waiting_eq : c.waitingRetry = 0
  starts_eq : c.agentStarts = []
  none_pending : ∀ i, c.report.stepState i ≠ some .pending

variable {j : Job} {told : Outcomes} {l : Launch} {now : Moment} {c c' : Control} {u u' : Outside}
  {id : Nat} {s : Step} {e : StepEvent}

namespace Steady

theorem frame (h : c.Steady j told l u) (hreport : c'.report = c.report)
    (hhistory : c'.history = c.history) (hinFlight : c'.inFlight = c.inFlight)
    (hcancelled : c'.cancelled = c.cancelled) (hattempts : u'.attempts = u.attempts) :
    c'.Steady j told l u' where
  sound := ⟨by rw [hreport, hhistory, h.sound.report_eq], by rw [hhistory]; exact h.sound.chronicle⟩
  nodup_attempts := hattempts ▸ h.nodup_attempts
  mem_attempts i := by rw [hattempts, hreport, h.mem_attempts]
  inFlight_eq := by rw [hinFlight, hattempts, h.inFlight_eq]
  inFlight_le := hinFlight ▸ h.inFlight_le
  cancelled_eq := by rw [hreport, hcancelled, h.cancelled_eq]

theorem write (h : c.Steady j told l u) {x : Change} (hx : j.Proper told c.report x)
    (hstate : ∀ i, (c.report.change x).stepState i = some .inProgress ↔
      c.report.stepState i = some .inProgress)
    (hcancelled : (c.report.change x).cancelled = c.report.cancelled) :
    (c.write x).Steady j told l u where
  sound := h.sound.write hx
  nodup_attempts := h.nodup_attempts
  mem_attempts i := by rw [report_write, hstate, h.mem_attempts]
  inFlight_eq := h.inFlight_eq
  inFlight_le := h.inFlight_le
  cancelled_eq := by rw [report_write, hcancelled, h.cancelled_eq, cancelled_write]

theorem step?_of_stepState (hp : j.plan.WellFormed) (h : c.Steady j told l u) {i : Nat}
    {x : Status} (hx : c.report.stepState i = some x) :
    ∃ s, j.plan.step? i = some s ∧ s.id = i := by
  obtain ⟨y, hy, -⟩ := Option.map_eq_some_iff.mp hx
  have hlt := (List.getElem?_eq_some_iff.mp hy).1
  rw [(h.sound.holds hp).length_steps] at hlt
  exact ⟨j.plan.steps[i], List.getElem?_eq_getElem hlt,
    hp.id_of_step? (List.getElem?_eq_getElem hlt)⟩

theorem stepState_of_mem (hp : j.plan.WellFormed) (h : c.Steady j told l u)
    (hs : s ∈ j.plan.steps) : ∃ x, c.report.stepState s.id = some x := by
  have hlt := hp.numbered.lt_length hs
  rw [← (h.sound.holds hp).length_steps] at hlt
  exact ⟨_, Option.map_eq_some_iff.mpr ⟨_, List.getElem?_eq_getElem hlt, rfl⟩⟩

theorem stepState_of_awaits (hp : j.plan.WellFormed) (h : c.Steady j told l u) {a b : Nat}
    (hab : j.plan.Awaits b a) : ∃ x, c.report.stepState b = some x := by
  obtain ⟨-, -, s, hs, -⟩ := Relation.TransGen.tail'_iff.mp hab
  obtain rfl := hp.id_of_step? hs
  exact h.stepState_of_mem hp (List.mem_of_getElem? hs)

theorem skipped (h : c.Steady j told l u) (hs : j.plan.step? id = some s)
    (hfits : j.Fits told c.report s e) (hpending : c.report.stepState id = some .pending)
    (he : (Status.next .pending e).1 = .skipped) :
    (c.write (.event now id e)).Steady j told l u := by
  refine h.write ⟨s, hs, hfits⟩ (fun i ↦ ?_) (Report.cancelled_apply ..)
  rw [Report.change_event, Report.stepState_apply]
  split
  · rename_i hi
    simp [hi, hpending, he]
  · rfl

theorem dispatched (now : Moment) (h : c.Steady j told l u) (hlt : c.inFlight < j.workers)
    (hs : j.plan.step? id = some s) (hid : s.id = id) (hbegin : j.CanBegin c.report id) :
    { c.write (.event now id .dispatched) with inFlight := c.inFlight + 1 }.Steady j told l
      { u with attempts := id :: u.attempts } := by
  subst hid
  have hnot : s.id ∉ u.attempts := by
    rw [h.mem_attempts, hbegin.1]
    simp
  have hsound := h.sound.write (x := .event now s.id .dispatched)
    ⟨s, hs, .dispatched hbegin.1 hbegin.2⟩
  refine ⟨⟨hsound.report_eq, hsound.chronicle⟩, List.nodup_cons.mpr ⟨hnot, h.nodup_attempts⟩, ?_,
    ?_, hlt, ?_⟩
  · intro i
    rw [report_write, Report.change_event, Report.stepState_apply, List.mem_cons, h.mem_attempts]
    by_cases hi : i = s.id
    · simp [hi, hbegin.1, Status.next]
    · simp [hi]
  · simp [h.inFlight_eq]
  · rw [report_write, Report.change_event, Report.cancelled_apply, h.cancelled_eq, cancelled_write]

theorem ended (h : c.Steady j told l u) (hid : id ∈ u.attempts)
    (hx : j.Proper told c.report (.event now id e))
    (he : (Status.next .inProgress e).1 ≠ .inProgress) :
    (c.ended now id e).Steady j told l { u with attempts := u.attempts.erase id } := by
  have hstate := (h.mem_attempts id).mp hid
  have hsound := h.sound.write hx
  have hlen := List.length_erase_of_mem hid
  have hinFlight := h.inFlight_eq
  have hle := h.inFlight_le
  refine ⟨⟨hsound.report_eq, hsound.chronicle⟩, h.nodup_attempts.erase id, ?_, ?_, ?_, ?_⟩
  · intro i
    rw [Control.ended, report_write, Report.change_event, Report.stepState_apply,
      h.nodup_attempts.mem_erase_iff, h.mem_attempts]
    by_cases hi : i = id
    · simp [hi, hstate, he]
    · simp [hi]
  · simp only [Control.ended, inFlight_write]
    omega
  · simp only [Control.ended, inFlight_write]
    omega
  · rw [Control.ended, report_write, Report.change_event, Report.cancelled_apply, h.cancelled_eq,
      cancelled_write]

theorem released (h : c.Steady j told l u) (ids : List Nat) :
    (ids.foldl releaseStep c).Steady j told l u := by
  rw [foldl_releaseStep_eq]
  exact h.frame rfl rfl rfl rfl rfl

theorem skipDependents (hp : j.plan.WellFormed) (h : c.Steady j told l u) (hs : s ∈ j.plan.steps)
    (hfailed : c.report.stepState s.id = some .failed) :
    (c.skipDependents j now s.id s.label).Steady j told l u := by
  refine (foldl_skipStep_induct
    (P := fun c' ↦ c'.Steady j told l u ∧ c'.report.stepState s.id = some .failed)
    ⟨h, hfailed⟩ fun c' i hi hc' hpending ↦ ?_).1
  obtain ⟨hsteady, hfailed⟩ := hc'
  obtain ⟨t, ht, rfl⟩ := hsteady.step?_of_stepState hp hpending
  have hfits : j.Fits told c'.report t (.dependencyFailed s.label) :=
    .dependencyFailed s hpending hs hfailed (hp.mem_dependents.mp hi)
  refine ⟨?_, hfits.stepState_of_terminal hfailed rfl⟩
  exact (hsteady.frame rfl rfl rfl rfl rfl : Steady j told l u
    { c' with ready := c'.ready.filter fun r ↦ r ≠ t.id }).skipped ht hfits hpending rfl

theorem abandoned (h : c.Steady j told l u) (hosts : List String) :
    (hosts.foldl abandonAgent c).Steady j told l u := by
  induction hosts generalizing c with
  | nil => exact h
  | cons host hosts ih =>
    refine ih ?_
    have hwrite : (c.write (.agent host .unknown false)).Steady j told l u :=
      h.write trivial (fun _ ↦ .rfl) rfl
    exact hwrite.frame rfl rfl rfl rfl rfl

theorem cancelPending (hp : j.plan.WellFormed) (h : c.Steady j told l u)
    (hstop : c.cancelled = true) : (c.applyToPending j now .cancelled).Steady j told l u := by
  refine (foldl_applyIfPending_induct
    (P := fun c' ↦ c'.Steady j told l u ∧ c'.cancelled = true)
    ⟨h, hstop⟩ fun c' i _ hc' hpending ↦ ?_).1
  obtain ⟨hsteady, hstop⟩ := hc'
  obtain ⟨t, ht, rfl⟩ := hsteady.step?_of_stepState hp hpending
  have hfits : j.Fits told c'.report t .cancelled :=
    .cancelled hpending (hsteady.cancelled_eq.trans hstop)
  exact ⟨hsteady.skipped ht hfits hpending rfl, hstop⟩

end Steady

theorem Steady.stopped (h : c.Steady j told l u) : c.stopped.Steady j told l u := by
  refine Steady.abandoned ?_ _
  have hsound := h.sound.write (x := .cancelled) trivial
  exact ⟨⟨hsound.report_eq, hsound.chronicle⟩, h.nodup_attempts, h.mem_attempts, h.inFlight_eq,
    h.inFlight_le, rfl⟩

theorem Steady.cancel (hp : j.plan.WellFormed) (h : c.Steady j told l u) :
    (c.cancel j now).Steady j told l u :=
  h.stopped.cancelPending hp cancelled_stopped

theorem Steady.closed_cancel (hp : j.plan.WellFormed) (h : c.Steady j told l u) :
    (c.cancel j now).Closed where
  ready_eq := (congrArg Control.ready (kept_cancel j now c) :)
  waiting_eq := (congrArg Control.waitingRetry (kept_cancel j now c) :)
  starts_eq := (congrArg Control.agentStarts (kept_cancel j now c) :)
  none_pending i := by
    rw [cancel_eq, applyToPending, stepState_foldl_applyIfPending rfl]
    split
    · simp
    · rename_i hnot
      intro hpending
      obtain ⟨s, hs, hid⟩ := h.stopped.step?_of_stepState hp hpending
      exact hnot ⟨List.mem_map.mpr ⟨s, List.mem_of_getElem? hs, hid⟩, hpending⟩

theorem Steady.getElem?_cancel (now : Moment) (hp : j.plan.WellFormed) (h : c.Steady j told l u)
    {i : Nat} {x : StepRecord} (hx : c.report.steps[i]? = some x) (hpending : x.state = .pending) :
    (c.cancel j now).report.steps[i]? = some { x with
      state := .skipped, skippedBecause := some "run cancelled", finishedAt := some now } := by
  have hskipped : (x.apply now .cancelled).1 = { x with
      state := .skipped, skippedBecause := some "run cancelled", finishedAt := some now } :=
    StepRecord.apply_cancelled now hpending
  have heither : (c.cancel j now).report.steps[i]? = some x ∨
      (c.cancel j now).report.steps[i]? = some (x.apply now .cancelled).1 := by
    have hstopped : c.stopped.report.steps[i]? = some x := by rw [steps_stopped, hx]
    rw [cancel_eq]
    refine foldl_applyIfPending_induct (P := fun c' ↦ c'.report.steps[i]? = some x ∨
      c'.report.steps[i]? = some (x.apply now .cancelled).1) (.inl hstopped) fun c' k _ hc' hk ↦ ?_
    rw [report_write, Report.change_event, Report.getElem?_steps_apply]
    split
    · rename_i hi
      subst hi
      rcases hc' with hc' | hc'
      · rw [hc']
        exact .inr rfl
      · simp [Report.stepState, hc', hskipped] at hk
    · exact hc'
  rw [← hskipped]
  have hclosed : (c.cancel j now).Closed := h.closed_cancel hp
  refine heither.resolve_left fun hleft ↦ hclosed.none_pending i ?_
  rw [Report.stepState, hleft, Option.map_some, hpending]

end Rollout.Control
