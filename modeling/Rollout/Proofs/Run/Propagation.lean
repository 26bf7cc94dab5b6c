import Rollout.Proofs.Run.Reached

namespace Rollout

variable {j : Job} {told : Outcomes} {l : Launch} {u : Outside} {σs : List Signal} {r : Report}

/-- Every skipped step names a failed step that it waits for, or the cancellation of the run. -/
def Job.Explains (j : Job) (r : Report) : Prop :=
  ∀ i y, r.steps[i]? = some y → y.state = .skipped →
    y.skippedBecause = some "run cancelled" ∧ r.cancelled = true ∨
    ∃ s ∈ j.plan.steps, y.skippedBecause = some ("dependency failed: " ++ s.label) ∧
      r.stepState s.id = some .failed ∧ j.plan.Awaits i s.id

namespace Job.Explains

theorem start (j : Job) (runId : String) (now : Moment) :
    j.Explains (.start runId now j.plan j.inventory) := by
  intro i y hy hskipped
  simp only [Report.start, List.getElem?_map] at hy
  obtain ⟨s, -, rfl⟩ := Option.map_eq_some_iff.mp hy
  cases hskipped

theorem event (h : j.Explains r) {s : Step} {now : Moment} {e : StepEvent}
    (hfits : j.Fits told r s e) : j.Explains (r.apply now s.id e).1 := by
  intro i y hy hskipped
  rw [Report.cancelled_apply]
  rw [Report.getElem?_steps_apply] at hy
  split at hy
  · rename_i hi
    subst hi
    obtain ⟨y, hy', rfl⟩ := Option.map_eq_some_iff.mp hy
    have hstate : r.stepState s.id = some y.state := by simp [Report.stepState, hy']
    -- only the two events that skip a step are left
    cases hfits with
    | dispatched hp | completed _ hp | retried _ _ hp | failed _ hp =>
      have hy'' := Option.some.inj (hstate.symm.trans hp)
      simp [hy'', Status.next] at hskipped
    | dependencyFailed cause hp hmem hfailed hawaits =>
      have hy'' := Option.some.inj (hstate.symm.trans hp)
      have hfits : j.Fits told r s (.dependencyFailed cause.label) :=
        .dependencyFailed cause hp hmem hfailed hawaits
      refine .inr ⟨cause, hmem, ?_, hfits.stepState_of_terminal hfailed rfl, hawaits⟩
      rw [StepRecord.apply_dependencyFailed now hy'']
    | cancelled hp hstop =>
      have hy'' := Option.some.inj (hstate.symm.trans hp)
      refine .inl ⟨?_, hstop⟩
      rw [StepRecord.apply_cancelled now hy'']
  · refine (h i y hy hskipped).imp_right ?_
    rintro ⟨cause, hmem, hbecause, hfailed, hawaits⟩
    exact ⟨cause, hmem, hbecause, hfits.stepState_of_terminal hfailed rfl, hawaits⟩

theorem change (hp : j.plan.WellFormed) (h : j.Explains r) {x : Change}
    (hx : j.Proper told r x) : j.Explains (r.change x) := by
  cases x with
  | agent host health degraded => exact h
  | finished now => exact h
  | cancelled =>
    intro i y hy hskipped
    exact (h i y hy hskipped).imp_left fun hbecause ↦ ⟨hbecause.1, rfl⟩
  | event now id e =>
    obtain ⟨s, hs, hfits⟩ := hx
    obtain rfl := hp.id_of_step? hs
    exact h.event hfits

end Job.Explains

namespace Control

variable {c : Control}

theorem Sound.explains (hp : j.plan.WellFormed) (h : c.Sound j told l) :
    j.Explains c.report := by
  rw [h.report_eq]
  exact h.chronicle.induction List.nil_suffix (.start j l.runId l.createdAt)
    fun _ _ hr hx ↦ hr.change hp hx

theorem Open.skipped_of_awaits (h : c.Open j u) {a b : Nat} (hab : j.plan.Awaits b a)
    (ha : c.report.IsLost a) : c.report.stepState b = some .skipped := by
  induction hab with
  | single hab => exact h.contagion _ _ hab ha
  | tail _ hbc ih => exact h.contagion _ _ hbc (.inr ih)

theorem Invariant.skipped_of_awaits (hp : j.plan.WellFormed) (h : c.Invariant j told l u)
    {a b : Nat} (hab : j.plan.Awaits b a) (ha : c.report.stepState a = some .failed) :
    c.report.stepState b = some .skipped := by
  by_cases hstop : c.cancelled = true
  · obtain ⟨x, hx⟩ := h.steady.stepState_of_awaits hp hab
    cases x with
    | skipped => exact hx
    | pending => exact absurd hx ((h.closed hstop).none_pending b)
    | inProgress | succeeded | failed =>
      -- it has begun, so all that it waits for has succeeded
      have hsucceeded := (h.steady.sound.holds hp).awaited_of_stepState hab hx rfl
      rw [ha] at hsucceeded
      cases hsucceeded
  · exact (h.going (by simpa using hstop)).skipped_of_awaits hab (.inl ha)

end Control

namespace Course

/-- What is skipped in a course, and what it is said to be skipped for. -/
structure Propagated (j : Job) (l : Launch) (σs : List Signal) (x : Course) : Prop where
  dependents : ∀ a, x.control.report.stepState a = some .failed → ∀ b, j.plan.Awaits b a →
    x.control.report.stepState b = some .skipped
  because : ∀ i y, x.control.report.steps[i]? = some y → y.state = .skipped →
    y.skippedBecause = some "run cancelled" ∧ (l.cancelled = true ∨ .cancel ∈ σs) ∨
    ∃ s ∈ j.plan.steps, y.skippedBecause =
        some ("dependency failed: " ++ (s.host ++ "/" ++ s.role.name ++ "/" ++ s.name)) ∧
      x.control.report.stepState s.id = some .failed ∧ j.plan.Awaits i s.id ∧ y.attempts = 0
  uncancelled : l.cancelled = false → .cancel ∉ σs → ∀ i,
    x.control.report.stepState i = some .skipped →
    ∃ a, j.plan.Awaits i a ∧ x.control.report.stepState a = some .failed

/-- Whenever the control of a run waits, failures have spread to just those that wait for them. -/
theorem Reached.propagated {steps : List Step} {x : Course}
    (hplan : Plan.ofSteps steps = .ok j.plan) (h : Reached j l σs x) : x.Propagated j l σs := by
  have hp := Plan.wellFormed_of_ofSteps hplan
  have hsound := h.sound_any hp
  have hsteady := hsound.invariant.steady
  have hholds := hsteady.sound.holds hp
  have hcancelled : x.control.report.cancelled = true ↔ l.cancelled = true ∨ .cancel ∈ σs := by
    rw [hsteady.cancelled_eq, hsound.cancelled_iff]
  refine ⟨fun a ha b hab ↦ hsound.invariant.skipped_of_awaits hp hab ha, ?_, ?_⟩
  · intro i y hy hskipped
    rcases hsteady.sound.explains hp i y hy hskipped with
      ⟨hbecause, hstop⟩ | ⟨s, hs, hbecause, hfailed, hawaits⟩
    · exact .inl ⟨hbecause, hcancelled.mp hstop⟩
    · refine .inr ⟨s, hs, hbecause, hfailed, hawaits, ?_⟩
      by_contra htried
      have hsucceeded := hholds.awaited hawaits hy (.inr (Nat.pos_of_ne_zero htried))
      rw [hfailed] at hsucceeded
      cases hsucceeded
  · intro hlaunch hheard i hi
    refine (hholds.excused i hi).resolve_left fun hstop ↦ ?_
    rcases hcancelled.mp hstop with hstop | hstop
    · simp [hlaunch] at hstop
    · exact hheard hstop

theorem propagated_trio :
    let heard : List Signal :=
      [.message (.finished 1 (.error (.exec "b" 1 "disk full"))), .cancel,
        .message (.finished 0 (.ok false))]
    (play (.trio 2) ⟨"run", .origin, false⟩ .origin heard).Propagated (.trio 2)
      ⟨"run", .origin, false⟩ heard :=
  Reached.propagated (Job.ofSteps_trio 2)
    (.hear _ (.hear _ (.hear _ (.launch _) (by decide)) (by decide)) (by decide))

end Course

end Rollout
