import Rollout.Proofs.Run.Reached

namespace Rollout

theorem Report.countSteps_eq (r : Report) (state : Status) :
    r.countSteps state =
      ((List.range r.steps.length).filter fun i ↦ r.stepState i = some state).length := by
  have h : ∀ ys : List StepRecord, (ys.filter fun y ↦ y.state == state).length =
      ((List.range ys.length).filter fun i ↦
        (ys[i]?).map StepRecord.state = some state).length := by
    intro ys
    induction ys with
    | nil => rfl
    | cons y ys ih =>
      rw [List.length_cons, List.range_succ_eq_map, List.filter_cons, List.filter_cons,
        List.filter_map]
      have hcomp : ((fun i ↦ decide (((y :: ys)[i]?).map StepRecord.state = some state)) ∘
          Nat.succ) = fun i ↦ decide ((ys[i]?).map StepRecord.state = some state) := rfl
      rw [hcomp]
      by_cases hy : y.state = state <;> simp [hy, ih]
  exact h r.steps

namespace Course

/-- The accounts of a control that waits, of a run that has not been cancelled. -/
structure Exact (j : Job) (x : Course) : Prop where
  /-- The steps that are ready, and those that wait for a retry, are the steps that can begin. -/
  frontier : ∀ i, i ∈ x.control.ready ∨ i ∈ x.outside.retries ↔
    x.control.report.stepState i = some .pending ∧
      ∀ a, j.plan.Precedes a i → x.control.report.stepState a = some .succeeded
  disjoint : ∀ i ∈ x.control.ready, i ∉ x.outside.retries
  nodup : x.control.ready.Nodup ∧ x.outside.retries.Nodup ∧ x.outside.attempts.Nodup
  attempts : ∀ i, i ∈ x.outside.attempts ↔ x.control.report.stepState i = some .inProgress
  inFlight_eq : x.control.inFlight = x.outside.attempts.length
  inFlight_eq_countSteps : x.control.inFlight = x.control.report.countSteps .inProgress
  inFlight_le : x.control.inFlight ≤ j.workers
  waitingRetry_eq : x.control.waitingRetry = x.outside.retries.length
  remaining_eq : ∀ s ∈ j.plan.steps, x.control.remaining[s.id]? =
    some (s.predecessors.filter fun a ↦ x.control.report.stepState a ≠ some .succeeded).length
  full : x.control.ready ≠ [] → x.control.inFlight = j.workers
  /-- No count is taken down from zero, by no message that may come. -/
  finished_pos : ∀ id outcome, x.outside.Expects (.finished id outcome) → 1 ≤ x.control.inFlight
  retryDue_pos : ∀ id, x.outside.Expects (.retryDue id) → 1 ≤ x.control.waitingRetry
  release_pos : ∀ now id b, x.outside.Expects (.finished id (.ok b)) →
    ∀ ids k rest, j.plan.successors id = ids ++ k :: rest →
    1 ≤ ((ids.foldl Control.releaseStep
      (x.control.ended now id (.completed b))).remaining[k]?).getD 0

variable {j : Job} {l : Launch} {σs : List Signal} {x : Course} {told : Outcomes}

theorem Sound.inFlight_eq_countSteps (h : x.Sound j told l σs) :
    x.control.inFlight = x.control.report.countSteps .inProgress := by
  have hsteady := h.invariant.steady
  have hmem : ∀ i, i ∈ x.outside.attempts ↔
      i ∈ (List.range x.control.report.steps.length).filter fun i ↦
        x.control.report.stepState i = some .inProgress := by
    intro i
    rw [hsteady.mem_attempts, List.mem_filter, List.mem_range, decide_eq_true_eq]
    refine ⟨fun hi ↦ ⟨?_, hi⟩, fun hi ↦ hi.2⟩
    obtain ⟨y, hy, -⟩ := Option.map_eq_some_iff.mp hi
    exact (List.getElem?_eq_some_iff.mp hy).1
  have hperm := (List.perm_ext_iff_of_nodup hsteady.nodup_attempts
    (List.nodup_range.filter _)).mpr hmem
  rw [hsteady.inFlight_eq, Report.countSteps_eq, hperm.length_eq]

theorem Sound.release_pos (hp : j.plan.WellFormed) (h : x.Sound j told l σs)
    (hgo : x.control.cancelled = false) {now : Moment} {id : Nat} {b : Bool}
    (hid : id ∈ x.outside.attempts) {ids : List Nat} {k : Nat} {rest : List Nat}
    (hsuccessors : j.plan.successors id = ids ++ k :: rest) :
    1 ≤ ((ids.foldl Control.releaseStep
      (x.control.ended now id (.completed b))).remaining[k]?).getD 0 := by
  have hopen := h.invariant.going hgo
  have hstate := (h.invariant.steady.mem_attempts id).mp hid
  have hnodup := hp.nodup_successors id
  rw [hsuccessors] at hnodup
  have hids := hnodup.of_append_left
  have hk : k ∉ ids := fun hk ↦ List.disjoint_of_nodup_append hnodup hk List.mem_cons_self
  obtain ⟨s, hs, hpre⟩ := hp.mem_successors.mp
    (hsuccessors ▸ List.mem_append_right ids List.mem_cons_self : k ∈ j.plan.successors id)
  obtain rfl := hp.id_of_step? hs
  have hmem := List.mem_of_getElem? hs
  have hne : x.control.report.openPredecessors s ≠ 0 := by
    intro hzero
    have hsucceeded := Report.openPredecessors_eq_zero.mp hzero id hpre
    rw [hstate] at hsucceeded
    cases hsucceeded
  rw [Control.foldl_releaseStep_eq]
  simp only [Control.ended, Control.remaining_write, Plan.getElem?_foldl_lower hids, hk, if_false,
    hopen.remaining_eq s hmem, Option.getD_some]
  omega

/-- No dispatch is missed and none is made twice. -/
theorem Reached.exact {steps : List Step} (hplan : Plan.ofSteps steps = .ok j.plan)
    (h : Reached j l σs x) (hgo : x.control.cancelled = false) : x.Exact j := by
  have hp := Plan.wellFormed_of_ofSteps hplan
  have hsound := h.sound_any hp
  have hsteady := hsound.invariant.steady
  have hopen := hsound.invariant.going hgo
  refine ⟨hopen.frontier, hopen.disjoint,
    ⟨Plan.nodup_of_increasing hopen.increasing, hopen.nodup_retries, hsteady.nodup_attempts⟩,
    hsteady.mem_attempts, hsteady.inFlight_eq, hsound.inFlight_eq_countSteps,
    hsteady.inFlight_le, hopen.waiting_eq, hopen.remaining_eq, ?_, ?_, ?_,
    fun now id b hid ids k rest hsuccessors ↦ hsound.release_pos hp hgo hid hsuccessors⟩
  · intro hready
    have hle := (hsound.settled hgo).resolve_left hready
    exact Nat.le_antisymm hsteady.inFlight_le hle
  · intro id outcome hid
    rw [hsteady.inFlight_eq]
    exact List.length_pos_of_mem hid
  · intro id hid
    rw [hopen.waiting_eq]
    exact List.length_pos_of_mem hid

theorem exact_trio : (launch (.trio 1) ⟨"run", .origin, false⟩ .origin).control.ready ≠ [] ∧
    (launch (.trio 1) ⟨"run", .origin, false⟩ .origin).Exact (.trio 1) :=
  ⟨by decide, Reached.exact (l := ⟨"run", .origin, false⟩) (Job.ofSteps_trio 1) (.launch _)
    (by decide)⟩

end Course

end Rollout
