import Rollout.Proofs.Plan.Dependents
import Rollout.Proofs.Run.Control

namespace Rollout

def Job.CanBegin (j : Job) (r : Report) (i : Nat) : Prop :=
  r.stepState i = some .pending ∧ ∀ a, j.plan.Precedes a i → r.stepState a = some .succeeded

namespace Report

variable {r r' : Report} {s : Step} {id : Nat}

def openPredecessors (r : Report) (s : Step) : Nat :=
  (s.predecessors.filter fun a ↦ r.stepState a ≠ some .succeeded).length

/-- A step can no longer succeed. -/
def IsLost (r : Report) (i : Nat) : Prop :=
  r.stepState i = some .failed ∨ r.stepState i = some .skipped

theorem isLost_of_terminal {x : Status} (hx : r.stepState id = some x)
    (hend : x.isTerminal = true) (hne : r.stepState id ≠ some .succeeded) : r.IsLost id := by
  rw [IsLost, hx] at *
  rw [Status.isTerminal_iff] at hend
  aesop

theorem openPredecessors_eq_zero :
    r.openPredecessors s = 0 ↔ ∀ a ∈ s.predecessors, r.stepState a = some .succeeded := by
  simp [openPredecessors, List.filter_eq_nil_iff]

theorem openPredecessors_eq_length (h : ∀ a, r.stepState a ≠ some .succeeded) :
    r.openPredecessors s = s.predecessors.length := by
  unfold openPredecessors
  rw [List.filter_eq_self.mpr fun a _ ↦ by simpa using h a]

theorem openPredecessors_congr
    (h : ∀ a, r'.stepState a = some .succeeded ↔ r.stepState a = some .succeeded) :
    r'.openPredecessors s = r.openPredecessors s := by
  simp only [openPredecessors, ne_eq, h]

theorem openPredecessors_succeed (hnodup : s.predecessors.Nodup)
    (hid : r.stepState id ≠ some .succeeded)
    (h : ∀ a, r'.stepState a = some .succeeded ↔ a = id ∨ r.stepState a = some .succeeded) :
    r'.openPredecessors s + (if id ∈ s.predecessors then 1 else 0) = r.openPredecessors s := by
  have hfilter : (s.predecessors.filter fun a ↦ r'.stepState a ≠ some .succeeded) =
      (s.predecessors.filter fun a ↦ r.stepState a ≠ some .succeeded).erase id := by
    rw [(hnodup.filter _).erase_eq_filter, List.filter_filter]
    refine List.filter_congr fun a _ ↦ ?_
    simp only [ne_eq, h, not_or, Bool.decide_and]
    by_cases ha : a = id <;> simp [ha]
  unfold openPredecessors
  rw [hfilter]
  split
  · rename_i hmem
    have hmem' : id ∈ s.predecessors.filter fun a ↦ r.stepState a ≠ some .succeeded :=
      List.mem_filter.mpr ⟨hmem, by simpa using hid⟩
    have hpos := List.length_pos_of_mem hmem'
    rw [List.length_erase_of_mem hmem']
    omega
  · rename_i hmem
    rw [List.erase_of_not_mem fun hin ↦ hmem (List.mem_filter.mp hin).1]
    rfl

section Apply

variable {now : Moment} {e : StepEvent} {x : Status}

theorem succeeded_apply_iff (hx : r.stepState id = some x) (hold : x ≠ .succeeded)
    (hnew : (x.next e).1 ≠ .succeeded) (a : Nat) :
    (r.apply now id e).1.stepState a = some .succeeded ↔ r.stepState a = some .succeeded := by
  rw [stepState_apply]
  split
  · rename_i ha
    rw [ha, hx]
    simp [hold, hnew]
  · rfl

theorem isLost_of_apply (hx : r.stepState id = some x) (hfailed : (x.next e).1 ≠ .failed)
    (hskipped : (x.next e).1 ≠ .skipped) {a : Nat} (ha : (r.apply now id e).1.IsLost a) :
    r.IsLost a := by
  by_cases hid : a = id
  · subst hid
    rw [IsLost, stepState_apply_self hx, Option.some.injEq, Option.some.injEq] at ha
    exact absurd ha (not_or.mpr ⟨hfailed, hskipped⟩)
  · rwa [IsLost, stepState_apply_of_ne hid] at ha

end Apply

section Completed

variable {now : Moment} {b : Bool} (hid : r.stepState id = some .inProgress)
include hid

theorem succeeded_completed_iff (a : Nat) :
    (r.apply now id (.completed b)).1.stepState a = some .succeeded ↔
      a = id ∨ r.stepState a = some .succeeded := by
  by_cases ha : a = id
  · simp [ha, stepState_apply_self hid, Status.next]
  · simp [ha, stepState_apply_of_ne ha]

theorem pending_completed_iff (a : Nat) :
    (r.apply now id (.completed b)).1.stepState a = some .pending ↔
      r.stepState a = some .pending := by
  by_cases ha : a = id
  · simp [ha, stepState_apply_self hid, Status.next, hid]
  · rw [stepState_apply_of_ne ha]

theorem openPredecessors_completed (now : Moment) (b : Bool) (hnodup : s.predecessors.Nodup) :
    (r.apply now id (.completed b)).1.openPredecessors s +
      (if id ∈ s.predecessors then 1 else 0) = r.openPredecessors s :=
  openPredecessors_succeed hnodup (by simp [hid]) (succeeded_completed_iff hid)

end Completed

end Report

section CanBegin

variable {j : Job} {r r' : Report} {now : Moment} {id i : Nat}

theorem Job.canBegin_congr
    (h : ∀ a, r'.stepState a = some .succeeded ↔ r.stepState a = some .succeeded)
    (hi : r'.stepState i = some .pending ↔ r.stepState i = some .pending) :
    j.CanBegin r' i ↔ j.CanBegin r i := by
  simp only [Job.CanBegin, h, hi]

theorem Job.canBegin_apply_of_ne {e : StepEvent}
    (h : ∀ a, (r.apply now id e).1.stepState a = some .succeeded ↔
      r.stepState a = some .succeeded) (hi : i ≠ id) :
    j.CanBegin (r.apply now id e).1 i ↔ j.CanBegin r i :=
  canBegin_congr h (by rw [Report.stepState_apply_of_ne hi])

theorem Job.canBegin_completed_iff (hp : j.plan.WellFormed)
    (hid : r.stepState id = some .inProgress) (now : Moment) (b : Bool) (i : Nat) :
    j.CanBegin (r.apply now id (.completed b)).1 i ↔ j.CanBegin r i ∨
      ∃ s ∈ j.plan.steps, s.id = i ∧ id ∈ s.predecessors ∧ r.openPredecessors s ≤ 1 ∧
        r.stepState i = some .pending := by
  constructor
  · rintro ⟨hpending, hall⟩
    rw [Report.pending_completed_iff hid] at hpending
    simp only [Report.succeeded_completed_iff hid] at hall
    by_cases hprecedes : j.plan.Precedes id i
    · obtain ⟨s, hs, hpre⟩ := hprecedes
      obtain rfl := hp.id_of_step? hs
      have hmem := List.mem_of_getElem? hs
      have hcount := Report.openPredecessors_completed hid now b
        (hp.nodup_predecessors s hmem)
      have hzero : (r.apply now id (.completed b)).1.openPredecessors s = 0 :=
        Report.openPredecessors_eq_zero.mpr fun a ha ↦
          (Report.succeeded_completed_iff hid a).mpr (hall a ((hp.precedes_iff hmem).mpr ha))
      rw [if_pos hpre, hzero] at hcount
      exact .inr ⟨s, hmem, rfl, hpre, hcount.ge, hpending⟩
    · exact .inl ⟨hpending, fun a ha ↦ (hall a ha).resolve_left fun he ↦ hprecedes (he ▸ ha)⟩
  · rintro (⟨hpending, hall⟩ | ⟨s, hs, rfl, hpre, hle, hpending⟩)
    · exact ⟨(Report.pending_completed_iff hid i).mpr hpending,
        fun a ha ↦ (Report.succeeded_completed_iff hid a).mpr (.inr (hall a ha))⟩
    · refine ⟨(Report.pending_completed_iff hid _).mpr hpending, fun a ha ↦ ?_⟩
      have hcount := Report.openPredecessors_completed hid now b
        (hp.nodup_predecessors s hs)
      rw [if_pos hpre] at hcount
      exact Report.openPredecessors_eq_zero.mp (by omega) a ((hp.precedes_iff hs).mp ha)

structure Job.Fails (j : Job) (r r' : Report) (id : Nat) : Prop where
  inProgress : r.stepState id = some .inProgress
  waiting : ∀ i, j.plan.Awaits i id →
    r.stepState i = some .pending ∨ r.stepState i = some .skipped
  failed : r'.stepState id = some .failed
  skipped : ∀ i, j.plan.Awaits i id → r'.stepState i = some .skipped
  others : ∀ i, i ≠ id → ¬ j.plan.Awaits i id → r'.stepState i = r.stepState i

namespace Job.Fails

variable (h : j.Fails r r' id)
include h

theorem succeeded_iff (a : Nat) :
    r'.stepState a = some .succeeded ↔ r.stepState a = some .succeeded := by
  by_cases ha : a = id
  · simp [ha, h.failed, h.inProgress]
  · by_cases hawaits : j.plan.Awaits a id
    · rcases h.waiting a hawaits with ha | ha <;> simp [h.skipped a hawaits, ha]
    · rw [h.others a ha hawaits]

theorem not_canBegin (hi : j.plan.Awaits i id) : ¬ j.CanBegin r i := by
  rintro ⟨-, hall⟩
  obtain ⟨a, ha, hai⟩ := Relation.TransGen.tail'_iff.mp hi
  have hsucceeded := hall a hai
  rcases Relation.reflTransGen_iff_eq_or_transGen.mp ha with rfl | ha
  · rw [h.inProgress] at hsucceeded
    cases hsucceeded
  · rcases h.waiting a ha with hb | hb <;> rw [hb] at hsucceeded <;> cases hsucceeded

theorem canBegin_iff : j.CanBegin r' i ↔ j.CanBegin r i := by
  by_cases hid : i = id
  · simp [hid, CanBegin, h.failed, h.inProgress]
  · by_cases hawaits : j.plan.Awaits i id
    · have hnot : ¬ j.CanBegin r' i := by
        rintro ⟨hpending, -⟩
        rw [h.skipped i hawaits] at hpending
        cases hpending
      exact iff_of_false hnot (h.not_canBegin hawaits)
    · exact canBegin_congr h.succeeded_iff (by rw [h.others i hid hawaits])

end Job.Fails

end CanBegin

namespace Control

/-- What the control keeps in mind of a run that goes on. -/
structure Open (j : Job) (u : Outside) (c : Control) : Prop where
  remaining_eq : ∀ s ∈ j.plan.steps, c.remaining[s.id]? = some (c.report.openPredecessors s)
  increasing : c.ready.Pairwise (· < ·)
  nodup_retries : u.retries.Nodup
  disjoint : ∀ i ∈ c.ready, i ∉ u.retries
  frontier : ∀ i, i ∈ c.ready ∨ i ∈ u.retries ↔ j.CanBegin c.report i
  waiting_eq : c.waitingRetry = u.retries.length
  contagion : ∀ a b, j.plan.Precedes a b → c.report.IsLost a →
    c.report.stepState b = some .skipped

variable {j : Job} {told : Outcomes} {l : Launch} {now : Moment} {c c' : Control} {u u' : Outside}
  {id : Nat} {s : Step}

section SkipDependents

variable {cause : String} {i : Nat}

theorem stepState_skipDependents_of_awaits (hp : j.plan.WellFormed) (hi : j.plan.Awaits i id)
    (hstate : c.report.stepState i = some .pending ∨ c.report.stepState i = some .skipped) :
    (c.skipDependents j now id cause).report.stepState i = some .skipped := by
  rw [skipDependents, stepState_foldl_skipStep]
  rcases hstate with h | h <;> simp [h, hp.mem_dependents.mpr hi]

theorem stepState_skipDependents_of_not_awaits (hp : j.plan.WellFormed)
    (hi : ¬ j.plan.Awaits i id) :
    (c.skipDependents j now id cause).report.stepState i = c.report.stepState i := by
  rw [skipDependents, stepState_foldl_skipStep, if_neg]
  exact fun h ↦ hi (hp.mem_dependents.mp h.1)

theorem mem_ready_skipDependents (hp : j.plan.WellFormed) :
    i ∈ (c.skipDependents j now id cause).ready ↔
      i ∈ c.ready ∧ ¬ (j.plan.Awaits i id ∧ c.report.stepState i = some .pending) := by
  rw [skipDependents, mem_ready_foldl_skipStep, hp.mem_dependents]

theorem frame_skipDependents (j : Job) (now : Moment) (id : Nat) (cause : String) (c : Control) :
    { c.skipDependents j now id cause with
      report := c.report, history := c.history, ready := c.ready } = c :=
  frame_foldl_skipStep _ c

theorem fails_skipDependents (hp : j.plan.WellFormed) (now : Moment)
    (hid : c.report.stepState id = some .inProgress)
    (hawaits : ∀ i, j.plan.Awaits i id →
      c.report.stepState i = some .pending ∨ c.report.stepState i = some .skipped)
    (t cause : String) :
    j.Fails c.report ((c.ended now id (.failed t none)).skipDependents j now id cause).report
      id where
  inProgress := hid
  waiting := hawaits
  failed := by
    rw [stepState_skipDependents_of_not_awaits hp (hp.not_awaits_self id)]
    exact Report.stepState_apply_self hid
  skipped i hi := by
    have hne : i ≠ id := fun he ↦ hp.not_awaits_self id (he ▸ hi)
    have hstate : (c.ended now id (.failed t none)).report.stepState i = c.report.stepState i :=
      Report.stepState_apply_of_ne hne
    exact stepState_skipDependents_of_awaits hp hi (hstate ▸ hawaits i hi)
  others i hi hnot := by
    rw [stepState_skipDependents_of_not_awaits hp hnot]
    exact Report.stepState_apply_of_ne hi

end SkipDependents

namespace Open

theorem frame (h : c.Open j u) (hremaining : c'.remaining = c.remaining)
    (hready : c'.ready = c.ready) (hstate : c'.report.stepState = c.report.stepState)
    (hwaiting : c'.waitingRetry = c.waitingRetry) (hretries : u'.retries = u.retries) :
    c'.Open j u' where
  remaining_eq s hs := by
    rw [hremaining, h.remaining_eq s hs, Report.openPredecessors_congr fun a ↦ by rw [hstate]]
  increasing := hready ▸ h.increasing
  nodup_retries := hretries ▸ h.nodup_retries
  disjoint := by
    rw [hready, hretries]
    exact h.disjoint
  frontier i := by
    rw [hready, hretries, h.frontier, Job.canBegin_congr (fun a ↦ by rw [hstate]) (by rw [hstate])]
  waiting_eq := by rw [hwaiting, hretries, h.waiting_eq]
  contagion a b hab := by
    simp only [Report.IsLost, hstate]
    exact h.contagion a b hab

theorem pending (h : c.Open j u) {i : Nat} (hi : i ∈ c.ready ∨ i ∈ u.retries) :
    c.report.stepState i = some .pending := ((h.frontier i).mp hi).1

theorem not_mem (h : c.Open j u) {x : Status} (hid : c.report.stepState id = some x)
    (hx : x ≠ .pending) : id ∉ c.ready ∧ id ∉ u.retries := by
  refine not_or.mp fun hin ↦ hx ?_
  rw [h.pending hin] at hid
  exact (Option.some.inj hid).symm

theorem contagion_apply (h : c.Open j u) {e : StepEvent} {x : Status}
    (hx : c.report.stepState id = some x) (hold : x ≠ .skipped) (hfailed : (x.next e).1 ≠ .failed)
    (hskipped : (x.next e).1 ≠ .skipped) {a b : Nat} (hab : j.plan.Precedes a b)
    (ha : (c.report.apply now id e).1.IsLost a) :
    (c.report.apply now id e).1.stepState b = some .skipped := by
  have hb := h.contagion a b hab (Report.isLost_of_apply hx hfailed hskipped ha)
  have hne : b ≠ id := by
    rintro rfl
    exact hold (Option.some.inj (hx.symm.trans hb))
  rw [Report.stepState_apply_of_ne hne, hb]

theorem dispatched (h : c.Open j u) {ready : List Nat} (hready : c.ready = id :: ready) :
    ({ c with ready := ready }.write (.event now id .dispatched)).Open j u := by
  have hpending := h.pending (i := id) (by simp [hready])
  have hsame : ∀ a, (c.report.apply now id .dispatched).1.stepState a = some .succeeded ↔
      c.report.stepState a = some .succeeded :=
    Report.succeeded_apply_iff hpending (by simp) (by simp [Status.next])
  obtain ⟨hlt, hinc⟩ := List.pairwise_cons.mp (hready ▸ h.increasing)
  have hmem : ∀ i, i ∈ ready ↔ i ≠ id ∧ i ∈ c.ready := by
    intro i
    rw [hready, List.mem_cons]
    constructor
    · exact fun hi ↦ ⟨fun he ↦ by have := hlt i hi; omega, .inr hi⟩
    · exact fun hi ↦ hi.2.resolve_left hi.1
  refine ⟨?_, hinc, h.nodup_retries, ?_, ?_, h.waiting_eq, ?_⟩
  · intro s hs
    exact (h.remaining_eq s hs).trans
      (congrArg some (Report.openPredecessors_congr hsame).symm)
  · intro i hi
    exact h.disjoint i ((hmem i).mp hi).2
  · intro i
    rw [report_write, ready_write, Report.change_event, hmem]
    by_cases hi : i = id
    · subst hi
      have hnot := h.disjoint i (by simp [hready])
      simp [Job.CanBegin, hnot, Report.stepState_apply_self hpending, Status.next]
    · rw [Job.canBegin_apply_of_ne hsame hi, ← h.frontier i]
      simp [hi]
  · intro a b hab ha
    exact h.contagion_apply hpending (by simp) (by simp [Status.next]) (by simp [Status.next])
      hab ha

/-- The control finds the steps that waited only for one by their counts. -/
theorem released_iff (hp : j.plan.WellFormed) (h : c.Open j u) {i : Nat} :
    i ∈ j.plan.successors id ∧ (c.remaining[i]?).getD 0 - 1 = 0 ∧
        c.report.stepState i = some .pending ↔
      ∃ s ∈ j.plan.steps, s.id = i ∧ id ∈ s.predecessors ∧ c.report.openPredecessors s ≤ 1 ∧
        c.report.stepState i = some .pending := by
  constructor
  · rintro ⟨hi, hzero, hpending⟩
    obtain ⟨s, hs, hpre⟩ := hp.mem_successors.mp hi
    obtain rfl := hp.id_of_step? hs
    have hs := List.mem_of_getElem? hs
    rw [h.remaining_eq s hs, Option.getD_some] at hzero
    exact ⟨s, hs, rfl, hpre, by omega, hpending⟩
  · rintro ⟨s, hs, rfl, hpre, hle, hpending⟩
    refine ⟨hp.mem_successors.mpr ((hp.precedes_iff hs).mpr hpre), ?_, hpending⟩
    rw [h.remaining_eq s hs, Option.getD_some]
    omega

theorem completed (hp : j.plan.WellFormed) (h : c.Open j u) (hgo : c.cancelled = false)
    (hid : c.report.stepState id = some .inProgress) (b : Bool) :
    ((j.plan.successors id).foldl releaseStep (c.ended now id (.completed b))).Open j u := by
  have hnodup := hp.nodup_successors id
  have hmem : ∀ s ∈ j.plan.steps, s.id ∈ j.plan.successors id ↔ id ∈ s.predecessors := by
    intro s hs
    rw [hp.mem_successors, hp.precedes_iff hs]
  have hready : ∀ i, i ∈ ((j.plan.successors id).foldl releaseStep
      (c.ended now id (.completed b))).ready ↔ i ∈ c.ready ∨ i ∈ j.plan.successors id ∧
        (c.remaining[i]?).getD 0 - 1 = 0 ∧ c.report.stepState i = some .pending := by
    intro i
    rw [mem_ready_foldl_releaseStep hnodup]
    simp [ended, hgo, Report.pending_completed_iff hid]
  rw [foldl_releaseStep_eq]
  refine ⟨?_, increasing_foldl_releaseStep h.increasing, h.nodup_retries, ?_, ?_, h.waiting_eq, ?_⟩
  · intro s hs
    have hremaining := h.remaining_eq s hs
    have hcount := Report.openPredecessors_completed hid now b
      (hp.nodup_predecessors s hs)
    simp only [ended, remaining_write, report_write, Report.change_event,
      Plan.getElem?_foldl_lower hnodup, hremaining, hmem s hs]
    split at hcount <;> simp [*] <;> omega
  · intro i hi
    rcases (hready i).mp hi with hi | ⟨hi, -⟩
    · exact h.disjoint i hi
    · intro hi'
      have hpre := ((h.frontier i).mp (.inr hi')).2 id (hp.mem_successors.mp hi)
      rw [hid] at hpre
      cases hpre
  · intro i
    have hcanBegin := Job.canBegin_completed_iff hp hid now b i
    rw [← h.released_iff hp, ← h.frontier i] at hcanBegin
    exact (or_congr_left (hready i)).trans (or_right_comm.trans hcanBegin.symm)
  · intro a b' hab ha
    exact h.contagion_apply hid (by simp) (by simp [Status.next]) (by simp [Status.next]) hab ha

theorem retried (h : c.Open j u) (hid : c.report.stepState id = some .inProgress)
    (hpre : ∀ a, j.plan.Precedes a id → c.report.stepState a = some .succeeded) (t : String)
    (delay : Span) :
    { c.ended now id (.failed t (some delay)) with waitingRetry := c.waitingRetry + 1 }.Open j
      { u with retries := id :: u.retries } := by
  obtain ⟨hready, hretries⟩ := h.not_mem hid (by simp)
  have hsame : ∀ a, (c.report.apply now id (.failed t (some delay))).1.stepState a =
      some .succeeded ↔ c.report.stepState a = some .succeeded :=
    Report.succeeded_apply_iff hid (by simp) (by simp [Status.next])
  refine ⟨?_, h.increasing, List.nodup_cons.mpr ⟨hretries, h.nodup_retries⟩, ?_, ?_, ?_, ?_⟩
  · intro s hs
    exact (h.remaining_eq s hs).trans
      (congrArg some (Report.openPredecessors_congr hsame).symm)
  · intro i hi
    exact List.not_mem_cons_of_ne_of_not_mem (fun he ↦ hready (he ▸ hi)) (h.disjoint i hi)
  · intro i
    simp only [ended, report_write, ready_write, Report.change_event, List.mem_cons]
    by_cases hi : i = id
    · subst hi
      simpa [Job.CanBegin, Report.stepState_apply_self hid, Status.next, hsame] using hpre
    · rw [Job.canBegin_apply_of_ne hsame hi, ← h.frontier i]
      simp [hi]
  · simp [h.waiting_eq]
  · intro a b hab ha
    exact h.contagion_apply hid (by simp) (by simp [Status.next]) (by simp [Status.next]) hab ha

theorem failed (hp : j.plan.WellFormed) (h : c.Open j u)
    (hid : c.report.stepState id = some .inProgress)
    (hawaits : ∀ i, j.plan.Awaits i id →
      c.report.stepState i = some .pending ∨ c.report.stepState i = some .skipped)
    (t cause : String) :
    ((c.ended now id (.failed t none)).skipDependents j now id cause).Open j u := by
  have hfails := fails_skipDependents hp now hid hawaits t cause
  have hframe := frame_skipDependents j now id cause (c.ended now id (.failed t none))
  have hready : ∀ i, i ∈ ((c.ended now id (.failed t none)).skipDependents j now id cause).ready ↔
      i ∈ c.ready := by
    intro i
    rw [mem_ready_skipDependents hp]
    refine ⟨fun hi ↦ hi.1, fun hi ↦ ⟨hi, fun hawait ↦ ?_⟩⟩
    exact hfails.not_canBegin hawait.1 ((h.frontier i).mp (.inl hi))
  refine ⟨?_, increasing_foldl_skipStep h.increasing, h.nodup_retries, ?_, ?_, ?_, ?_⟩
  · intro s hs
    rw [Report.openPredecessors_congr hfails.succeeded_iff, ← h.remaining_eq s hs]
    exact congrArg (fun c ↦ c.remaining[s.id]?) hframe
  · intro i hi
    exact h.disjoint i ((hready i).mp hi)
  · intro i
    rw [hready, hfails.canBegin_iff, h.frontier]
  · exact (congrArg Control.waitingRetry hframe).trans h.waiting_eq
  · intro a b hab ha
    by_cases hb : j.plan.Awaits b id
    · exact hfails.skipped b hb
    · have hne : a ≠ id := fun he ↦ hb (.single (he ▸ hab))
      have hnot : ¬ j.plan.Awaits a id := fun hawait ↦ hb (hawait.tail hab)
      have hskipped := h.contagion a b hab
        (by simpa [Report.IsLost, hfails.others a hne hnot] using ha)
      rw [hfails.others b _ hb, hskipped]
      rintro rfl
      rw [hid] at hskipped
      cases hskipped

theorem retryDue (h : c.Open j u) (hid : id ∈ u.retries) :
    ({ c with waitingRetry := c.waitingRetry - 1 }.addReady id).Open j
      { u with retries := u.retries.erase id } := by
  have hmem : ∀ i, i ∈ u.retries.erase id ↔ i ≠ id ∧ i ∈ u.retries := fun i ↦
    h.nodup_retries.mem_erase_iff
  refine ⟨h.remaining_eq, Plan.pairwise_insertId h.increasing, h.nodup_retries.erase id, ?_, ?_, ?_,
    h.contagion⟩
  · intro i hi
    rw [hmem]
    rintro ⟨hne, hi'⟩
    exact h.disjoint i ((Plan.mem_insertId.mp hi).resolve_left hne) hi'
  · intro i
    have hfrontier := h.frontier i
    simp only [addReady, Plan.mem_insertId, hmem] at hfrontier ⊢
    rw [← hfrontier]
    by_cases hi : i = id
    · simp [hi, hid]
    · simp [hi]
  · simp [addReady, List.length_erase_of_mem hid, h.waiting_eq]

theorem initial (hp : j.plan.WellFormed) (runId : String) : (initial j runId now).Open j {} := by
  have hpending : ∀ s ∈ j.plan.steps,
      (Report.start runId now j.plan j.inventory).stepState s.id = some .pending := fun s hs ↦ by
    rw [Report.stepState_start, hp.step?_of_mem hs, Option.map_some]
  have hstate : ∀ i x, (Report.start runId now j.plan j.inventory).stepState i = some x →
      x = .pending := fun i x hx ↦ by
    obtain ⟨-, -, rfl⟩ := Option.map_eq_some_iff.mp (Report.stepState_start .. ▸ hx)
    rfl
  refine ⟨?_, hp.numbered.map_id_filter _, List.nodup_nil, by simp, ?_, rfl, ?_⟩
  · intro s hs
    have hnone := Report.openPredecessors_eq_length (s := s) fun a ha ↦ by cases hstate a _ ha
    simp only [Control.initial, List.getElem?_map, hp.numbered.getElem? hs, hnone, Option.map_some]
  · intro i
    simp only [Control.initial, Plan.mem_map_id_filter, List.not_mem_nil, or_false,
      List.isEmpty_iff]
    constructor
    · rintro ⟨s, hs, hnone, rfl⟩
      refine ⟨hpending s hs, fun a ha ↦ ?_⟩
      rw [hp.precedes_iff hs, hnone] at ha
      cases ha
    · rintro ⟨hi, hall⟩
      obtain ⟨s, hs, -⟩ := Option.map_eq_some_iff.mp (Report.stepState_start .. ▸ hi)
      obtain rfl := hp.id_of_step? hs
      refine ⟨s, List.mem_of_getElem? hs, List.eq_nil_iff_forall_not_mem.mpr fun a ha ↦ ?_, rfl⟩
      cases hstate a _ (hall a ⟨s, hs, ha⟩)
  · intro a b _ ha
    rcases ha with ha | ha <;> cases hstate a _ ha

end Open

end Control

end Rollout
