import Rollout.Proofs.Plan.Counting
import Rollout.Proofs.Run.Course
import Rollout.Proofs.Run.Hosts

namespace Rollout

/-- The report is what its history has made of it, change by change in a proper way. -/
structure Control.Sound (j : Job) (told : Outcomes) (l : Launch) (c : Control) : Prop where
  report_eq : c.report = (l.report j).after c.history
  chronicle : j.Chronicle told (l.report j) c.history

/-- What is under way outside once the orders in the outbox are carried out. -/
def Control.under (c : Control) (u : Outside) : Outside := c.outbox.foldl Outside.obey u

namespace Control

variable {j : Job} {told : Outcomes} {l : Launch} {now : Moment} {c : Control} {u : Outside}

theorem Sound.write (h : c.Sound j told l) {x : Change} (hx : j.Proper told c.report x) :
    (c.write x).Sound j told l where
  report_eq := by simp [Control.write, h.report_eq]
  chronicle := ⟨h.report_eq ▸ hx, h.chronicle⟩

theorem Sound.holds (hp : j.plan.WellFormed) (h : c.Sound j told l) : j.Holds told c.report := by
  rw [h.report_eq]
  exact (Job.Holds.start j told l.runId l.createdAt).after hp h.chronicle

theorem Sound.inLine (hp : j.plan.WellFormed) (h : c.Sound j told l) : c.report.InLine := by
  rw [h.report_eq]
  exact (Report.inLine_start l.runId j.plan j.inventory).after hp h.chronicle

theorem addresses_after (j : Job) (l : Launch) (xs : List Change) :
    ((l.report j).after xs).hosts.map HostRecord.address = j.inventory.addresses := by
  have hpairs := congrArg (List.map Prod.fst) (Report.hosts_after (l.report j) xs)
  rw [List.map_map, List.map_map] at hpairs
  refine Eq.trans hpairs ?_
  simp only [Launch.report, Report.start, List.map_map, Inventory.addresses]
  rfl

theorem Sound.addresses_eq (h : c.Sound j told l) :
    c.report.hosts.map HostRecord.address = j.inventory.addresses := by
  rw [h.report_eq, addresses_after]

@[simp] theorem apply_fst (id : Nat) (e : StepEvent) :
    (c.apply now id e).1 = c.write (.event now id e) := rfl

@[simp] theorem apply_snd (id : Nat) (e : StepEvent) :
    (c.apply now id e).2 = (c.report.apply now id e).2 := rfl

@[simp] theorem under_order (o : RunOrder) : (c.order o).under u = (c.under u).obey o := by
  simp [under, order]

@[simp] theorem under_write (x : Change) : (c.write x).under u = c.under u := rfl

section Write

variable (c) (x : Change)

@[simp] theorem report_write : (c.write x).report = c.report.change x := rfl

@[simp] theorem remaining_write : (c.write x).remaining = c.remaining := rfl

@[simp] theorem ready_write : (c.write x).ready = c.ready := rfl

@[simp] theorem inFlight_write : (c.write x).inFlight = c.inFlight := rfl

@[simp] theorem agentStarts_write : (c.write x).agentStarts = c.agentStarts := rfl

@[simp] theorem cancelled_write : (c.write x).cancelled = c.cancelled := rfl

end Write

/-- The control without what concerns agents alone. -/
def bare (c : Control) : Control := { c with agentStarts := [], outbox := [] }

theorem bare_startAgent (host : String) : (c.startAgent j host).bare = c.bare := by
  unfold startAgent
  split <;> rfl

theorem bare_hostChanged (host : String) (change : Option Status) :
    (c.hostChanged j host change).bare = c.bare := by
  unfold hostChanged
  split
  · exact bare_startAgent host
  · rfl

theorem report_hostChanged (host : String) (change : Option Status) :
    (c.hostChanged j host change).report = c.report :=
  (congrArg Control.report (bare_hostChanged (j := j) (c := c) host change) :)

theorem cancelled_hostChanged (host : String) (change : Option Status) :
    (c.hostChanged j host change).cancelled = c.cancelled :=
  (congrArg Control.cancelled (bare_hostChanged (j := j) (c := c) host change) :)

theorem under_startAgent (host : String) :
    ((c.startAgent j host).under u).attempts = (c.under u).attempts ∧
      ((c.startAgent j host).under u).retries = (c.under u).retries := by
  unfold startAgent
  split
  · exact ⟨rfl, rfl⟩
  · rw [under_order]
    exact ⟨rfl, rfl⟩

theorem under_hostChanged (host : String) (change : Option Status) :
    ((c.hostChanged j host change).under u).attempts = (c.under u).attempts ∧
      ((c.hostChanged j host change).under u).retries = (c.under u).retries := by
  unfold hostChanged
  split
  · exact under_startAgent host
  · exact ⟨rfl, rfl⟩

def kept (c : Control) : Control := { c with report := default, history := [], outbox := [] }

theorem kept_foldl_abandonAgent (hosts : List String) (c : Control) :
    (hosts.foldl abandonAgent c).kept = c.kept := by
  induction hosts generalizing c with
  | nil => rfl
  | cons host hosts ih =>
    rw [List.foldl_cons, ih]
    rfl

theorem under_foldl_abandonAgent (hosts : List String) (c : Control) :
    (hosts.foldl abandonAgent c).under u = c.under u := by
  induction hosts generalizing c with
  | nil => rfl
  | cons host hosts ih =>
    rw [List.foldl_cons, ih, abandonAgent, under_order, under_write]
    rfl

theorem startAgent_of_cancelled (h : c.cancelled = true) (host : String) :
    c.startAgent j host = c := by
  simp [startAgent, h]

theorem foldl_startAgent_of_cancelled (h : c.cancelled = true) (hosts : List String) :
    hosts.foldl (fun c host ↦ c.startAgent j host) c = c := by
  induction hosts with
  | nil => rfl
  | cons host hosts ih => rw [List.foldl_cons, startAgent_of_cancelled h, ih]

section Release

theorem foldl_releaseStep_eq (ids : List Nat) (c : Control) :
    ids.foldl releaseStep c =
      { c with
        remaining := ids.foldl Plan.lower c.remaining
        ready := (ids.foldl releaseStep c).ready } := by
  induction ids generalizing c with
  | nil => rfl
  | cons i ids ih =>
    have hone : c.releaseStep i =
        { c with remaining := Plan.lower c.remaining i, ready := (c.releaseStep i).ready } := by
      simp only [releaseStep]
      split <;> rfl
    rw [List.foldl_cons, ih, hone]
    rfl

theorem mem_ready_releaseStep {i k : Nat} :
    k ∈ (c.releaseStep i).ready ↔ k ∈ c.ready ∨ k = i ∧ (c.remaining[i]?).getD 0 - 1 = 0 ∧
      c.cancelled = false ∧ c.report.stepState i = some .pending := by
  simp only [releaseStep]
  split
  · rename_i h
    simp only [Bool.and_eq_true, decide_eq_true_eq, Bool.not_eq_true', beq_iff_eq] at h
    simp only [addReady, Plan.mem_insertId, h]
    tauto
  · rename_i h
    simp only [Bool.and_eq_true, decide_eq_true_eq, Bool.not_eq_true', beq_iff_eq] at h
    tauto

theorem mem_ready_foldl_releaseStep {ids : List Nat} (h : ids.Nodup) {c : Control} {k : Nat} :
    k ∈ (ids.foldl releaseStep c).ready ↔ k ∈ c.ready ∨ k ∈ ids ∧
      (c.remaining[k]?).getD 0 - 1 = 0 ∧ c.cancelled = false ∧
      c.report.stepState k = some .pending := by
  induction ids generalizing c with
  | nil => simp
  | cons i ids ih =>
    obtain ⟨hi, hids⟩ := List.nodup_cons.mp h
    have hone : c.releaseStep i =
        { c with remaining := Plan.lower c.remaining i, ready := (c.releaseStep i).ready } :=
      foldl_releaseStep_eq [i] c
    have hremaining : (c.releaseStep i).remaining = Plan.lower c.remaining i := by rw [hone]
    have hcancelled : (c.releaseStep i).cancelled = c.cancelled := by rw [hone]
    have hreport : (c.releaseStep i).report = c.report := by rw [hone]
    rw [List.foldl_cons, ih hids, mem_ready_releaseStep, hremaining, hcancelled, hreport,
      Plan.getElem?_lower]
    by_cases hk : i = k
    · subst k
      simp [hi]
    · simp [hk, Ne.symm hk]

theorem increasing_foldl_releaseStep {ids : List Nat} {c : Control}
    (h : c.ready.Pairwise (· < ·)) : (ids.foldl releaseStep c).ready.Pairwise (· < ·) := by
  induction ids generalizing c with
  | nil => exact h
  | cons i ids ih =>
    refine ih ?_
    simp only [releaseStep]
    split
    · exact Plan.pairwise_insertId h
    · exact h

end Release

section Skip

variable {e : StepEvent} (he : (Status.next .pending e).1 = .skipped)

theorem applyIfPending_of_pending {id : Nat} (h : c.report.stepState id = some .pending) :
    c.applyIfPending now e id = c.write (.event now id e) := by
  simp [applyIfPending, h]

theorem applyIfPending_of_not_pending {id : Nat} (h : c.report.stepState id ≠ some .pending) :
    c.applyIfPending now e id = c := by
  simp [applyIfPending, h]

/-- What holds at first and is kept by every event for a pending step holds at the end. -/
theorem foldl_applyIfPending_induct {P : Control → Prop} {ids : List Nat} (h : P c)
    (hstep : ∀ c, ∀ i ∈ ids, P c → c.report.stepState i = some .pending →
      P (c.write (.event now i e))) :
    P (ids.foldl (applyIfPending now e) c) := by
  induction ids generalizing c with
  | nil => exact h
  | cons i ids ih =>
    refine ih ?_ fun c k hk ↦ hstep c k (List.mem_cons_of_mem _ hk)
    by_cases hi : c.report.stepState i = some .pending
    · rw [applyIfPending_of_pending hi]
      exact hstep c i List.mem_cons_self h hi
    · rwa [applyIfPending_of_not_pending hi]

theorem kept_foldl_applyIfPending (ids : List Nat) (c : Control) :
    (ids.foldl (applyIfPending now e) c).kept = c.kept :=
  foldl_applyIfPending_induct (P := fun c' ↦ c'.kept = c.kept) rfl fun _ _ _ hc _ ↦ hc

theorem under_foldl_applyIfPending (ids : List Nat) (c : Control) :
    (ids.foldl (applyIfPending now e) c).under u = c.under u :=
  foldl_applyIfPending_induct (P := fun c' ↦ c'.under u = c.under u) rfl fun _ _ _ hc _ ↦ hc

include he in
theorem stepState_write_skip {id : Nat} (h : c.report.stepState id = some .pending) (i : Nat) :
    (c.write (.event now id e)).report.stepState i =
      if i = id then some .skipped else c.report.stepState i := by
  rw [report_write, Report.change_event, Report.stepState_apply]
  split
  · rename_i hi
    rw [hi, h, Option.map_some, he]
  · rfl

include he in
theorem stepState_foldl_applyIfPending (ids : List Nat) (c : Control) (i : Nat) :
    (ids.foldl (applyIfPending now e) c).report.stepState i =
      if i ∈ ids ∧ c.report.stepState i = some .pending then some .skipped
      else c.report.stepState i := by
  induction ids generalizing c with
  | nil => simp
  | cons k ids ih =>
    rw [List.foldl_cons, ih]
    by_cases hk : c.report.stepState k = some .pending
    · rw [applyIfPending_of_pending hk, stepState_write_skip he hk]
      by_cases hi : i = k
      · subst hi
        simp [hk]
      · simp [hi]
    · rw [applyIfPending_of_not_pending hk]
      by_cases hi : i = k
      · subst hi
        simp [hk]
      · simp [hi]

variable {cause : String}

theorem skipStep_of_not_pending {id : Nat} (h : c.report.stepState id ≠ some .pending) :
    c.skipStep j now cause id = c := by
  simp [skipStep, h]

theorem skipStep_of_pending {id : Nat} (h : c.report.stepState id = some .pending) :
    c.skipStep j now cause id =
      ({ c with ready := c.ready.filter fun r ↦ r ≠ id }).write
        (.event now id (.dependencyFailed cause)) := by
  have hstate : (c.report.apply now id (.dependencyFailed cause)).2.state ≠ .succeeded := by
    rw [Report.state_apply_of_eq h]
    simp [Status.next]
  have hchange := Report.hostChange_ne_succeeded hstate
  simp only [skipStep, h, beq_self_eq_true, if_true]
  split
  · simp only [hostChanged, apply_snd, hchange, if_false]
    rfl
  · rfl

theorem foldl_skipStep_induct {P : Control → Prop} {ids : List Nat} (h : P c)
    (hstep : ∀ c, ∀ i ∈ ids, P c → c.report.stepState i = some .pending →
      P (({ c with ready := c.ready.filter fun r ↦ r ≠ i }).write
        (.event now i (.dependencyFailed cause)))) :
    P (ids.foldl (skipStep j now cause) c) := by
  induction ids generalizing c with
  | nil => exact h
  | cons i ids ih =>
    refine ih ?_ fun c k hk ↦ hstep c k (List.mem_cons_of_mem _ hk)
    by_cases hi : c.report.stepState i = some .pending
    · rw [skipStep_of_pending hi]
      exact hstep c i List.mem_cons_self h hi
    · rwa [skipStep_of_not_pending hi]

theorem frame_foldl_skipStep (ids : List Nat) (c : Control) :
    { ids.foldl (skipStep j now cause) c with
      report := c.report, history := c.history, ready := c.ready } = c :=
  foldl_skipStep_induct
    (P := fun c' ↦ { c' with report := c.report, history := c.history, ready := c.ready } = c) rfl
    fun _ _ _ hc _ ↦ hc

theorem stepState_write_skip_of_ready {ready : List Nat} {id : Nat}
    (h : c.report.stepState id = some .pending) (i : Nat) :
    (({ c with ready := ready }).write (.event now id (.dependencyFailed cause))).report.stepState i
      = if i = id then some .skipped else c.report.stepState i :=
  stepState_write_skip (c := { c with ready := ready }) rfl h i

theorem stepState_foldl_skipStep (ids : List Nat) (c : Control) (i : Nat) :
    (ids.foldl (skipStep j now cause) c).report.stepState i =
      if i ∈ ids ∧ c.report.stepState i = some .pending then some .skipped
      else c.report.stepState i := by
  induction ids generalizing c with
  | nil => simp
  | cons k ids ih =>
    rw [List.foldl_cons, ih]
    by_cases hk : c.report.stepState k = some .pending
    · rw [skipStep_of_pending hk, stepState_write_skip_of_ready hk]
      by_cases hi : i = k
      · subst hi
        simp [hk]
      · simp [hi]
    · rw [skipStep_of_not_pending hk]
      by_cases hi : i = k
      · subst hi
        simp [hk]
      · simp [hi]

theorem mem_ready_foldl_skipStep (ids : List Nat) (c : Control) (i : Nat) :
    i ∈ (ids.foldl (skipStep j now cause) c).ready ↔
      i ∈ c.ready ∧ ¬ (i ∈ ids ∧ c.report.stepState i = some .pending) := by
  induction ids generalizing c with
  | nil => simp
  | cons k ids ih =>
    rw [List.foldl_cons, ih]
    by_cases hk : c.report.stepState k = some .pending
    · rw [skipStep_of_pending hk, stepState_write_skip_of_ready hk, ready_write, List.mem_filter]
      by_cases hi : i = k
      · subst hi
        simp [hk]
      · simp [hi]
    · rw [skipStep_of_not_pending hk]
      by_cases hi : i = k
      · subst hi
        simp [hk]
      · simp [hi]

theorem increasing_foldl_skipStep {ids : List Nat} (h : c.ready.Pairwise (· < ·)) :
    (ids.foldl (skipStep j now cause) c).ready.Pairwise (· < ·) :=
  foldl_skipStep_induct (P := fun c ↦ c.ready.Pairwise (· < ·)) h
    fun _ _ _ hc _ ↦ hc.filter _

end Skip

section Cancel

/-- The control of a run that has just been cancelled, before it skips what is pending. -/
def stopped (c : Control) : Control :=
  c.agentStarts.foldl abandonAgent
    ({ c with cancelled := true, ready := [], waitingRetry := 0, agentStarts := [] }.write
      .cancelled)

theorem cancel_eq : c.cancel j now = c.stopped.applyToPending j now .cancelled := rfl

theorem kept_cancel (j : Job) (now : Moment) (c : Control) :
    (c.cancel j now).kept =
      { c with cancelled := true, ready := [], waitingRetry := 0, agentStarts := [] }.kept := by
  rw [cancel_eq, applyToPending, kept_foldl_applyIfPending, stopped, kept_foldl_abandonAgent]
  rfl

theorem under_cancel : (c.cancel j now).under u = c.under u := by
  rw [cancel_eq, applyToPending, under_foldl_applyIfPending, stopped, under_foldl_abandonAgent]
  rfl

theorem cancelled_cancel : (c.cancel j now).cancelled = true :=
  (congrArg Control.cancelled (kept_cancel j now c) :)

theorem steps_stopped : c.stopped.report.steps = c.report.steps := by
  have hfold : ∀ (hosts : List String) (c : Control),
      (hosts.foldl abandonAgent c).report.steps = c.report.steps := by
    intro hosts
    induction hosts with
    | nil => exact fun _ ↦ rfl
    | cons host hosts ih => exact fun c ↦ ih (c.abandonAgent host)
  exact hfold _ _

theorem cancelled_stopped : c.stopped.cancelled = true :=
  (congrArg Control.cancelled (kept_foldl_abandonAgent c.agentStarts _) :)

end Cancel

section Messages

variable {id : Nat} {s : Step}

def ended (now : Moment) (id : Nat) (e : StepEvent) (c : Control) : Control :=
  { c with inFlight := c.inFlight - 1 }.write (.event now id e)

theorem dispatch_of_pending (hs : j.plan.step? id = some s)
    (h : c.report.stepState id = some .pending) :
    c.dispatch j now id =
      { c.write (.event now id .dispatched) with inFlight := c.inFlight + 1 }.order
        (.attempt id) := by
  have hstate : (c.report.apply now id .dispatched).2.state = .inProgress := by
    rw [Report.state_apply_of_eq h, Status.next]
  simp only [dispatch, hs, apply_snd, hstate, if_true]
  rfl

section Finished

variable (hs : j.plan.step? id = some s) (hid : s.id = id)
  (h : c.report.stepState id = some .inProgress)
include hs hid h

theorem handle_completed (b : Bool) :
    c.handle j now (.finished id (.ok b)) =
      ((j.plan.successors id).foldl releaseStep (c.ended now id (.completed b))).hostChanged j
        s.host (c.report.apply now id (.completed b)).2.hostChange := by
  subst hid
  have heffects : (c.report.apply now s.id (.completed b)).2.effects = _ :=
    Report.effects_apply_of_eq h
  simp only [handle, hs, stepFinished, outcomeEvent, apply_snd, heffects]
  cases b <;> rfl

theorem handle_retried {fault : Fault} {delay : Span} (hgo : c.cancelled = false)
    (hdelay : j.delayAfter s (c.report.attempts id) fault = some delay) :
    c.handle j now (.finished id (.error fault)) =
      { c.ended now id (.failed fault.message (some delay)) with
        waitingRetry := c.waitingRetry + 1 }.order (.retryLater id delay) := by
  subst hid
  have hsome : (if c.cancelled = true then none else retryDelay s.kind s.retryable fault
      (c.report.attempts s.id) (j.retry.forKind s.kind)) = some delay := by
    rw [if_neg (by simp [hgo])]
    exact hdelay
  have heffects : (c.report.apply now s.id (.failed fault.message (some delay))).2.effects = _ :=
    Report.effects_apply_of_eq h
  have hchange : (c.report.apply now s.id (.failed fault.message (some delay))).2.hostChange ≠
      some .succeeded :=
    Report.hostChange_ne_succeeded (by rw [Report.state_apply_of_eq h]; simp [Status.next])
  simp only [handle, hs, stepFinished, outcomeEvent, apply_snd, hsome, heffects, hostChanged,
    hchange, if_false]
  rfl

theorem handle_failed {fault : Fault}
    (hend : c.cancelled = true ∨ j.delayAfter s (c.report.attempts id) fault = none) :
    c.handle j now (.finished id (.error fault)) =
      (c.ended now id (.failed fault.message none)).skipDependents j now id s.label := by
  subst hid
  have hnone : (if c.cancelled = true then none else retryDelay s.kind s.retryable fault
      (c.report.attempts s.id) (j.retry.forKind s.kind)) = none := by
    split
    · rfl
    · exact hend.resolve_left (by assumption)
  have heffects : (c.report.apply now s.id (.failed fault.message none)).2.effects = _ :=
    Report.effects_apply_of_eq h
  have hchange : (c.report.apply now s.id (.failed fault.message none)).2.hostChange ≠
      some .succeeded :=
    Report.hostChange_ne_succeeded (by rw [Report.state_apply_of_eq h]; simp [Status.next])
  simp only [handle, hs, stepFinished, outcomeEvent, apply_snd, hnone, heffects, hostChanged,
    hchange, if_false]
  rfl

/-- What a failure leads to: another attempt later, or the end of all that waits for the step. -/
theorem handle_error (fault : Fault) :
    (c.cancelled = false ∧ ∃ delay, j.delayAfter s (c.report.attempts id) fault = some delay ∧
      c.handle j now (.finished id (.error fault)) =
        { c.ended now id (.failed fault.message (some delay)) with
          waitingRetry := c.waitingRetry + 1 }.order (.retryLater id delay)) ∨
    (c.cancelled = true ∨ j.delayAfter s (c.report.attempts id) fault = none) ∧
      c.handle j now (.finished id (.error fault)) =
        (c.ended now id (.failed fault.message none)).skipDependents j now id s.label := by
  by_cases hend : c.cancelled = true ∨ j.delayAfter s (c.report.attempts id) fault = none
  · exact .inr ⟨hend, handle_failed hs hid h hend⟩
  · obtain ⟨hgo, hdelay⟩ := not_or.mp hend
    have hgo : c.cancelled = false := by simpa using hgo
    obtain ⟨delay, hdelay⟩ := Option.ne_none_iff_exists'.mp hdelay
    exact .inl ⟨hgo, delay, hdelay, handle_retried hs hid h hgo hdelay⟩

end Finished

theorem handle_retryDue (hgo : c.cancelled = false) (h : c.report.stepState id = some .pending) :
    c.handle j now (.retryDue id) =
      { c with waitingRetry := c.waitingRetry - 1 }.addReady id := by
  simp [handle, hgo, h]

theorem handle_retryDue_of_cancelled (h : c.cancelled = true) :
    c.handle j now (.retryDue id) = { c with waitingRetry := c.waitingRetry - 1 } := by
  simp [handle, h]

def agentReport : Result AgentHealth → AgentHealth × Bool
  | .ok health => (health, false)
  | .error _ => (.unhealthy, true)

theorem handle_agentDone (host : String) (outcome : Result AgentHealth) :
    c.handle j now (.agentDone host outcome) =
      if c.agentStarts.contains host then
        { c with agentStarts := c.agentStarts.erase host }.write
          (.agent host (agentReport outcome).1 (agentReport outcome).2)
      else c := by
  cases outcome <;> rfl

theorem under_handle_retryDue : (c.handle j now (.retryDue id)).under u = c.under u := by
  simp only [handle]
  split <;> rfl

theorem under_handle_agentDone (host : String) (outcome : Result AgentHealth) :
    (c.handle j now (.agentDone host outcome)).under u = c.under u := by
  rw [handle_agentDone]
  split <;> rfl

end Messages

end Control

end Rollout
