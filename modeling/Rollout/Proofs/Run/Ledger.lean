import Rollout.Proofs.Run.Invariant

namespace Rollout

namespace Signal

def isEnding (id : Nat) : Signal → Bool
  | .message (.finished i _) => i == id
  | _ => false

def isDue (id : Nat) : Signal → Bool
  | .message (.retryDue i) => i == id
  | _ => false

def isAnswer (host : String) : Signal → Bool
  | .message (.agentDone h _) => h == host
  | _ => false

def isCancel : Signal → Bool
  | .cancel => true
  | _ => false

end Signal

/-- What was heard of the attempts is what is told of them. The signals are given the latest first:
the end of attempt number `k` of a step is the one that follows `k - 1` others. -/
def Outcomes.Attested (told : Outcomes) : List Signal → Prop
  | [] => True
  | .message (.finished id outcome) :: σs =>
    told id (σs.countP (Signal.isEnding id) + 1) outcome ∧ Attested told σs
  | _ :: σs => Attested told σs

theorem Outcomes.attested_of_heard {told : Outcomes} {σs : List Signal}
    (h : ∀ id outcome, .message (.finished id outcome) ∈ σs → ∀ k, told id k outcome) :
    told.Attested σs := by
  induction σs with
  | nil => trivial
  | cons σ σs ih =>
    have hrest := ih fun id outcome hmem ↦ h id outcome (List.mem_cons_of_mem _ hmem)
    cases σ with
    | cancel => exact hrest
    | message m =>
      cases m with
      | finished id outcome => exact ⟨h id outcome List.mem_cons_self _, hrest⟩
      | retryDue id => exact hrest
      | agentDone host outcome => exact hrest

theorem Outcomes.Attested.mono {told told' : Outcomes} {σs : List Signal} (h : told.Attested σs)
    (hle : ∀ id k outcome, told id k outcome → told' id k outcome) : told'.Attested σs := by
  induction σs with
  | nil => trivial
  | cons σ σs ih =>
    cases σ with
    | cancel => exact ih h
    | message m =>
      cases m with
      | finished id outcome => exact ⟨hle _ _ _ h.1, ih h.2⟩
      | retryDue id => exact ih h
      | agentDone host outcome => exact ih h

namespace Control

variable {j : Job} {told : Outcomes} {l : Launch} {now : Moment} {c c' : Control} {u u' : Outside}
  {id : Nat} {s : Step} {e : StepEvent}

/-- What messages do not change: the attempts made and those under way, and whether the run is
cancelled. -/
def core (u : Outside) (c : Control) : (Nat → Nat) × List Nat × Bool :=
  (c.report.attempts, (c.under u).attempts, c.cancelled)

theorem core_write_event (he : e ≠ .dispatched) :
    (c.write (.event now id e)).core u = c.core u := by
  simp [core, Report.attempts_apply he]

theorem core_hostChanged (host : String) (change : Option Status) :
    (c.hostChanged j host change).core u = c.core u := by
  obtain ⟨hattempts, -⟩ := under_hostChanged (j := j) (c := c) (u := u) host change
  rw [core, report_hostChanged, cancelled_hostChanged, hattempts, core]

theorem core_perform (label : String) (f : StepEffect) :
    (c.perform j now id label f).core u = c.core u := by
  cases f with
  | scheduleRetry delay =>
    simp only [perform, core, under_order]
    rfl
  | releaseDependents =>
    rw [perform, foldl_releaseStep_eq]
    rfl
  | skipDependents =>
    exact foldl_skipStep_induct (P := fun c' ↦ c'.core u = c.core u) rfl
      fun c' i _ hc' _ ↦ (core_write_event (by simp)).trans hc'
  | _ => rfl

theorem core_foldl_perform (label : String) (fs : List StepEffect) :
    (fs.foldl (perform j now id label) c).core u = c.core u := by
  induction fs generalizing c with
  | nil => rfl
  | cons f fs ih => rw [List.foldl_cons, ih, core_perform]

theorem outcomeEvent_ne_dispatched (outcome : Result Bool) :
    c.outcomeEvent j s outcome ≠ .dispatched := by
  cases outcome <;> simp [outcomeEvent]

theorem core_handle (j : Job) (now : Moment) (u : Outside) (c : Control) (m : RunMessage) :
    (c.handle j now m).core u = c.core u := by
  cases m with
  | finished id outcome =>
    simp only [handle]
    split
    · rw [stepFinished, core_hostChanged, core_foldl_perform, apply_fst,
        core_write_event (outcomeEvent_ne_dispatched outcome)]
      rfl
    · rfl
  | retryDue id =>
    simp only [handle]
    split <;> rfl
  | agentDone host outcome =>
    rw [handle_agentDone]
    split <;> rfl

/-- The accounts of the attempts, of the waits for a retry, and of cancellations. -/
structure Ledger (l : Launch) (σs : List Signal) (u : Outside) (c : Control) : Prop where
  attempts_eq : ∀ i, c.report.attempts i = σs.countP (Signal.isEnding i) + u.attempts.count i
  retries_le : ∀ i,
    σs.countP (Signal.isDue i) + u.retries.count i ≤ σs.countP (Signal.isEnding i)
  cancelled_eq : c.cancelled.toNat = l.cancelled.toNat + σs.countP Signal.isCancel

variable {σs : List Signal}

namespace Ledger

theorem frame (h : c.Ledger l σs u) (hreport : c'.report.attempts = c.report.attempts)
    (hattempts : u'.attempts = u.attempts) (hretries : u'.retries = u.retries)
    (hcancelled : c'.cancelled = c.cancelled) : c'.Ledger l σs u' where
  attempts_eq i := by rw [hreport, hattempts, h.attempts_eq]
  retries_le i := by rw [hretries]; exact h.retries_le i
  cancelled_eq := by rw [hcancelled, h.cancelled_eq]

theorem attempts_of_mem (h : c.Ledger l σs u) (hnodup : u.attempts.Nodup) (hid : id ∈ u.attempts) :
    c.report.attempts id = σs.countP (Signal.isEnding id) + 1 := by
  rw [h.attempts_eq, List.count_eq_one_of_mem hnodup hid]

theorem finished (h : c.Ledger l σs u) (hempty : c.outbox = []) {outcome : Result Bool}
    (hid : id ∈ u.attempts)
    (hretries : ((c.handle j now (.finished id outcome)).under
        { u with attempts := u.attempts.erase id }).retries = u.retries ∨
      ((c.handle j now (.finished id outcome)).under
        { u with attempts := u.attempts.erase id }).retries = id :: u.retries) :
    (c.handle j now (.finished id outcome)).Ledger l (.message (.finished id outcome) :: σs)
      ((c.handle j now (.finished id outcome)).under
        { u with attempts := u.attempts.erase id }) := by
  have hcore := core_handle j now { u with attempts := u.attempts.erase id } c
    (.finished id outcome)
  simp only [core, under_of_empty hempty, Prod.mk.injEq] at hcore
  obtain ⟨hreport, hattempts, hcancelled⟩ := hcore
  have hpos := List.count_pos_iff.mpr hid
  refine ⟨?_, ?_, ?_⟩
  · intro i
    have heq := h.attempts_eq i
    rw [hreport, hattempts, List.countP_cons]
    by_cases hi : i = id
    · subst hi
      rw [List.count_erase_self]
      simp only [Signal.isEnding, beq_self_eq_true, if_true]
      omega
    · rw [List.count_erase_of_ne hi]
      simpa [Signal.isEnding, Ne.symm hi] using heq
  · intro i
    have hle := h.retries_le i
    rw [List.countP_cons, List.countP_cons]
    rcases hretries with heq | heq
    · simp only [heq, Signal.isDue, Bool.false_eq_true, if_false]
      omega
    · rw [heq, List.count_cons]
      simp only [Signal.isDue, Signal.isEnding, Bool.false_eq_true, if_false, beq_iff_eq]
      omega
  · rw [hcancelled, h.cancelled_eq, List.countP_cons]
    rfl

theorem retryDue (h : c.Ledger l σs u) (hempty : c.outbox = []) (hid : id ∈ u.retries) :
    (c.handle j now (.retryDue id)).Ledger l (.message (.retryDue id) :: σs)
      ((c.handle j now (.retryDue id)).under { u with retries := u.retries.erase id }) := by
  have hcore := core_handle j now { u with retries := u.retries.erase id } c (.retryDue id)
  simp only [core, under_of_empty hempty, Prod.mk.injEq] at hcore
  obtain ⟨hreport, -, hcancelled⟩ := hcore
  have hunder : (c.handle j now (.retryDue id)).under { u with retries := u.retries.erase id } =
      { u with retries := u.retries.erase id } :=
    under_handle_retryDue.trans (under_of_empty hempty)
  have hpos := List.count_pos_iff.mpr hid
  rw [hunder]
  refine ⟨?_, ?_, ?_⟩
  · intro i
    rw [hreport, h.attempts_eq, List.countP_cons]
    rfl
  · intro i
    have hle := h.retries_le i
    rw [List.countP_cons, List.countP_cons]
    by_cases hi : i = id
    · subst hi
      rw [List.count_erase_self]
      simp only [Signal.isDue, Signal.isEnding, beq_self_eq_true, if_true, Bool.false_eq_true,
        if_false]
      omega
    · rw [List.count_erase_of_ne hi]
      simpa [Signal.isDue, Signal.isEnding, Ne.symm hi] using hle
  · rw [hcancelled, h.cancelled_eq, List.countP_cons]
    rfl

theorem agentDone (h : c.Ledger l σs u) (hempty : c.outbox = []) (host : String)
    (outcome : Result AgentHealth) :
    (c.handle j now (.agentDone host outcome)).Ledger l (.message (.agentDone host outcome) :: σs)
      ((c.handle j now (.agentDone host outcome)).under
        { u with starts := u.starts.erase host }) := by
  have hcore := core_handle j now { u with starts := u.starts.erase host } c
    (.agentDone host outcome)
  simp only [core, under_of_empty hempty, Prod.mk.injEq] at hcore
  obtain ⟨hreport, hattempts, hcancelled⟩ := hcore
  have hunder : (c.handle j now (.agentDone host outcome)).under
      { u with starts := u.starts.erase host } = { u with starts := u.starts.erase host } :=
    (under_handle_agentDone host outcome).trans (under_of_empty hempty)
  rw [hunder]
  refine ⟨?_, ?_, ?_⟩
  · intro i
    rw [hreport, h.attempts_eq, List.countP_cons]
    rfl
  · intro i
    have hle := h.retries_le i
    rw [List.countP_cons, List.countP_cons]
    exact hle
  · rw [hcancelled, h.cancelled_eq, List.countP_cons]
    rfl

theorem handle (hp : j.plan.WellFormed) (hinv : c.Invariant j told l u) (h : c.Ledger l σs u)
    (hempty : c.outbox = []) {m : RunMessage} (hm : u.Expects m) :
    (c.handle j now m).Ledger l (.message m :: σs)
      ((c.handle j now m).under (u.hear (.message m))) := by
  cases m with
  | retryDue id => exact h.retryDue hempty hm
  | agentDone host outcome => exact h.agentDone hempty host outcome
  | finished id outcome =>
    have hstate := (hinv.steady.mem_attempts id).mp hm
    obtain ⟨s, hs, hid⟩ := hinv.steady.step?_of_stepState hp hstate
    refine h.finished hempty hm ?_
    cases outcome with
    | ok b =>
      rw [handle_completed hs hid hstate, (under_hostChanged _ _).2, foldl_releaseStep_eq,
        under_of_empty]
      · exact .inl rfl
      · exact hempty
    | error fault =>
      rcases handle_error hs hid hstate fault with ⟨-, delay, -, heq⟩ | ⟨-, heq⟩
      · rw [heq, under_order, under_of_empty]
        · exact .inr rfl
        · exact hempty
      · have hframe := frame_skipDependents j now id s.label
          (c.ended now id (.failed fault.message none))
        rw [heq, under_of_empty]
        · exact .inl rfl
        · exact (congrArg Control.outbox hframe :).trans hempty

end Ledger

theorem attempts_cancel : (c.cancel j now).report.attempts = c.report.attempts := by
  have hstopped : c.stopped.report.attempts = c.report.attempts :=
    Report.attempts_congr steps_stopped
  rw [cancel_eq]
  exact foldl_applyIfPending_induct (P := fun c' ↦ c'.report.attempts = c.report.attempts) hstopped
    fun c' i _ hc' _ ↦ (Report.attempts_apply (by simp)).trans hc'

theorem Ledger.cancel (h : c.Ledger l σs u) (hgo : c.cancelled = false) :
    (c.cancel j now).Ledger l (.cancel :: σs) u where
  attempts_eq i := by
    rw [attempts_cancel, h.attempts_eq, List.countP_cons]
    rfl
  retries_le i := by
    rw [List.countP_cons, List.countP_cons]
    exact h.retries_le i
  cancelled_eq := by
    have heq := h.cancelled_eq
    rw [cancelled_cancel, List.countP_cons]
    rw [hgo] at heq
    simp only [Bool.toNat_false, Bool.toNat_true, Signal.isCancel, if_true] at heq ⊢
    omega

theorem Ledger.dispatch (hp : j.plan.WellFormed) (hinv : c.Invariant j told l (c.under u))
    (h : c.Ledger l σs (c.under u)) {ready : List Nat} (hready : c.ready = id :: ready)
    (hgo : c.cancelled = false) :
    ({ c with ready := ready }.dispatch j now id).Ledger l σs
      (({ c with ready := ready }.dispatch j now id).under u) := by
  have hpending := (hinv.going hgo).pending (i := id) (by simp [hready])
  rw [hinv.dispatch_eq hp hgo hready, under_order]
  refine ⟨fun i ↦ ?_, h.retries_le, h.cancelled_eq⟩
  have heq := h.attempts_eq i
  have hnew : (c.report.apply now id .dispatched).1.attempts i = _ :=
    Report.attempts_dispatched hpending i
  change (c.report.apply now id .dispatched).1.attempts i =
    σs.countP (Signal.isEnding i) + (id :: (c.under u).attempts).count i
  rw [hnew, List.count_cons, heq]
  simp only [beq_iff_eq, eq_comm (a := id)]
  omega

theorem Invariant.initial (hp : j.plan.WellFormed) :
    (Control.initial j l.runId l.createdAt).Invariant j told l {} where
  steady := by
    refine ⟨⟨rfl, trivial⟩, List.nodup_nil, fun i ↦ ?_, rfl, Nat.zero_le _, rfl⟩
    simp [Control.initial, Report.stepState_start]
  going _ := .initial hp l.runId
  closed hstop := absurd hstop (by simp [Control.initial])

end Control

end Rollout
