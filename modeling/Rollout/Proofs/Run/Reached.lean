import Rollout.Proofs.Run.Ledger

namespace Rollout

variable {j : Job} {told : Outcomes} {l : Launch} {now : Moment} {u : Outside} {σs : List Signal}

namespace Control

variable {c : Control}

theorem Ledger.startAgent (h : c.Ledger l σs (c.under u)) (host : String) :
    (c.startAgent j host).Ledger l σs ((c.startAgent j host).under u) := by
  have hbare := bare_startAgent (j := j) (c := c) host
  obtain ⟨hattempts, hretries⟩ := under_startAgent (j := j) (c := c) (u := u) host
  exact h.frame (congrArg (fun c ↦ c.report.attempts) hbare :) hattempts hretries
    (congrArg Control.cancelled hbare :)

theorem foldl_startAgent (hinv : c.Invariant j told l (c.under u)) (h : c.Ledger l σs (c.under u))
    (hosts : List String) :
    (hosts.foldl (fun c host ↦ c.startAgent j host) c).Invariant j told l
        ((hosts.foldl (fun c host ↦ c.startAgent j host) c).under u) ∧
      (hosts.foldl (fun c host ↦ c.startAgent j host) c).Ledger l σs
        ((hosts.foldl (fun c host ↦ c.startAgent j host) c).under u) := by
  induction hosts generalizing c with
  | nil => exact ⟨hinv, h⟩
  | cons host hosts ih => exact ih (hinv.startAgent host) (h.startAgent host)

theorem attempts_initial (runId : String) (i : Nat) :
    (initial j runId now).report.attempts i = 0 := by
  simp only [initial, Report.start, Report.attempts, List.getElem?_map]
  cases j.plan.steps[i]? <;> rfl

theorem start_kept (now : Moment) (told : Outcomes) (l : Launch) (hp : j.plan.WellFormed) :
    ((initial j l.runId l.createdAt).start j now l.cancelled).Invariant j told l
        (((initial j l.runId l.createdAt).start j now l.cancelled).under {}) ∧
      ((initial j l.runId l.createdAt).start j now l.cancelled).Ledger l []
        (((initial j l.runId l.createdAt).start j now l.cancelled).under {}) := by
  have hinv : (initial j l.runId l.createdAt).Invariant j told l {} := .initial hp
  unfold start
  cases hstop : l.cancelled with
  | false =>
    refine foldl_startAgent hinv ⟨?_, ?_, ?_⟩ _
    · intro i
      rw [if_neg (by simp), attempts_initial]
      rfl
    · intro i
      exact Nat.le_refl 0
    · rw [hstop]
      rfl
  | true =>
    have hstopped : ((initial j l.runId l.createdAt).cancel j now).Invariant j told l
        (((initial j l.runId l.createdAt).cancel j now).under {}) := by
      rw [under_cancel]
      exact hinv.cancel hp
    refine foldl_startAgent hstopped ⟨?_, ?_, ?_⟩ _
    · intro i
      rw [attempts_cancel, attempts_initial, under_cancel]
      rfl
    · intro i
      rw [under_cancel]
      exact Nat.le_refl 0
    · rw [cancelled_cancel, hstop]
      rfl

end Control

namespace Course

variable {x : Course}

structure Sound (j : Job) (told : Outcomes) (l : Launch) (σs : List Signal) (x : Course) :
    Prop where
  invariant : x.control.Invariant j told l x.outside
  ledger : x.control.Ledger l σs x.outside
  outbox_eq : x.control.outbox = []
  settled : x.control.cancelled = false → x.control.ready = [] ∨ j.workers ≤ x.control.inFlight

theorem Sound.cancelled_iff (h : x.Sound j told l σs) :
    x.control.cancelled = true ↔ l.cancelled = true ∨ .cancel ∈ σs := by
  have heq := h.ledger.cancelled_eq
  have hmem : 0 < σs.countP Signal.isCancel ↔ .cancel ∈ σs := by
    rw [List.countP_pos_iff]
    constructor
    · rintro ⟨σ, hσ, hcancel⟩
      cases σ with
      | cancel => exact hσ
      | message m => cases hcancel
    · exact fun hσ ↦ ⟨_, hσ, rfl⟩
  have hpos : ∀ b : Bool, b = true ↔ 0 < b.toNat := by decide
  rw [← hmem, hpos, hpos l.cancelled, heq]
  omega

theorem Sound.going_iff (h : x.Sound j told l σs) :
    x.control.cancelled = false ↔ l.cancelled = false ∧ .cancel ∉ σs := by
  rw [← Bool.not_eq_true, h.cancelled_iff, not_or, Bool.not_eq_true]

theorem sound_turn (hp : j.plan.WellFormed) {c : Control} (hinv : c.Invariant j told l (c.under u))
    (h : c.Ledger l σs (c.under u)) : (turn j now c u).Sound j told l σs := by
  obtain ⟨hinv', h'⟩ := hinv.dispatchReady_induct now hp
    (P := fun c ↦ c.Ledger l σs (c.under u))
    (fun c id ready hinv h hready hgo _ ↦ h.dispatch hp hinv hready hgo) c.ready.length h
  exact ⟨hinv'.takeOrders, h'.frame rfl rfl rfl rfl, rfl,
    Control.dispatchReady_settled (Nat.le_refl _)⟩

theorem finish_eq (now : Moment) (hp : j.plan.WellFormed) {c : Control} (h : c.Invariant j told l u)
    (hover : c.isOver = true) : c.finish j now = c.write (.finished now) := by
  have hnone : ∀ (e : StepEvent), c.applyToPending j now e = c := fun e ↦
    Control.foldl_applyIfPending_induct (P := fun c' ↦ c' = c) rfl fun c' i _ hc' hpending ↦ by
      subst hc'
      cases h.terminal_of_isOver hp hover hpending
  rw [Control.finish, hnone]

theorem Sound.finish (hp : j.plan.WellFormed) (h : x.Sound j told l σs)
    (hover : x.control.isOver = true) : (x.finish j now).Sound j told l σs := by
  have hfinish := finish_eq now hp h.invariant hover
  have hinv := h.invariant
  rw [Course.finish, hfinish]
  refine ⟨⟨?_, ?_, ?_⟩, ?_, h.outbox_eq, h.settled⟩
  · exact hinv.steady.write (x := .finished now) trivial (fun _ ↦ .rfl) rfl
  · intro hgo
    exact (hinv.going hgo).frame rfl rfl rfl rfl rfl
  · intro hstop
    have hclosed := hinv.closed hstop
    exact ⟨hclosed.ready_eq, hclosed.waiting_eq, hclosed.starts_eq, hclosed.none_pending⟩
  · exact h.ledger.frame rfl rfl rfl rfl

theorem Sound.hear (hp : j.plan.WellFormed) (h : x.Sound j told l σs) {σ : Signal}
    (hσ : x.CanHear σ) (htold : told.Attested (σ :: σs)) :
    (x.hear j now σ).Sound j told l (σ :: σs) := by
  cases σ with
  | cancel =>
    have hunder : (x.control.cancel j now).under x.outside = x.outside :=
      Control.under_cancel_of_empty h.outbox_eq
    refine sound_turn hp ?_ ?_
    · exact hunder.symm ▸ h.invariant.cancel hp
    · exact hunder.symm ▸ h.ledger.cancel hσ.2
  | message m =>
    refine sound_turn hp ?_ (h.ledger.handle hp h.invariant h.outbox_eq hσ.2)
    refine h.invariant.handle hp h.outbox_eq hσ.2 fun id outcome hm ↦ ?_
    subst hm
    rw [h.ledger.attempts_of_mem h.invariant.steady.nodup_attempts hσ.2]
    exact htold.1

theorem Reached.sound (hp : j.plan.WellFormed) (h : Reached j l σs x) (htold : told.Attested σs) :
    x.Sound j told l σs := by
  induction h with
  | launch now =>
    obtain ⟨hinv, hledger⟩ := Control.start_kept now told l hp
    exact sound_turn hp hinv hledger
  | @hear now σs x σ _ hσ ih =>
    refine (ih ?_).hear hp hσ htold
    cases σ with
    | cancel => exact htold
    | message m =>
      cases m with
      | finished id outcome => exact htold.2
      | retryDue id => exact htold
      | agentDone host outcome => exact htold
  | finish now _ hover _ ih => exact (ih htold).finish hp hover

/-- What does not depend on outcomes holds with nothing told of them. -/
theorem Reached.sound_any (hp : j.plan.WellFormed) (h : Reached j l σs x) :
    x.Sound j (fun _ _ _ ↦ True) l σs :=
  h.sound hp (Outcomes.attested_of_heard fun _ _ _ _ ↦ trivial)

end Course

end Rollout
