import Mathlib.Algebra.Order.BigOperators.Group.List
import Mathlib.Algebra.Order.Ring.Nat
import Rollout.Proofs.Inventory.Accepted
import Rollout.Proofs.Run.Agents

namespace Rollout

section Counts

variable {α : Type} (p : α → Signal → Bool) (xs : List α) (σ : Signal) (σs : List Signal)

theorem sum_countP_cons_le :
    (xs.map fun a ↦ σs.countP (p a)).sum ≤ (xs.map fun a ↦ (σ :: σs).countP (p a)).sum :=
  List.sum_le_sum fun _ _ ↦ (List.sublist_cons_self σ σs).countP_le

theorem sum_countP_cons_lt {a : α} (ha : a ∈ xs) (hp : p a σ = true) :
    (xs.map fun a ↦ σs.countP (p a)).sum < (xs.map fun a ↦ (σ :: σs).countP (p a)).sum := by
  refine List.sum_lt_sum _ _ (fun _ _ ↦ (List.sublist_cons_self σ σs).countP_le) ⟨a, ha, ?_⟩
  rw [List.countP_cons, if_pos hp]
  exact Nat.lt_succ_self _

end Counts

def Signal.Concerns (ids : List Nat) (hosts : List String) : Signal → Prop
  | .message (.finished id _) => id ∈ ids
  | .message (.retryDue id) => id ∈ ids
  | .message (.agentDone host _) => host ∈ hosts
  | .cancel => True

theorem length_le_sum {ids : List Nat} {hosts : List String} {σs : List Signal}
    (h : ∀ σ ∈ σs, σ.Concerns ids hosts) :
    σs.length ≤ (ids.map fun i ↦ σs.countP (Signal.isEnding i)).sum +
      (ids.map fun i ↦ σs.countP (Signal.isDue i)).sum +
      (hosts.map fun g ↦ σs.countP (Signal.isAnswer g)).sum + σs.countP Signal.isCancel := by
  induction σs with
  | nil => exact Nat.zero_le _
  | cons σ σs ih =>
    have hle := ih fun σ' hσ' ↦ h σ' (List.mem_cons_of_mem _ hσ')
    have hσ := h σ List.mem_cons_self
    have hendings := sum_countP_cons_le Signal.isEnding ids σ σs
    have hdues := sum_countP_cons_le Signal.isDue ids σ σs
    have hanswers := sum_countP_cons_le Signal.isAnswer hosts σ σs
    have hcancels := (List.sublist_cons_self σ σs).countP_le (p := Signal.isCancel)
    rw [List.length_cons]
    cases σ with
    | cancel =>
      simp only [List.countP_cons, Signal.isCancel, if_true] at hendings hdues hanswers ⊢
      omega
    | message m =>
      cases m with
      | finished id outcome =>
        have hlt := sum_countP_cons_lt Signal.isEnding ids (.message (.finished id outcome)) σs
          hσ (beq_self_eq_true id)
        omega
      | retryDue id =>
        have hlt := sum_countP_cons_lt Signal.isDue ids (.message (.retryDue id)) σs hσ
          (beq_self_eq_true id)
        omega
      | agentDone host outcome =>
        have hlt := sum_countP_cons_lt Signal.isAnswer hosts (.message (.agentDone host outcome))
          σs hσ (beq_self_eq_true host)
        omega

variable {j : Job} {l : Launch} {σs : List Signal} {x : Course} {told : Outcomes} {r : Report}

theorem Job.Holds.attempts_le (hp : j.plan.WellFormed) (h : j.Holds told r) {s : Step}
    (hs : s ∈ j.plan.steps) : r.attempts s.id ≤ max 1 (j.retry.forKind s.kind).maxAttempts := by
  cases hx : r.steps[s.id]? with
  | none =>
    rw [Report.attempts, hx]
    exact Nat.zero_le _
  | some x =>
    rw [Report.attempts, hx]
    exact (h.accounts s x (hp.step?_of_mem hs) hx).attempts_le

theorem Job.Holds.exists_of_attempts_pos (hp : j.plan.WellFormed) (h : j.Holds told r) {i : Nat}
    (hi : 0 < r.attempts i) : i ∈ j.plan.steps.map Step.id := by
  cases hx : r.steps[i]? with
  | none => simp [Report.attempts, hx] at hi
  | some x =>
    have hlt := (List.getElem?_eq_some_iff.mp hx).1
    rw [h.length_steps] at hlt
    exact List.mem_map.mpr ⟨j.plan.steps[i], List.getElem_mem hlt,
      hp.id_of_step? (List.getElem?_eq_getElem hlt)⟩

theorem Job.accepted_trio (workers : Nat) : (Job.trio workers).inventory.Accepted := by
  have hnew : Inventory.new (Job.trio workers).inventory.hosts ⟨{}, fun _ ↦ some [], []⟩ =
      .ok (Job.trio workers).inventory := rfl
  exact .new hnew

namespace Course

/-- What bounds a run, and what keeps it going. -/
structure Bounded (j : Job) (l : Launch) (σs : List Signal) (x : Course) : Prop where
  attempts_le : ∀ xs, xs <:+ x.control.history → ∀ s ∈ j.plan.steps,
    ((l.report j).after xs).attempts s.id ≤ max 1 (j.retry.forKind s.kind).maxAttempts
  verify_le : ∀ xs, xs <:+ x.control.history → ∀ s ∈ j.plan.steps, s.kind = .verify →
    ((l.report j).after xs).attempts s.id ≤ 1
  attempts_lt : ∀ xs, xs <:+ x.control.history → ∀ s ∈ j.plan.steps,
    (j.retry.forKind s.kind).maxAttempts < 2 ^ 32 →
    ((l.report j).after xs).attempts s.id < 2 ^ 32
  /-- How often each kind of signal is heard. -/
  endings_le : ∀ id, σs.countP (Signal.isEnding id) ≤ x.control.report.attempts id
  dues_le : ∀ id, σs.countP (Signal.isDue id) ≤ x.control.report.attempts id
  answers_le : ∀ host, σs.countP (Signal.isAnswer host) ≤ 1
  cancels_le : l.cancelled.toNat + σs.countP Signal.isCancel ≤ 1
  length_le : σs.length ≤
    2 * (j.plan.steps.map fun s ↦ max 1 (j.retry.forKind s.kind).maxAttempts).sum +
      j.inventory.hosts.length + 1
  /-- A run that is not over has an attempt, a wait for a retry or a start of an agent under way
  that it has not given up. -/
  outstanding : x.control.isOver = false → x.outside.attempts ≠ [] ∨
    (x.control.cancelled = false ∧ x.outside.retries ≠ []) ∨
    ∃ host ∈ x.control.agentStarts, host ∈ x.outside.starts
  complete : x.control.isOver = true →
    (∀ s ∈ j.plan.steps, ∃ state, x.control.report.stepState s.id = some state ∧
      state.isTerminal = true) ∧
    ∀ now, (x.finish j now).control = x.control.write (.finished now)

theorem Sound.endings_le (h : x.Sound j told l σs) (id : Nat) :
    σs.countP (Signal.isEnding id) ≤ x.control.report.attempts id := by
  rw [h.ledger.attempts_eq]
  omega

theorem Sound.dues_le (h : x.Sound j told l σs) (id : Nat) :
    σs.countP (Signal.isDue id) ≤ x.control.report.attempts id := by
  have hle := h.ledger.retries_le id
  have hle' := h.endings_le id
  omega

theorem Sound.concerns (hp : j.plan.WellFormed) (h : x.Sound j told l σs)
    (htended : x.control.Tended j σs x.outside) :
    ∀ σ ∈ σs, σ.Concerns (j.plan.steps.map Step.id) j.inventory.addresses := by
  intro σ hσ
  have hholds := h.invariant.steady.sound.holds hp
  cases σ with
  | cancel => trivial
  | message m =>
    cases m with
    | finished id outcome =>
      have hpos := (List.countP_pos_iff (p := Signal.isEnding id)).mpr
        ⟨_, hσ, beq_self_eq_true id⟩
      exact hholds.exists_of_attempts_pos hp (hpos.trans_le (h.endings_le id))
    | retryDue id =>
      have hpos := (List.countP_pos_iff (p := Signal.isDue id)).mpr
        ⟨_, hσ, beq_self_eq_true id⟩
      exact hholds.exists_of_attempts_pos hp (hpos.trans_le (h.dues_le id))
    | agentDone host outcome =>
      have hpos := (List.countP_pos_iff (p := Signal.isAnswer host)).mpr
        ⟨_, hσ, beq_self_eq_true host⟩
      have hle := htended.starts_le host
      exact List.count_pos_iff.mp (by omega)

theorem Sound.outstanding (hworkers : 1 ≤ j.workers) (h : x.Sound j told l σs)
    (htended : x.control.Tended j σs x.outside) (hover : x.control.isOver = false) :
    x.outside.attempts ≠ [] ∨ (x.control.cancelled = false ∧ x.outside.retries ≠ []) ∨
      ∃ host ∈ x.control.agentStarts, host ∈ x.outside.starts := by
  by_cases hattempts : x.outside.attempts = []
  · refine .inr ?_
    have hinFlight : x.control.inFlight = 0 := by
      rw [h.invariant.steady.inFlight_eq, hattempts, List.length_nil]
    cases hstarts : x.control.agentStarts with
    | cons host hosts =>
      refine .inr ⟨host, List.mem_cons_self, List.count_pos_iff.mp ?_⟩
      have hle := htended.awaited host
      rw [hstarts, List.count_cons_self] at hle
      omega
    | nil =>
      have hnot : ¬ x.control.isOver = true := by simp [hover]
      rw [Control.isOver_iff, hinFlight, hstarts] at hnot
      have hgo : x.control.cancelled = false := by
        by_contra hstop
        have hstop : x.control.cancelled = true := by simpa using hstop
        exact hnot ⟨rfl, (h.invariant.closed hstop).waiting_eq, rfl, .inr hstop⟩
      refine .inl ⟨hgo, fun hretries ↦ hnot ⟨rfl, ?_, rfl, .inl ?_⟩⟩
      · rw [(h.invariant.going hgo).waiting_eq, hretries, List.length_nil]
      · exact (h.settled hgo).resolve_right (by omega)
  · exact .inl hattempts

theorem Sound.cancels_le (h : x.Sound j told l σs) :
    l.cancelled.toNat + σs.countP Signal.isCancel ≤ 1 := by
  rw [← h.ledger.cancelled_eq]
  exact Bool.toNat_le _

theorem answers_le (htended : x.control.Tended j σs x.outside)
    (hinventory : j.inventory.Accepted) (host : String) :
    σs.countP (Signal.isAnswer host) ≤ 1 := by
  have hle := htended.starts_le host
  have hone := List.nodup_iff_count_le_one.mp hinventory.nodup_addresses host
  omega

theorem Sound.length_le (hp : j.plan.WellFormed) (h : x.Sound j told l σs)
    (htended : x.control.Tended j σs x.outside) (hinventory : j.inventory.Accepted) :
    σs.length ≤ 2 * (j.plan.steps.map fun s ↦ max 1 (j.retry.forKind s.kind).maxAttempts).sum +
      j.inventory.hosts.length + 1 := by
  have hholds := h.invariant.steady.sound.holds hp
  have hle := length_le_sum (h.concerns hp htended)
  have hendings : ((j.plan.steps.map Step.id).map fun i ↦ σs.countP (Signal.isEnding i)).sum ≤
      (j.plan.steps.map fun s ↦ max 1 (j.retry.forKind s.kind).maxAttempts).sum := by
    rw [List.map_map]
    exact List.sum_le_sum fun s hs ↦ (h.endings_le s.id).trans (hholds.attempts_le hp hs)
  have hdues : ((j.plan.steps.map Step.id).map fun i ↦ σs.countP (Signal.isDue i)).sum ≤
      (j.plan.steps.map fun s ↦ max 1 (j.retry.forKind s.kind).maxAttempts).sum := by
    rw [List.map_map]
    exact List.sum_le_sum fun s hs ↦ (h.dues_le s.id).trans (hholds.attempts_le hp hs)
  have hanswers : (j.inventory.addresses.map fun g ↦ σs.countP (Signal.isAnswer g)).sum ≤
      j.inventory.hosts.length := by
    have hcard := List.sum_le_card_nsmul
      (j.inventory.addresses.map fun g ↦ σs.countP (Signal.isAnswer g)) 1 (fun n hn ↦ by
        obtain ⟨g, -, rfl⟩ := List.mem_map.mp hn
        exact answers_le htended hinventory g)
    simpa [Inventory.addresses] using hcard
  have hcancels := h.cancels_le
  omega

/-- Every run ends after so many signals, and none waits for nothing. -/
theorem Reached.bounded {steps : List Step} (hplan : Plan.ofSteps steps = .ok j.plan)
    (hinventory : j.inventory.Accepted) (hworkers : 1 ≤ j.workers) (h : Reached j l σs x) :
    x.Bounded j l σs := by
  have hp := Plan.wellFormed_of_ofSteps hplan
  have hsound := h.sound_any hp
  have htended := h.tended hp
  have hattempts : ∀ xs, xs <:+ x.control.history → ∀ s ∈ j.plan.steps,
      ((l.report j).after xs).attempts s.id ≤ max 1 (j.retry.forKind s.kind).maxAttempts :=
    fun xs hxs s hs ↦ ((Job.Holds.start j _ l.runId l.createdAt).after hp
      (hsound.invariant.steady.sound.chronicle.of_suffix hxs)).attempts_le hp hs
  refine ⟨hattempts, ?_, ?_, hsound.endings_le, hsound.dues_le, answers_le htended hinventory,
    hsound.cancels_le, hsound.length_le hp htended hinventory, hsound.outstanding hworkers htended,
    fun hover ↦ ⟨?_, fun now ↦ finish_eq now hp hsound.invariant hover⟩⟩
  · intro xs hxs s hs hkind
    have hle := hattempts xs hxs s hs
    rw [hkind] at hle
    exact hle
  · intro xs hxs s hs hlt
    have hle := hattempts xs hxs s hs
    omega
  · intro s hs
    obtain ⟨state, hstate⟩ := hsound.invariant.steady.stepState_of_mem hp hs
    exact ⟨state, hstate, hsound.invariant.terminal_of_isOver hp hover hstate⟩

theorem bounded_trio :
    let heard : List Signal := [.cancel, .message (.finished 1 (.ok true))]
    (play (.trio 2) ⟨"run", .origin, false⟩ .origin heard).Bounded (.trio 2)
      ⟨"run", .origin, false⟩ heard :=
  Reached.bounded (Job.ofSteps_trio 2) (Job.accepted_trio 2) (by decide)
    (.hear _ (.hear _ (.launch _) (by decide)) (by decide))

end Course

end Rollout
