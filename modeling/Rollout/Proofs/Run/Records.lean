import Rollout.Proofs.Run.Orderly
import Rollout.Run.Attempt

namespace Rollout

namespace StepRecord

/-- What the fields of a record say together. -/
structure Coherent (x : StepRecord) : Prop where
  startedAt : x.startedAt.isSome ↔ 0 < x.attempts
  finishedAt : x.finishedAt.isSome ↔ x.state.isTerminal = true
  skippedBecause : x.skippedBecause.isSome ↔ x.state = .skipped
  failed : x.state = .failed → 0 < x.attempts ∧ x.error.isSome
  succeeded : x.state = .succeeded → 0 < x.attempts ∧ x.error = none
  inProgress : x.state = .inProgress → 0 < x.attempts
  satisfied : x.alreadySatisfied = true → x.state = .succeeded
  pending : x.state = .pending → (x.error.isSome ↔ 0 < x.attempts)

theorem coherent_ofStep (s : Step) : (ofStep s).Coherent := by
  constructor <;> simp [ofStep]

theorem Coherent.apply {x : StepRecord} (h : x.Coherent) (now : Moment) {e : StepEvent}
    (he : x.state.Allows e) : (x.apply now e).1.Coherent := by
  have hfresh : x.state ≠ .succeeded → x.alreadySatisfied = false := fun hne ↦
    Bool.eq_false_iff.mpr fun htrue ↦ hne (h.satisfied htrue)
  have hnotSkipped : x.state ≠ .skipped → x.skippedBecause = none := fun hne ↦
    Option.not_isSome_iff_eq_none.mp fun hsome ↦ hne (h.skippedBecause.mp hsome)
  have hnotEnded : x.state.isTerminal ≠ true → x.finishedAt = none := fun hgoing ↦
    Option.not_isSome_iff_eq_none.mp fun hsome ↦ hgoing (h.finishedAt.mp hsome)
  generalize hx : x.state = state at he
  rw [hx] at hfresh hnotSkipped hnotEnded
  cases he with
  | dispatched =>
    rw [apply_dispatched now hx]
    constructor <;> simp [hfresh, hnotSkipped, hnotEnded]
  | completed b =>
    have hpos := h.inProgress hx
    rw [apply_completed now hx]
    constructor <;> simp [hnotSkipped, h.startedAt, hpos]
  | failed t retryAfter =>
    have hpos := h.inProgress hx
    cases retryAfter with
    | none =>
      rw [apply_failed now hx]
      constructor <;> simp [hfresh, hnotSkipped, h.startedAt, hpos]
    | some delay =>
      rw [apply_retried now hx]
      constructor <;> simp [hfresh, hnotSkipped, hnotEnded, h.startedAt, hpos]
  | dependencyFailed cause =>
    rw [apply_dependencyFailed now hx]
    constructor <;> simp [hfresh, h.startedAt]
  | cancelled =>
    rw [apply_cancelled now hx]
    constructor <;> simp [hfresh, h.startedAt]

theorem attempts_le_apply (x : StepRecord) (now : Moment) (e : StepEvent) :
    x.attempts ≤ (x.apply now e).1.attempts := by
  by_cases he : e = .dispatched
  · subst he
    cases hx : x.state with
    | pending =>
      rw [apply_dispatched now hx]
      exact Nat.le_succ _
    | _ => simp [apply, hx, Status.next, note]
  · exact (attempts_apply he).ge

end StepRecord

/-- A call of an attempt, and what has come of it. -/
structure Exchange where
  call : Call
  reply : Reply

namespace Step

/-- Through these exchanges an attempt at this point comes to an outcome. -/
inductive ComesTo (s : Step) (timeout : Span) :
    Move AttemptStage (Result Bool) → List Exchange → Result Bool → Prop
  | done (outcome : Result Bool) : ComesTo s timeout (.done outcome) [] outcome
  | call (c : Call) (within : Option Span) {stage : AttemptStage} {r : Reply}
      {later : List Exchange} {outcome : Result Bool} :
      ComesTo s timeout (s.continueAttempt timeout stage (.reply r)) later outcome →
      ComesTo s timeout (.call c within stage) (⟨c, r⟩ :: later) outcome

def Attempted (s : Step) (timeout : Span) (log : List Exchange) (outcome : Result Bool) : Prop :=
  s.ComesTo timeout (s.beginAttempt timeout) log outcome

def checkCall (s : Step) (timeout : Span) (command : String) : Call :=
  ⟨s.host, .run command timeout⟩

/-- The check of a step was carried out, and nothing else had to be done. -/
def CheckSufficed (s : Step) (timeout : Span) (log : List Exchange) : Prop :=
  ∃ command out, s.check = some command ∧ log = [⟨s.checkCall timeout command, .ok out⟩]

variable {s : Step} {timeout : Span} {log : List Exchange} {outcome : Result Bool}

theorem ComesTo.action (h : s.ComesTo timeout (s.beginAction timeout) log outcome) :
    ∃ r, log = [⟨(s.actionCall timeout).1, r⟩] ∧ outcome = r.map fun _ ↦ false := by
  cases h with
  | @call c within stage r later outcome hrest =>
    cases r with
    | ok out =>
      cases hrest
      exact ⟨.ok out, rfl, rfl⟩
    | error e =>
      cases hrest
      exact ⟨.error e, rfl, rfl⟩

/-- An attempt finds its step satisfied if and only if its check suffices. -/
theorem Attempted.checkSufficed_iff {b : Bool} (h : s.Attempted timeout log (.ok b)) :
    s.CheckSufficed timeout log ↔ b = true := by
  unfold Attempted beginAttempt at h
  cases hcheck : s.check with
  | none =>
    rw [hcheck] at h
    obtain ⟨r, rfl, hb⟩ := h.action
    have hfalse : b = false := by cases r <;> cases hb; rfl
    simp [CheckSufficed, hcheck, hfalse]
  | some command =>
    rw [hcheck] at h
    cases h with
    | @call c within stage r later outcome hrest =>
      cases r with
      | ok out =>
        cases hrest
        exact iff_of_true ⟨command, out, hcheck, rfl⟩ rfl
      | error e =>
        simp only [continueAttempt] at hrest
        split at hrest
        · -- The check has found something to do.
          obtain ⟨r, rfl, hb⟩ := hrest.action
          have hfalse : b = false := by cases r <;> cases hb; rfl
          simp [CheckSufficed, hfalse]
        · cases hrest

end Step

/-- Attempt number `k` of step `i` makes the exchanges `log i k`. -/
def Outcomes.made (j : Job) (log : Nat → Nat → List Exchange) : Outcomes := fun i k outcome ↦
  ∃ s, j.plan.step? i = some s ∧ s.Attempted (j.timeoutOf s) (log i k) outcome

variable {j : Job} {told : Outcomes} {l : Launch} {σs : List Signal} {r : Report}
  {log : Nat → Nat → List Exchange}

namespace Report

theorem attempts_le_change (r : Report) (z : Change) (i : Nat) :
    r.attempts i ≤ (r.change z).attempts i := by
  cases z with
  | event now id e =>
    simp only [attempts, change_event, getElem?_steps_apply]
    split
    · cases r.steps[i]? with
      | none => exact Nat.le_refl _
      | some x => exact x.attempts_le_apply now e
    · exact Nat.le_refl _
  | agent | cancelled | finished => exact Nat.le_refl _

theorem attempts_le_after (r : Report) {xs ys : List Change} (h : ys <:+ xs) (i : Nat) :
    (r.after ys).attempts i ≤ (r.after xs).attempts i := by
  obtain ⟨zs, rfl⟩ := h
  induction zs with
  | nil => exact Nat.le_refl _
  | cons z zs ih => exact ih.trans (attempts_le_change _ z i)

def Coherent (r : Report) : Prop := ∀ y ∈ r.steps, y.Coherent

theorem coherent_start (runId : String) (now : Moment) (plan : Plan) (inventory : Inventory) :
    (start runId now plan inventory).Coherent := by
  intro y hy
  obtain ⟨s, -, rfl⟩ := List.mem_map.mp hy
  exact StepRecord.coherent_ofStep s

theorem Coherent.change (hp : j.plan.WellFormed) (h : r.Coherent) {z : Change}
    (hz : j.Proper told r z) : (r.change z).Coherent := by
  cases z with
  | agent | cancelled | finished => exact h
  | event now id e =>
    obtain ⟨s, hs, hfits⟩ := hz
    obtain rfl := hp.id_of_step? hs
    obtain ⟨state, hstate, hallows⟩ := hfits.allows
    intro y hy
    obtain ⟨i, hi⟩ := List.mem_iff_getElem?.mp hy
    rw [change_event, getElem?_steps_apply] at hi
    split at hi
    · rename_i heq
      subst heq
      obtain ⟨x, hx, rfl⟩ := Option.map_eq_some_iff.mp hi
      obtain rfl : x.state = state := by simpa [stepState, hx] using hstate
      exact (h x (List.mem_of_getElem? hx)).apply now hallows
    · exact h y (List.mem_of_getElem? hi)

end Report

namespace Course

/-- What the records of the steps say in every snapshot of a run. A snapshot is the report after some
part of the history. -/
structure WellRecorded (j : Job) (l : Launch) (log : Nat → Nat → List Exchange) (x : Course) :
    Prop where
  report_eq : x.control.report = (l.report j).after x.control.history
  coherent : ∀ xs, xs <:+ x.control.history → ((l.report j).after xs).Coherent
  /-- A step is said to have been satisfied already exactly if its check sufficed in its last
  attempt. -/
  satisfied : ∀ xs, xs <:+ x.control.history → ∀ s ∈ j.plan.steps, ∀ y,
    ((l.report j).after xs).steps[s.id]? = some y →
    (y.alreadySatisfied = true ↔
      y.state = .succeeded ∧ s.CheckSufficed (j.timeoutOf s) (log s.id y.attempts))
  attempts : ∀ xs, xs <:+ x.control.history → ∀ ys, ys <:+ xs → ∀ i,
    ((l.report j).after ys).attempts i ≤ ((l.report j).after xs).attempts i

/-- Every run of an accepted plan is well recorded, whatever its attempts come to. -/
theorem Reached.wellRecorded {steps : List Step} {x : Course}
    (hplan : Plan.ofSteps steps = .ok j.plan) (h : Reached j l σs x)
    (hmade : (Outcomes.made j log).Attested σs) : x.WellRecorded j l log := by
  have hp := Plan.wellFormed_of_ofSteps hplan
  have hsound := (h.sound hp hmade).invariant.steady.sound
  refine ⟨hsound.report_eq, fun xs hxs ↦ ?_, fun xs hxs s hs y hy ↦ ?_, fun xs _ ys hys i ↦
    (l.report j).attempts_le_after hys i⟩
  · exact (hsound.chronicle.of_suffix hxs).induction List.nil_suffix
      (Report.coherent_start _ _ _ _) fun _ _ hr hz ↦ hr.change hp hz
  · have hholds : j.Holds (Outcomes.made j log) ((l.report j).after xs) :=
      (Job.Holds.start j _ l.runId l.createdAt).after hp (hsound.chronicle.of_suffix hxs)
    have haccounts := hholds.accounts s y (hp.step?_of_mem hs) hy
    by_cases hsucceeded : y.state = .succeeded
    · obtain ⟨⟨s', hs', hattempted⟩, -⟩ := haccounts.succeeded hsucceeded
      obtain rfl := Option.some.inj ((hp.step?_of_mem hs).symm.trans hs')
      rw [hattempted.checkSufficed_iff, and_iff_right hsucceeded]
    · rw [haccounts.unsatisfied hsucceeded]
      exact iff_of_false Bool.false_ne_true fun hand ↦ hsucceeded hand.1

def checked : Job where
  plan :=
    { steps :=
        [{ id := 0, host := "a", role := .metadata, name := "format", kind := .command
           action := .run "format", check := some "blkid" },
         { id := 1, host := "b", role := .client, name := "install", kind := .command
           action := .run "install" }]
      successorTable := [[], []]
      order := [0, 1] }
  inventory := ⟨[{ address := "a", roles := [.metadata] }, { address := "b", roles := [.client] }]⟩
  workers := 2
  commandTimeout := .ofSeconds 60
  retry := {}
  agents := false

/-- Both hosts cannot be reached at first. When the check of the first step is repeated, it
suffices. -/
def checkedLog (i k : Nat) : List Exchange :=
  if i = 1 then [⟨⟨"b", .run "install" (.ofSeconds 60)⟩, .error (.connect "b" "refused")⟩]
  else if k = 1 then [⟨⟨"a", .run "blkid" (.ofSeconds 60)⟩, .error (.connect "a" "refused")⟩]
  else [⟨⟨"a", .run "blkid" (.ofSeconds 60)⟩, .ok {}⟩]

def checkedSignals : List Signal :=
  [.message (.finished 0 (.ok true)), .cancel, .message (.retryDue 0),
    .message (.finished 1 (.error (.connect "b" "refused"))),
    .message (.finished 0 (.error (.connect "a" "refused")))]

theorem wellRecorded_checked :
    Plan.ofSteps checked.plan.steps = .ok checked.plan ∧
    (Outcomes.made checked checkedLog).Attested checkedSignals ∧
    let x := play checked ⟨"run", .origin, false⟩ .origin checkedSignals
    x.control.report.steps.map StepRecord.alreadySatisfied = [true, false] ∧
    x.WellRecorded checked ⟨"run", .origin, false⟩ checkedLog :=
  have hplan : Plan.ofSteps checked.plan.steps = .ok checked.plan := rfl
  have hmade : (Outcomes.made checked checkedLog).Attested checkedSignals :=
    ⟨⟨_, rfl, .call _ _ (.done _)⟩, ⟨_, rfl, .call _ _ (.done _)⟩, ⟨_, rfl, .call _ _ (.done _)⟩,
      trivial⟩
  ⟨hplan, hmade, by decide, Reached.wellRecorded hplan
    (.hear _ (.hear _ (.hear _ (.hear _ (.hear _ (.launch _) (by decide)) (by decide)) (by decide))
      (by decide)) (by decide)) hmade⟩

end Course

end Rollout
