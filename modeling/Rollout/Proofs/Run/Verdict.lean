import Mathlib.Order.Bounds.Basic
import Rollout.Proofs.Run.Reached

namespace Rollout

def Outcomes.given (o : Nat → Nat → Result Bool) : Outcomes := fun i k outcome ↦ outcome = o i k

/-- A step is not tried again after attempt number `k` ended so. -/
def Job.Settles (j : Job) (s : Step) (k : Nat) : Result Bool → Prop
  | .ok _ => True
  | .error fault => j.delayAfter s k fault = none

/-- What the record of a step says in a final report, if attempt number `k` of step `i` ends with
`o i k`. -/
structure Job.Verdict (j : Job) (o : Nat → Nat → Result Bool) (r : Report) (s : Step)
    (y : StepRecord) : Prop where
  /-- A step with a predecessor that has not succeeded is skipped, and was never tried. -/
  skipped : (∃ a ∈ s.predecessors, r.stepState a ≠ some .succeeded) →
    y.state = .skipped ∧ y.attempts = 0 ∧ y.error = none ∧ y.alreadySatisfied = false
  settled : (∀ a ∈ s.predecessors, r.stepState a = some .succeeded) →
    IsLeast {k | 1 ≤ k ∧ j.Settles s k (o s.id k)} y.attempts
  succeeded : (∀ a ∈ s.predecessors, r.stepState a = some .succeeded) →
    ∀ b, o s.id y.attempts = .ok b →
    y.state = .succeeded ∧ y.alreadySatisfied = b ∧ y.error = none
  failed : (∀ a ∈ s.predecessors, r.stepState a = some .succeeded) →
    ∀ fault, o s.id y.attempts = .error fault →
    y.state = .failed ∧ y.error = some fault.message ∧ y.alreadySatisfied = false

namespace StepRecord

/-- What a record says apart from times and from what a step was skipped for. -/
def verdict (y : StepRecord) : StepRecord :=
  { y with skippedBecause := none, startedAt := none, finishedAt := none }

theorem verdict_eq {y y' : StepRecord} {s : Step} (hy : y.Describes s) (hy' : y'.Describes s)
    (hstate : y.state = y'.state) (hattempts : y.attempts = y'.attempts)
    (herror : y.error = y'.error) (hsatisfied : y.alreadySatisfied = y'.alreadySatisfied) :
    y.verdict = y'.verdict := by
  obtain ⟨h₁, h₂, h₃, h₄, h₅⟩ := hy
  obtain ⟨h₁', h₂', h₃', h₄', h₅'⟩ := hy'
  unfold verdict
  rw [h₁, h₂, h₃, h₄, h₅, h₁', h₂', h₃', h₄', h₅', hstate, hattempts, herror, hsatisfied]

end StepRecord

namespace HostRecord

def verdict (h : HostRecord) : HostRecord :=
  { h with skippedBecause := none, agentHealth := none, monitoringDegraded := false }

def ofSteps (address : String) (roles : List Role) (xs : List StepRecord) : HostRecord where
  address := address
  roles := roles
  state := stateOf xs
  failedStep := (xs.find? fun x ↦ x.state == .failed).map StepRecord.name
  lastError := (xs.find? fun x ↦ x.state == .failed).bind StepRecord.error

theorem Agrees.verdict_eq {h : HostRecord} {xs : List StepRecord} (hagree : h.Agrees xs) :
    h.verdict = ofSteps h.address h.roles xs := by
  obtain ⟨h₁, h₂, h₃⟩ := hagree
  unfold verdict ofSteps
  rw [h₁, h₂, h₃]

theorem ofSteps_verdict (address : String) (roles : List Role) (xs : List StepRecord) :
    ofSteps address roles (xs.map StepRecord.verdict) = ofSteps address roles xs := by
  have hstate : stateOf (xs.map StepRecord.verdict) = stateOf xs := by
    simp only [stateOf, List.any_map, List.all_map]
    rfl
  have hfind : (xs.map StepRecord.verdict).find? (fun x ↦ x.state == .failed) =
      (xs.find? fun x ↦ x.state == .failed).map StepRecord.verdict := List.find?_map ..
  unfold ofSteps
  rw [hstate, hfind, Option.map_map, Option.bind_map]
  rfl

end HostRecord

namespace Report

theorem stepsOfHost_verdict (r : Report) (address : String) :
    (r.stepsOfHost address).map StepRecord.verdict =
      (r.steps.map StepRecord.verdict).filter fun x ↦ x.host == address := by
  rw [List.filter_map]
  rfl

end Report

/-- What a final report says, apart from times, agents and what was skipped for what. -/
structure Job.Verdicts (j : Job) (o : Nat → Nat → Result Bool) (r : Report) : Prop where
  length_steps : r.steps.length = j.plan.steps.length
  steps : ∀ s ∈ j.plan.steps, ∃ y, r.steps[s.id]? = some y ∧ y.Describes s ∧ j.Verdict o r s y
  hosts : r.hosts.map HostRecord.verdict =
    j.inventory.hosts.map fun h ↦ .ofSteps h.address h.roles (r.stepsOfHost h.address)

section Verdict

variable {j j' : Job} {o : Nat → Nat → Result Bool} {r r' : Report} {s : Step} {y y' : StepRecord}

theorem Job.Verdict.unique (h : j.Verdict o r s y) (h' : j'.Verdict o r' s y')
    (hretry : j'.retry = j.retry)
    (hpre : ∀ a ∈ s.predecessors, r'.stepState a = r.stepState a) :
    y'.state = y.state ∧ y'.attempts = y.attempts ∧ y'.error = y.error ∧
      y'.alreadySatisfied = y.alreadySatisfied := by
  have hsettles : ∀ k outcome, j'.Settles s k outcome ↔ j.Settles s k outcome := by
    intro k outcome
    cases outcome with
    | ok b => exact .rfl
    | error fault => simp only [Job.Settles, Job.delayAfter, hretry]
  by_cases hall : ∀ a ∈ s.predecessors, r.stepState a = some .succeeded
  · have hall' : ∀ a ∈ s.predecessors, r'.stepState a = some .succeeded := fun a ha ↦
      (hpre a ha).trans (hall a ha)
    have hleast := h.settled hall
    have hleast' := h'.settled hall'
    simp only [hsettles] at hleast'
    have hattempts : y'.attempts = y.attempts := hleast'.unique hleast
    cases houtcome : o s.id y.attempts with
    | ok b =>
      obtain ⟨h₁, h₂, h₃⟩ := h.succeeded hall b houtcome
      obtain ⟨h₁', h₂', h₃'⟩ := h'.succeeded hall' b (hattempts ▸ houtcome)
      exact ⟨h₁'.trans h₁.symm, hattempts, h₃'.trans h₃.symm, h₂'.trans h₂.symm⟩
    | error fault =>
      obtain ⟨h₁, h₂, h₃⟩ := h.failed hall fault houtcome
      obtain ⟨h₁', h₂', h₃'⟩ := h'.failed hall' fault (hattempts ▸ houtcome)
      exact ⟨h₁'.trans h₁.symm, hattempts, h₂'.trans h₂.symm, h₃'.trans h₃.symm⟩
  · obtain ⟨a, ha, hne⟩ : ∃ a ∈ s.predecessors, r.stepState a ≠ some .succeeded := by
      simpa using hall
    obtain ⟨h₁, h₂, h₃, h₄⟩ := h.skipped ⟨a, ha, hne⟩
    obtain ⟨h₁', h₂', h₃', h₄'⟩ := h'.skipped ⟨a, ha, by rwa [hpre a ha]⟩
    exact ⟨h₁'.trans h₁.symm, h₂'.trans h₂.symm, h₃'.trans h₃.symm, h₄'.trans h₄.symm⟩

theorem Job.Verdict.of_accounts
    (h : j.Accounts (Outcomes.given o) false s y) (hend : y.state.isTerminal = true)
    (hskipped : (∃ a ∈ s.predecessors, r.stepState a ≠ some .succeeded) →
      y.state = .skipped ∧ y.attempts = 0)
    (hbegun : (∀ a ∈ s.predecessors, r.stepState a = some .succeeded) → y.state ≠ .skipped) :
    j.Verdict o r s y := by
  have hended : (∀ a ∈ s.predecessors, r.stepState a = some .succeeded) →
      y.state = .succeeded ∨ y.state = .failed := by
    intro hall
    have hnot := hbegun hall
    rw [Status.isTerminal_iff] at hend
    tauto
  refine ⟨?_, fun hall ↦ ⟨⟨?_, ?_⟩, ?_⟩, ?_, ?_⟩
  · intro hne
    obtain ⟨hstate, hattempts⟩ := hskipped hne
    exact ⟨hstate, hattempts, h.untried hattempts, h.unsatisfied (by simp [hstate])⟩
  · exact h.begun (by rcases hended hall with hstate | hstate <;> simp [hstate])
  · rcases hended hall with hstate | hstate
    · rw [← (h.succeeded hstate).1]
      trivial
    · obtain ⟨fault, htold, -, hlast⟩ := h.failed hstate
      rw [← htold]
      exact hlast.resolve_left (by simp)
  · intro k hk
    obtain ⟨hpos, hsettles⟩ := hk
    by_contra hlt
    -- an earlier attempt was followed by another one, so it settled nothing
    obtain ⟨fault, delay, htold, hdelay⟩ := h.retried k hpos
      (by cases y.state.isBegun <;> simp only [Bool.toNat_true, Bool.toNat_false] <;> omega)
    rw [← htold] at hsettles
    rw [Job.Settles, hdelay] at hsettles
    cases hsettles
  · intro hall b hb
    rcases hended hall with hstate | hstate
    · obtain ⟨htold, herror⟩ := h.succeeded hstate
      cases htold.trans hb
      exact ⟨hstate, rfl, herror⟩
    · obtain ⟨fault, htold, -⟩ := h.failed hstate
      cases htold.trans hb
  · intro hall fault hfault
    rcases hended hall with hstate | hstate
    · obtain ⟨htold, -⟩ := h.succeeded hstate
      cases htold.trans hfault
    · obtain ⟨fault', htold, herror, -⟩ := h.failed hstate
      cases htold.trans hfault
      exact ⟨hstate, herror, h.unsatisfied (by simp [hstate])⟩

/-- The verdicts follow from the outcomes, by the steps' order in the plan. -/
theorem Job.Verdicts.steps_eq (hp : j.plan.WellFormed) (h : j.Verdicts o r)
    (h' : j'.Verdicts o r') (hplan : j'.plan = j.plan) (hretry : j'.retry = j.retry) :
    r'.steps.map StepRecord.verdict = r.steps.map StepRecord.verdict := by
  refine List.ext_getElem? fun i ↦ ?_
  rw [List.getElem?_map, List.getElem?_map]
  induction i using hp.acyclic.induction with
  | _ i ih =>
    cases hs : j.plan.step? i with
    | none =>
      have hle : j.plan.steps.length ≤ i := List.getElem?_eq_none_iff.mp hs
      have hnone : r.steps[i]? = none := List.getElem?_eq_none_iff.mpr (h.length_steps.le.trans hle)
      have hnone' : r'.steps[i]? = none :=
        List.getElem?_eq_none_iff.mpr (h'.length_steps.le.trans (hplan ▸ hle))
      rw [hnone, hnone']
    | some s =>
      obtain rfl := hp.id_of_step? hs
      have hmem := List.mem_of_getElem? hs
      obtain ⟨y, hy, hdescribes, hverdict⟩ := h.steps s hmem
      obtain ⟨y', hy', hdescribes', hverdict'⟩ := h'.steps s (hplan ▸ hmem)
      obtain ⟨hstate, hattempts, herror, hsatisfied⟩ := hverdict.unique hverdict' hretry
        fun a ha ↦ by
          have heq := congrArg (Option.map StepRecord.state) (ih a ((hp.precedes_iff hmem).mpr ha))
          rw [Option.map_map, Option.map_map] at heq
          exact heq
      rw [hy, hy', Option.map_some, Option.map_some,
        StepRecord.verdict_eq hdescribes' hdescribes hstate hattempts herror hsatisfied]

theorem Job.Verdicts.hosts_eq (h : j.Verdicts o r) (h' : j'.Verdicts o r')
    (hinventory : j'.inventory = j.inventory)
    (hsteps : r'.steps.map StepRecord.verdict = r.steps.map StepRecord.verdict) :
    r'.hosts.map HostRecord.verdict = r.hosts.map HostRecord.verdict := by
  rw [h.hosts, h'.hosts, hinventory]
  refine List.map_congr_left fun host _ ↦ ?_
  rw [← HostRecord.ofSteps_verdict, Report.stepsOfHost_verdict, hsteps,
    ← Report.stepsOfHost_verdict, HostRecord.ofSteps_verdict]

end Verdict

namespace Course

variable {j j' : Job} {l l' : Launch} {o : Nat → Nat → Result Bool} {σs σs' : List Signal}
  {x x' : Course}

theorem Sound.verdict (hp : j.plan.WellFormed) (h : x.Sound j (Outcomes.given o) l σs)
    (hgo : x.control.cancelled = false) (hover : x.control.isOver = true) {s : Step}
    (hs : s ∈ j.plan.steps) :
    ∃ y, x.control.report.steps[s.id]? = some y ∧ y.Describes s ∧
      j.Verdict o x.control.report s y := by
  have hsteady := h.invariant.steady
  have hholds := hsteady.sound.holds hp
  have hnot : x.control.report.cancelled = false := hsteady.cancelled_eq.trans hgo
  obtain ⟨state, hstate⟩ := hsteady.stepState_of_mem hp hs
  obtain ⟨y, hy, rfl⟩ := Option.map_eq_some_iff.mp hstate
  have haccounts := hholds.accounts s y (hp.step?_of_mem hs) hy
  rw [hnot] at haccounts
  refine ⟨y, hy, haccounts.describes,
    .of_accounts haccounts (h.invariant.terminal_of_isOver hp hover hstate) ?_ ?_⟩
  · rintro ⟨a, ha, hne⟩
    have hprecedes := (hp.precedes_iff hs).mpr ha
    obtain ⟨t, ht, rfl⟩ := hp.exists_of_precedes hprecedes
    obtain ⟨state', hstate'⟩ := hsteady.stepState_of_mem hp ht
    have hlost := Report.isLost_of_terminal hstate'
      (h.invariant.terminal_of_isOver hp hover hstate') hne
    have hskipped := (h.invariant.going hgo).contagion t.id s.id hprecedes hlost
    refine ⟨by simpa [hstate] using hskipped, ?_⟩
    by_contra hpos
    exact hne (hholds.founded t.id s.id hprecedes y hy (.inr (Nat.pos_of_ne_zero hpos)))
  · intro hall hskipped
    refine hholds.not_skipped hnot (fun a ha ↦ hall a ((hp.precedes_iff hs).mp ha)) ?_
    rw [hstate, hskipped]

theorem Sound.verdicts (hp : j.plan.WellFormed) (h : x.Sound j (Outcomes.given o) l σs)
    (hgo : x.control.cancelled = false) (hover : x.control.isOver = true) :
    j.Verdicts o x.control.report where
  length_steps := (h.invariant.steady.sound.holds hp).length_steps
  steps _ hs := h.verdict hp hgo hover hs
  hosts := by
    have hsound := h.invariant.steady.sound
    have hhosts := Report.hosts_after (l.report j) x.control.history
    have hstart : (l.report j).hosts.map (fun h ↦ (h.address, h.roles)) =
        j.inventory.hosts.map fun h ↦ (h.address, h.roles) := by
      simp [Launch.report, Report.start, Report.hostRecord]
    rw [← hsound.report_eq, hstart] at hhosts
    calc x.control.report.hosts.map HostRecord.verdict
        = (x.control.report.hosts.map fun h ↦ (h.address, h.roles)).map fun h ↦
            .ofSteps h.1 h.2 (x.control.report.stepsOfHost h.1) := by
          rw [List.map_map]
          exact List.map_congr_left fun g hg ↦ (hsound.inLine hp g hg).verdict_eq
      _ = j.inventory.hosts.map fun h ↦
            .ofSteps h.address h.roles (x.control.report.stepsOfHost h.address) := by
          rw [hhosts, List.map_map]
          rfl

/-- A run that is over without having been cancelled, and in which attempt number `k` of step `i`
ended with `o i k`. -/
structure Completed (j : Job) (l : Launch) (o : Nat → Nat → Result Bool) (σs : List Signal)
    (x : Course) : Prop where
  reached : Reached j l σs x
  isOver : x.control.isOver = true
  not_launched_cancelled : l.cancelled = false
  not_cancelled : .cancel ∉ σs
  attested : Outcomes.Attested (Outcomes.given o) σs

theorem Completed.cancelled_eq (hp : j.plan.WellFormed) (h : Completed j l o σs x) :
    x.control.cancelled = false :=
  (h.reached.sound hp h.attested).going_iff.mpr ⟨h.not_launched_cancelled, h.not_cancelled⟩

theorem Completed.verdicts (hp : j.plan.WellFormed) (h : Completed j l o σs x) (now : Moment) :
    j.Verdicts o (x.finish j now).control.report := by
  have hsound := h.reached.sound hp h.attested
  have hfinish : (x.finish j now).control = x.control.write (.finished now) :=
    finish_eq now hp hsound.invariant h.isOver
  refine (hsound.finish hp h.isOver).verdicts hp ?_ ?_
  · rw [hfinish]
    exact h.cancelled_eq hp
  · rw [hfinish]
    exact h.isOver

/-- What the report of a run that was not cancelled says in the end follows from the outcomes of the
attempts, whatever their order and the number of workers. -/
theorem Completed.confluent {steps : List Step} (hplan : Plan.ofSteps steps = .ok j.plan)
    (h : Completed j l o σs x) (now : Moment) :
    j.Verdicts o (x.finish j now).control.report ∧
    ∀ j' l' σs' x' now', j'.plan = j.plan → j'.inventory = j.inventory → j'.retry = j.retry →
      Completed j' l' o σs' x' →
      (x'.finish j' now').control.report.steps.map StepRecord.verdict =
          (x.finish j now).control.report.steps.map StepRecord.verdict ∧
        (x'.finish j' now').control.report.hosts.map HostRecord.verdict =
          (x.finish j now).control.report.hosts.map HostRecord.verdict := by
  have hp := Plan.wellFormed_of_ofSteps hplan
  have hverdicts := h.verdicts hp now
  refine ⟨hverdicts, fun j' l' σs' x' now' hplan' hinventory hretry h' ↦ ?_⟩
  have hverdicts' := h'.verdicts (hplan' ▸ hp) now'
  have hsteps := hverdicts.steps_eq hp hverdicts' hplan' hretry
  exact ⟨hsteps, hverdicts.hosts_eq hverdicts' hinventory hsteps⟩

/-- The first step of the trio succeeds at its second attempt, the second step fails. -/
def trioOutcome (i k : Nat) : Result Bool :=
  if i = 1 then .error (.exec "b" 1 "disk full")
  else if k = 1 then .error (.connect "a" "connection refused")
  else .ok false

def trioInTurn : List Signal :=
  [.message (.finished 0 (trioOutcome 0 2)), .message (.retryDue 0),
    .message (.finished 1 (trioOutcome 1 1)), .message (.finished 0 (trioOutcome 0 1))]

def trioAtOnce : List Signal :=
  [.message (.finished 0 (trioOutcome 0 2)), .message (.retryDue 0),
    .message (.finished 0 (trioOutcome 0 1)), .message (.finished 1 (trioOutcome 1 1))]

theorem completed_trioInTurn : Completed (.trio 1) ⟨"run", .origin, false⟩ trioOutcome trioInTurn
    (play (.trio 1) ⟨"run", .origin, false⟩ .origin trioInTurn) where
  reached := .hear _ (.hear _ (.hear _ (.hear _ (.launch _) (by decide)) (by decide)) (by decide))
    (by decide)
  isOver := by decide
  not_launched_cancelled := rfl
  not_cancelled := by simp [trioInTurn]
  attested := ⟨rfl, rfl, rfl, trivial⟩

theorem completed_trioAtOnce : Completed (.trio 2) ⟨"run", .origin, false⟩ trioOutcome trioAtOnce
    (play (.trio 2) ⟨"run", .origin, false⟩ .origin trioAtOnce) where
  reached := .hear _ (.hear _ (.hear _ (.hear _ (.launch _) (by decide)) (by decide)) (by decide))
    (by decide)
  isOver := by decide
  not_launched_cancelled := rfl
  not_cancelled := by simp [trioAtOnce]
  attested := ⟨rfl, rfl, rfl, trivial⟩

theorem confluent_trio :
    let x := play (.trio 1) ⟨"run", .origin, false⟩ .origin trioInTurn
    let x' := play (.trio 2) ⟨"run", .origin, false⟩ .origin trioAtOnce
    Job.Verdicts (.trio 1) trioOutcome (x.finish (.trio 1) .origin).control.report ∧
      (x'.finish (.trio 2) .origin).control.report.hosts.map HostRecord.verdict =
        (x.finish (.trio 1) .origin).control.report.hosts.map HostRecord.verdict :=
  have h := Completed.confluent (Job.ofSteps_trio 1) completed_trioInTurn .origin
  ⟨h.1, (h.2 (.trio 2) _ _ _ .origin rfl rfl rfl completed_trioAtOnce).2⟩

end Course

end Rollout
