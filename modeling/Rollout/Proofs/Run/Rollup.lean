import Rollout.Proofs.Run.Growth
import Rollout.Proofs.Run.Reached

namespace Rollout

namespace HostRecord

/-- What the records of its steps, in the order of their numbers, make of the record of a host. -/
structure Reflects (g : HostRecord) (xs : List StepRecord) : Prop where
  failed : g.state = .failed ↔ ∃ y ∈ xs, y.state = .failed
  succeeded : g.state = .succeeded ↔ ∀ y ∈ xs, y.state = .succeeded
  pending : g.state = .pending ↔ xs ≠ [] ∧ ∀ y ∈ xs, y.state = .pending
  skipped : g.state = .skipped ↔
    (∃ y ∈ xs, y.state = .skipped) ∧ ∀ y ∈ xs, y.state = .succeeded ∨ y.state = .skipped
  failedStep : g.state = .failed → ∃ y ∈ xs, y.state = .failed ∧
    (∀ z ∈ xs, z.state = .failed → y.id ≤ z.id) ∧ g.failedStep = some y.name ∧
    g.lastError = y.error
  skippedBecause : g.state = .skipped → ∃ y ∈ xs, y.state = .skipped ∧
    (∀ z ∈ xs, z.state = .skipped → y.id ≤ z.id) ∧ g.skippedBecause = y.skippedBecause

variable {xs : List StepRecord} {g : HostRecord}

theorem skippedBecause_rollUp (h : (g.rollUp xs).state = .skipped) :
    (g.rollUp xs).skippedBecause =
      (xs.find? fun y ↦ y.state == .skipped).bind StepRecord.skippedBecause := by
  have hstate : (g.rollUp xs).state = stateOf xs := rfl
  rw [hstate] at h
  simp only [rollUp, h, if_true]

theorem exists_first {state : Status} (hinc : xs.Pairwise fun a b ↦ a.id < b.id)
    (h : ∃ y ∈ xs, y.state = state) :
    ∃ y ∈ xs, y.state = state ∧ (∀ z ∈ xs, z.state = state → y.id ≤ z.id) ∧
      (xs.find? fun y ↦ y.state == state) = some y := by
  cases hfind : xs.find? fun y ↦ y.state == state with
  | none =>
    obtain ⟨y, hy, hstate⟩ := h
    exact absurd (by simpa using hstate) (List.find?_eq_none.mp hfind y hy)
  | some y =>
    obtain ⟨hstate, as, bs, rfl, hbefore⟩ := List.find?_eq_some_iff_append.mp hfind
    obtain ⟨-, hinc, -⟩ := List.pairwise_append.mp hinc
    refine ⟨y, by simp, by simpa using hstate, fun z hz hzstate ↦ ?_, rfl⟩
    rcases List.mem_append.mp hz with hz | hz
    · exact absurd (hbefore z hz) (by simp [hzstate])
    · rcases List.mem_cons.mp hz with rfl | hz
      · exact Nat.le_refl _
      · exact Nat.le_of_lt (List.rel_of_pairwise_cons hinc hz)

theorem Agrees.reflects (h : g.Agrees xs) (hinc : xs.Pairwise fun a b ↦ a.id < b.id)
    (hbecause : g.state = .skipped → g.skippedBecause =
      (xs.find? fun y ↦ y.state == .skipped).bind StepRecord.skippedBecause) :
    g.Reflects xs := by
  have hstate := h.state_eq
  refine ⟨hstate ▸ stateOf_eq_failed, hstate ▸ stateOf_eq_succeeded, hstate ▸ stateOf_eq_pending,
    hstate ▸ stateOf_eq_skipped, fun hfailed ↦ ?_, fun hskipped ↦ ?_⟩
  · obtain ⟨y, hy, hyfailed, hleast, hfind⟩ :=
      exists_first hinc (stateOf_eq_failed.mp (hstate.symm.trans hfailed))
    refine ⟨y, hy, hyfailed, hleast, ?_, ?_⟩
    · rw [h.failedStep_eq, hfind, Option.map_some]
    · rw [h.lastError_eq, hfind, Option.bind_some]
  · obtain ⟨y, hy, hyskipped, hleast, hfind⟩ :=
      exists_first hinc (stateOf_eq_skipped.mp (hstate.symm.trans hskipped)).1
    refine ⟨y, hy, hyskipped, hleast, ?_⟩
    rw [hbecause hskipped, hfind, Option.bind_some]

end HostRecord

variable {j : Job} {told : Outcomes} {l : Launch} {σs : List Signal} {r : Report}

namespace Report

def Excuses (r : Report) : Prop :=
  ∀ g ∈ r.hosts, g.state = .skipped → g.skippedBecause =
    ((r.stepsOfHost g.address).find? fun y ↦ y.state == .skipped).bind StepRecord.skippedBecause

theorem excuses_start (runId : String) (now : Moment) (plan : Plan) (inventory : Inventory) :
    (start runId now plan inventory).Excuses := by
  intro g hg hskipped
  obtain ⟨host, -, rfl⟩ := List.mem_map.mp hg
  simp only [hostRecord] at hskipped
  split at hskipped <;> cases hskipped

theorem Excuses.change (h : r.Excuses) (z : Change) : (r.change z).Excuses := by
  cases z with
  | cancelled => exact h
  | finished now => exact h
  | agent host health degraded =>
    intro g hg
    obtain ⟨g', hg', rfl⟩ := List.mem_map.mp hg
    split <;> exact h g' hg'
  | event now id e =>
    rw [change_event]
    cases hy : r.steps[id]? with
    | none =>
      have hsame : (r.apply now id e).1 = r := by simp [apply, hy]
      rwa [hsame]
    | some y =>
      intro g hg hskipped
      rw [hosts_apply hy] at hg
      obtain ⟨g', hg', rfl⟩ := List.mem_map.mp hg
      by_cases hhost : g'.address = y.host
      · rw [if_pos (by simpa using hhost)] at hskipped ⊢
        rw [HostRecord.skippedBecause_rollUp hskipped, HostRecord.address_rollUp, hhost]
      · rw [if_neg (by simpa using hhost)] at hskipped ⊢
        rw [stepsOfHost_apply_of_ne hy hhost]
        exact h g' hg' hskipped

/-- What an event that is handed to a step may change. -/
structure Confined (r : Report) (now : Moment) (id : Nat) (e : StepEvent) : Prop where
  steps : ∀ i, i ≠ id → (r.apply now id e).1.steps[i]? = r.steps[i]?
  hosts : ∀ (k : Nat) (g : HostRecord), r.hosts[k]? = some g →
    (∀ y, r.steps[id]? = some y → y.host ≠ g.address) →
    (r.apply now id e).1.hosts[k]? = some g
  rest : (r.apply now id e).1 = { r with
    steps := (r.apply now id e).1.steps, hosts := (r.apply now id e).1.hosts }
  lengths : (r.apply now id e).1.steps.length = r.steps.length ∧
    (r.apply now id e).1.hosts.length = r.hosts.length
  hostChange : ∀ y, r.steps[id]? = some y → ∀ state,
    (r.apply now id e).2.hostChange = some state ↔
      (r.apply now id e).1.hostState y.host = some state ∧ r.hostState y.host ≠ some state
  unknown : r.steps[id]? = none → r.apply now id e = (r, ⟨.failed, [], none⟩)

theorem confined (r : Report) (now : Moment) (id : Nat) (e : StepEvent) :
    r.Confined now id e := by
  cases hy : r.steps[id]? with
  | none =>
    have hsame : r.apply now id e = (r, ⟨.failed, [], none⟩) := by simp only [apply, hy]
    refine ⟨?_, ?_, ?_, ?_, ?_, fun _ ↦ hsame⟩
    · simp [hsame]
    · intro k g hg _
      rw [hsame, hg]
    · rw [hsame]
    · simp [hsame]
    · intro y hy'
      rw [hy] at hy'
      cases hy'
  | some y =>
    refine ⟨?_, ?_, ?_, ⟨length_steps_apply .., ?_⟩, ?_, ?_⟩
    · intro i hi
      rw [getElem?_steps_apply, if_neg hi]
    · intro k g hg hne
      rw [hosts_apply hy, List.getElem?_map, hg, Option.map_some,
        if_neg (by simpa using Ne.symm (hne y hy))]
    · simp only [apply, hy]
      rfl
    · rw [hosts_apply hy, List.length_map]
    · intro y' hy' state
      obtain rfl : y = y' := Option.some.inj (hy.symm.trans hy')
      refine ⟨hostChange_eq_some hy, ?_⟩
      rintro ⟨hnew, hold⟩
      rw [hostChange_apply hy, if_neg, hnew]
      rw [hnew]
      exact Ne.symm hold
    · intro hnone
      rw [hy] at hnone
      cases hnone

end Report

namespace Job.Holds

theorem id_of_getElem? (hp : j.plan.WellFormed) (h : j.Holds told r) {i : Nat} {y : StepRecord}
    (hy : r.steps[i]? = some y) :
    ∃ s, j.plan.step? i = some s ∧ y.Describes s ∧ y.id = i := by
  have hlt := (List.getElem?_eq_some_iff.mp hy).1
  rw [h.length_steps] at hlt
  have hs : j.plan.step? i = some j.plan.steps[i] := List.getElem?_eq_getElem hlt
  have hid := hp.id_of_step? hs
  have hdescribes := (h.accounts j.plan.steps[i] y (by rwa [hid]) (by rwa [hid])).describes
  exact ⟨_, hs, hdescribes, hdescribes.id_eq.trans hid⟩

theorem increasing_steps (hp : j.plan.WellFormed) (h : j.Holds told r) (address : String) :
    (r.stepsOfHost address).Pairwise fun a b ↦ a.id < b.id := by
  refine List.Pairwise.filter _ (List.pairwise_iff_getElem.mpr fun i k hi hk hlt ↦ ?_)
  obtain ⟨-, -, -, hi⟩ := h.id_of_getElem? hp (List.getElem?_eq_getElem hi)
  obtain ⟨-, -, -, hk⟩ := h.id_of_getElem? hp (List.getElem?_eq_getElem hk)
  rwa [hi, hk]

theorem ids_stepsOfHost (hp : j.plan.WellFormed) (h : j.Holds told r) (address : String) :
    (r.stepsOfHost address).map StepRecord.id = (j.plan.stepsForHost address).map Step.id := by
  have hpairs : r.steps.map (fun y ↦ (y.id, y.host)) = j.plan.steps.map fun s ↦ (s.id, s.host) := by
    refine List.ext_getElem? fun i ↦ ?_
    rw [List.getElem?_map, List.getElem?_map]
    cases hy : r.steps[i]? with
    | none =>
      have hle := List.getElem?_eq_none_iff.mp hy
      rw [h.length_steps] at hle
      rw [List.getElem?_eq_none_iff.mpr hle]
      rfl
    | some y =>
      obtain ⟨s, hs, hdescribes, -⟩ := h.id_of_getElem? hp hy
      have hs' : j.plan.steps[i]? = some s := hs
      rw [hs', Option.map_some, Option.map_some, hdescribes.id_eq, hdescribes.host_eq]
  have hids : ∀ {α : Type} (id : α → Nat) (host : α → String) (as : List α),
      (as.filter fun a ↦ host a == address).map id =
        ((as.map fun a ↦ (id a, host a)).filter fun p ↦ p.2 == address).map Prod.fst := by
    intro α id host as
    rw [List.filter_map, List.map_map]
    rfl
  unfold Report.stepsOfHost Plan.stepsForHost
  rw [hids StepRecord.id StepRecord.host, hids Step.id Step.host, hpairs]

end Job.Holds

namespace Course

/-- The hosts in all snapshots of a course. -/
structure RolledUp (j : Job) (l : Launch) (x : Course) : Prop where
  report_eq : x.control.report = (l.report j).after x.control.history
  grows : ∀ now, (∀ σ, x.control.history <:+ (x.hear j now σ).control.history) ∧
    x.control.history <:+ (x.finish j now).control.history
  addresses : ∀ xs, xs <:+ x.control.history →
    ((l.report j).after xs).hosts.map HostRecord.address = j.inventory.addresses
  ids : ∀ xs, xs <:+ x.control.history → ∀ address,
    (((l.report j).after xs).stepsOfHost address).map StepRecord.id =
      (j.plan.stepsForHost address).map Step.id
  reflects : ∀ xs, xs <:+ x.control.history → ∀ g ∈ ((l.report j).after xs).hosts,
    g.Reflects (((l.report j).after xs).stepsOfHost g.address)
  confined : ∀ xs, xs <:+ x.control.history → ∀ now id e,
    ((l.report j).after xs).Confined now id e
  lasting : ∀ xs, xs <:+ x.control.history → ∀ ys, ys <:+ xs → ∀ address state,
    ((l.report j).after ys).hostState address = some state → state.isTerminal = true →
    ((l.report j).after xs).hostState address = some state

/-- In every snapshot of every run the hosts are what their steps make of them. -/
theorem Reached.rolledUp {steps : List Step} {x : Course}
    (hplan : Plan.ofSteps steps = .ok j.plan) (h : Reached j l σs x) : x.RolledUp j l := by
  have hp := Plan.wellFormed_of_ofSteps hplan
  have hsound := (h.sound_any hp).invariant.steady.sound
  have hholds : ∀ xs, xs <:+ x.control.history →
      j.Holds (fun _ _ _ ↦ True) ((l.report j).after xs) :=
    fun xs hxs ↦ (Job.Holds.start j _ l.runId l.createdAt).after hp
      (hsound.chronicle.of_suffix hxs)
  have hstart : (l.report j).InLine := Report.inLine_start l.runId j.plan j.inventory
  refine ⟨hsound.report_eq, fun now ↦ ⟨history_hear j now x, history_finish j now x⟩,
    fun xs _ ↦ Control.addresses_after j l xs,
    fun xs hxs ↦ (hholds xs hxs).ids_stepsOfHost hp, ?_, fun xs _ ↦ Report.confined _, ?_⟩
  · intro xs hxs g hg
    have hchronicle := hsound.chronicle.of_suffix hxs
    have hexcuses : ((l.report j).after xs).Excuses :=
      hchronicle.induction List.nil_suffix
        (Report.excuses_start l.runId l.createdAt j.plan j.inventory) fun _ z hr _ ↦ hr.change z
    exact (hstart.after hp hchronicle g hg).reflects ((hholds xs hxs).increasing_steps hp _)
      (hexcuses g hg)
  · intro xs hxs ys hys address state hstate hend
    exact hstart.hostState_after hp (hsound.chronicle.of_suffix hxs) hys hstate hend

theorem rolledUp_trio :
    let heard : List Signal :=
      [.message (.finished 1 (.error (.exec "b" 1 "disk full"))),
        .message (.finished 0 (.ok false))]
    (play (.trio 2) ⟨"run", .origin, false⟩ .origin heard).RolledUp (.trio 2)
      ⟨"run", .origin, false⟩ :=
  Reached.rolledUp (Job.ofSteps_trio 2)
    (.hear _ (.hear _ (.launch _) (by decide)) (by decide))

end Course

end Rollout
