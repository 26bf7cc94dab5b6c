import Rollout.Proofs.Run.History

namespace Rollout

namespace HostRecord

variable {xs : List StepRecord} {h : HostRecord}

theorem stateOf_eq_succeeded : stateOf xs = .succeeded ↔ ∀ x ∈ xs, x.state = .succeeded := by
  unfold stateOf
  split
  · rename_i hfailed
    obtain ⟨x, hx, hstate⟩ := List.any_eq_true.mp hfailed
    simp only [reduceCtorEq, false_iff]
    intro hall
    simp [hall x hx] at hstate
  · split
    · rename_i hall
      simpa using hall
    · rename_i hnot
      have hnot' : ¬ ∀ x ∈ xs, x.state = .succeeded := by simpa using hnot
      split
      · simpa using hnot'
      · split <;> simpa using hnot'

theorem stateOf_eq_failed : stateOf xs = .failed ↔ ∃ x ∈ xs, x.state = .failed := by
  unfold stateOf
  split
  · rename_i hfailed
    simpa using hfailed
  · rename_i hnone
    have hnone' : ¬ ∃ x ∈ xs, x.state = .failed := by simpa using hnone
    refine iff_of_false ?_ hnone'
    split
    · simp
    · split
      · simp
      · split <;> simp

theorem stateOf_eq_pending : stateOf xs = .pending ↔ xs ≠ [] ∧ ∀ x ∈ xs, x.state = .pending := by
  constructor
  · intro hstate
    refine ⟨?_, ?_⟩
    · rintro rfl
      cases hstate
    · unfold stateOf at hstate
      split at hstate
      · cases hstate
      · split at hstate
        · cases hstate
        · split at hstate
          · rename_i hall
            simpa using hall
          · split at hstate <;> cases hstate
  · rintro ⟨hne, hall⟩
    obtain ⟨x, hx⟩ := List.exists_mem_of_ne_nil xs hne
    have hfailed : (xs.any fun x ↦ x.state == .failed) = false := by
      simp only [List.any_eq_false]
      intro y hy
      simp [hall y hy]
    have hsucceeded : (xs.all fun x ↦ x.state == .succeeded) = false := by
      simp only [List.all_eq_false]
      exact ⟨x, hx, by simp [hall x hx]⟩
    have hpending : (xs.all fun x ↦ x.state == .pending) = true := by simpa using hall
    simp [stateOf, hfailed, hsucceeded, hpending]

theorem stateOf_eq_skipped : stateOf xs = .skipped ↔
    (∃ x ∈ xs, x.state = .skipped) ∧ ∀ x ∈ xs, x.state = .succeeded ∨ x.state = .skipped := by
  constructor
  · intro hstate
    have hnone : ¬ ∃ x ∈ xs, x.state = .failed := by
      rw [← stateOf_eq_failed, hstate]
      simp
    have hnot : ¬ ∀ x ∈ xs, x.state = .succeeded := by
      rw [← stateOf_eq_succeeded, hstate]
      simp
    have hall : ∀ x ∈ xs, x.state.isTerminal = true := by
      unfold stateOf at hstate
      split at hstate
      · cases hstate
      · split at hstate
        · cases hstate
        · split at hstate
          · cases hstate
          · split at hstate
            · rename_i hall
              simpa using hall
            · cases hstate
    have hended : ∀ x ∈ xs, x.state = .succeeded ∨ x.state = .skipped := by
      intro x hx
      rcases Status.isTerminal_iff.mp (hall x hx) with h | h | h
      · exact .inl h
      · exact absurd ⟨x, hx, h⟩ hnone
      · exact .inr h
    simp only [not_forall] at hnot
    obtain ⟨x, hx, hne⟩ := hnot
    exact ⟨⟨x, hx, (hended x hx).resolve_left hne⟩, hended⟩
  · rintro ⟨⟨x, hx, hskipped⟩, hall⟩
    have hfailed : (xs.any fun x ↦ x.state == .failed) = false := by
      simp only [List.any_eq_false]
      intro y hy
      rcases hall y hy with h | h <;> simp [h]
    have hsucceeded : (xs.all fun x ↦ x.state == .succeeded) = false := by
      simp only [List.all_eq_false]
      exact ⟨x, hx, by simp [hskipped]⟩
    have hpending : (xs.all fun x ↦ x.state == .pending) = false := by
      simp only [List.all_eq_false]
      exact ⟨x, hx, by simp [hskipped]⟩
    have hterminal : (xs.all fun x ↦ x.state.isTerminal) = true := by
      simp only [List.all_eq_true, Status.isTerminal_iff]
      intro y hy
      rcases hall y hy with h | h <;> simp [h]
    simp [stateOf, hfailed, hsucceeded, hpending, hterminal]

/-- The record of a host is in line with the records of its steps. -/
structure Agrees (h : HostRecord) (xs : List StepRecord) : Prop where
  state_eq : h.state = stateOf xs
  failedStep_eq : h.failedStep = (xs.find? fun x ↦ x.state == .failed).map StepRecord.name
  lastError_eq : h.lastError = (xs.find? fun x ↦ x.state == .failed).bind StepRecord.error

@[simp] theorem address_rollUp : (h.rollUp xs).address = h.address := by
  simp only [rollUp]
  split <;> split <;> rfl

@[simp] theorem roles_rollUp : (h.rollUp xs).roles = h.roles := by
  simp only [rollUp]
  split <;> split <;> rfl

@[simp] theorem agentHealth_rollUp : (h.rollUp xs).agentHealth = h.agentHealth := by
  simp only [rollUp]
  split <;> split <;> rfl

@[simp] theorem monitoringDegraded_rollUp :
    (h.rollUp xs).monitoringDegraded = h.monitoringDegraded := by
  simp only [rollUp]
  split <;> split <;> rfl

theorem agrees_rollUp {ys : List StepRecord} (hagree : h.Agrees ys)
    (hfailed : (∀ x ∈ xs, x.state ≠ .failed) → ∀ y ∈ ys, y.state ≠ .failed) :
    (h.rollUp xs).Agrees xs := by
  cases hfind : xs.find? fun x ↦ x.state == .failed with
  | some x =>
    refine ⟨?_, ?_, ?_⟩ <;> simp only [rollUp, hfind] <;> split <;> simp
  | none =>
    have hys : (ys.find? fun y ↦ y.state == .failed) = none := by
      rw [List.find?_eq_none] at hfind ⊢
      simpa using hfailed (by simpa using hfind)
    refine ⟨?_, ?_, ?_⟩ <;> simp only [rollUp, hfind] <;> split <;>
      simp [hagree.failedStep_eq, hagree.lastError_eq, hys]

end HostRecord

namespace Report

variable {r : Report} {now : Moment} {id : Nat} {e : StepEvent} {x : StepRecord}

theorem mem_stepsOfHost {address : String} {y : StepRecord} :
    y ∈ r.stepsOfHost address ↔ y ∈ r.steps ∧ y.host = address := by
  simp [stepsOfHost]

theorem filter_modify {xs : List StepRecord} {i : Nat} {f : StepRecord → StepRecord}
    {p : StepRecord → Bool} (h : ∀ y, xs[i]? = some y → p y = false ∧ p (f y) = false) :
    (xs.modify i f).filter p = xs.filter p := by
  induction xs generalizing i with
  | nil => simp
  | cons y xs ih =>
    cases i with
    | zero =>
      obtain ⟨h₁, h₂⟩ := h y rfl
      simp [h₁, h₂]
    | succ i => simp [List.filter_cons, ih fun z hz ↦ h z (by simpa using hz)]

theorem stepsOfHost_apply_of_ne (hx : r.steps[id]? = some x) {address : String}
    (hne : address ≠ x.host) :
    (r.apply now id e).1.stepsOfHost address = r.stepsOfHost address := by
  unfold stepsOfHost
  rw [steps_apply]
  refine filter_modify fun y hy ↦ ?_
  obtain rfl : y = x := by rw [hx] at hy; exact (Option.some.inj hy).symm
  simp [Ne.symm hne]

theorem hosts_apply (hx : r.steps[id]? = some x) :
    (r.apply now id e).1.hosts = r.hosts.map fun h ↦
      if h.address == x.host then
        h.rollUp ((r.apply now id e).1.stepsOfHost x.host)
      else h := by
  have hrolled : ∀ (q : Report) (a : String), (q.rollUp a).stepsOfHost a = q.stepsOfHost a :=
    fun _ _ ↦ rfl
  unfold apply
  simp only [hx]
  rw [StepRecord.host_apply, hrolled]
  rfl

theorem host?_apply (hx : r.steps[id]? = some x) (address : String) :
    (r.apply now id e).1.host? address =
      if address = x.host then
        (r.host? address).map fun h ↦ h.rollUp ((r.apply now id e).1.stepsOfHost x.host)
      else r.host? address := by
  unfold host?
  rw [hosts_apply hx, List.find?_map]
  have hcomp : (fun h : HostRecord ↦ h.address == address) ∘ (fun h : HostRecord ↦
      if h.address == x.host then h.rollUp ((r.apply now id e).1.stepsOfHost x.host) else h) =
      fun h ↦ h.address == address := by
    funext h
    simp only [Function.comp]
    split <;> simp
  rw [hcomp]
  cases hfind : r.hosts.find? fun h ↦ h.address == address with
  | none => split <;> rfl
  | some h =>
    have haddress : h.address = address := by simpa using List.find?_some hfind
    by_cases ha : address = x.host
    · simp [haddress, ha]
    · simp [haddress, ha]

theorem hostState_apply_of_ne (hx : r.steps[id]? = some x) {address : String}
    (hne : address ≠ x.host) :
    (r.apply now id e).1.hostState address = r.hostState address := by
  rw [hostState, host?_apply hx, if_neg hne, hostState]

theorem hostState_apply_self (hx : r.steps[id]? = some x) :
    (r.apply now id e).1.hostState x.host =
      (r.host? x.host).map fun _ ↦
        HostRecord.stateOf ((r.apply now id e).1.stepsOfHost x.host) := by
  rw [hostState, host?_apply hx, if_pos rfl, Option.map_map]
  congr 1

theorem hostChange_apply (hx : r.steps[id]? = some x) :
    (r.apply now id e).2.hostChange =
      if (r.apply now id e).1.hostState x.host = r.hostState x.host then none
      else (r.apply now id e).1.hostState x.host := by
  unfold apply
  simp only [hx, StepRecord.host_apply]

theorem hostChange_eq_some (hx : r.steps[id]? = some x) {y : Status}
    (h : (r.apply now id e).2.hostChange = some y) :
    (r.apply now id e).1.hostState x.host = some y ∧ r.hostState x.host ≠ some y := by
  rw [hostChange_apply hx] at h
  split at h
  · cases h
  · rename_i hne
    exact ⟨h, fun hold ↦ hne (h.trans hold.symm)⟩

theorem mem_stepsOfHost_apply (hx : r.steps[id]? = some x) :
    (x.apply now e).1 ∈ (r.apply now id e).1.stepsOfHost x.host := by
  refine mem_stepsOfHost.mpr ⟨List.mem_of_getElem? (i := id) ?_, StepRecord.host_apply ..⟩
  rw [getElem?_steps_apply, if_pos rfl, hx, Option.map_some]

theorem hostChange_ne_succeeded (h : (r.apply now id e).2.state ≠ .succeeded) :
    (r.apply now id e).2.hostChange ≠ some .succeeded := by
  cases hx : r.steps[id]? with
  | none => simp [apply, hx]
  | some x =>
    intro hchange
    rw [hostChange_apply hx] at hchange
    split at hchange
    · cases hchange
    · rw [hostState_apply_self hx] at hchange
      obtain ⟨-, -, hall⟩ := Option.map_eq_some_iff.mp hchange
      have hstate := HostRecord.stateOf_eq_succeeded.mp hall _ (mem_stepsOfHost_apply hx)
      exact h (by simpa [apply, hx] using hstate)

theorem hostState_of_apply {address : String} {y : Status}
    (h : (r.apply now id e).1.hostState address = some y) :
    r.hostState address = some y ∨
      (r.apply now id e).2.hostChange = some y ∧ ∃ x, r.steps[id]? = some x ∧ x.host = address := by
  cases hx : r.steps[id]? with
  | none => exact .inl (by simpa [apply, hx] using h)
  | some x =>
    by_cases ha : address = x.host
    · subst ha
      by_cases hold : r.hostState x.host = some y
      · exact .inl hold
      · refine .inr ⟨?_, x, rfl, rfl⟩
        rw [hostChange_apply hx, if_neg, h]
        rw [h]
        exact Ne.symm hold
    · rw [hostState_apply_of_ne hx ha] at h
      exact .inl h

theorem hosts_after (r : Report) (xs : List Change) :
    ((r.after xs).hosts.map fun h ↦ (h.address, h.roles)) =
      r.hosts.map fun h ↦ (h.address, h.roles) := by
  induction xs with
  | nil => rfl
  | cons x xs ih =>
    rw [Report.after_cons, ← ih]
    cases x with
    | cancelled | finished => rfl
    | agent host health degraded =>
      simp only [change, setAgent, modifyHost, List.map_map]
      refine List.map_congr_left fun h _ ↦ ?_
      simp only [Function.comp]
      split <;> rfl
    | event now id e =>
      rw [change_event]
      cases hx : (r.after xs).steps[id]? with
      | none => simp [apply, hx]
      | some x =>
        rw [hosts_apply hx, List.map_map]
        refine List.map_congr_left fun h _ ↦ ?_
        simp only [Function.comp]
        split <;> simp

/-- What is reported of the agents: their hosts, their health, and whether monitoring suffers. -/
def agents (r : Report) : List (String × Option AgentHealth × Bool) :=
  r.hosts.map fun h ↦ (h.address, h.agentHealth, h.monitoringDegraded)

theorem mem_agents {g : HostRecord} (hg : g ∈ r.hosts) :
    (g.address, g.agentHealth, g.monitoringDegraded) ∈ r.agents :=
  List.mem_map.mpr ⟨g, hg, rfl⟩

@[simp] theorem agents_apply (r : Report) (now : Moment) (id : Nat) (e : StepEvent) :
    (r.apply now id e).1.agents = r.agents := by
  cases hx : r.steps[id]? with
  | none => simp [apply, hx]
  | some x =>
    rw [agents, hosts_apply hx, List.map_map, agents]
    refine List.map_congr_left fun h _ ↦ ?_
    simp only [Function.comp]
    split <;> simp

theorem agents_setAgent (r : Report) (host : String) (health : AgentHealth) (degraded : Bool) :
    (r.setAgent host health degraded).agents =
      r.agents.map fun p ↦ if p.1 == host then (p.1, some health, degraded) else p := by
  simp only [agents, setAgent, modifyHost, List.map_map]
  refine List.map_congr_left fun h _ ↦ ?_
  simp only [Function.comp]
  split <;> rfl

def InLine (r : Report) : Prop := ∀ h ∈ r.hosts, h.Agrees (r.stepsOfHost h.address)

theorem inLine_start (runId : String) (plan : Plan) (inventory : Inventory) :
    (start runId now plan inventory).InLine := by
  intro h hh
  obtain ⟨host, -, rfl⟩ := List.mem_map.mp hh
  have hsteps : (start runId now plan inventory).stepsOfHost host.address =
      (plan.stepsForHost host.address).map .ofStep := by
    simp only [stepsOfHost, start, Plan.stepsForHost, List.filter_map]
    rfl
  simp only [hostRecord]
  rw [hsteps]
  cases plan.stepsForHost host.address with
  | nil => exact ⟨rfl, rfl, rfl⟩
  | cons s steps =>
    have hstate : ∀ xs : List Step, HostRecord.stateOf ((s :: xs).map .ofStep) = .pending := by
      simp [HostRecord.stateOf, StepRecord.ofStep]
    have hfind :
        ((s :: steps).map StepRecord.ofStep).find? (fun x ↦ x.state == .failed) = none := by
      simp [StepRecord.ofStep]
    exact ⟨(hstate steps).symm, by rw [hfind]; rfl, by rw [hfind]; rfl⟩

end Report

variable {j : Job} {told : Outcomes} {r : Report}

theorem Report.InLine.change (hp : j.plan.WellFormed) (h : r.InLine) {z : Change}
    (hz : j.Proper told r z) : (r.change z).InLine := by
  cases z with
  | cancelled | finished => exact h
  | agent host health degraded =>
    intro g hg
    obtain ⟨g', hg', rfl⟩ := List.mem_map.mp hg
    have hagree := h g' hg'
    split
    · exact ⟨hagree.state_eq, hagree.failedStep_eq, hagree.lastError_eq⟩
    · exact hagree
  | event now id e =>
    obtain ⟨s, hs, hfits⟩ := hz
    obtain rfl := hp.id_of_step? hs
    obtain ⟨x, hx⟩ : ∃ x, r.steps[s.id]? = some x := by
      rcases hfits.state with h' | h' <;>
        exact (Option.map_eq_some_iff.mp h').imp fun _ hx ↦ hx.1
    intro g hg
    rw [Report.change_event, Report.hosts_apply hx] at hg
    obtain ⟨g', hg', rfl⟩ := List.mem_map.mp hg
    have hagree := h g' hg'
    rw [Report.change_event]
    by_cases hhost : g'.address = x.host
    · rw [if_pos (by simpa using hhost), HostRecord.address_rollUp, hhost]
      rw [hhost] at hagree
      refine HostRecord.agrees_rollUp hagree fun hnone y hy ↦ ?_
      obtain ⟨hmem, hyhost⟩ := Report.mem_stepsOfHost.mp hy
      obtain ⟨i, hi⟩ := List.mem_iff_getElem?.mp hmem
      by_cases his : i = s.id
      · subst his
        intro hfailed
        rcases hfits.state with h' | h' <;> simp [Report.stepState, hi, hfailed] at h'
      · refine hnone y (Report.mem_stepsOfHost.mpr ⟨List.mem_of_getElem? (i := i) ?_, hyhost⟩)
        rw [Report.getElem?_steps_apply, if_neg his, hi]
    · rw [if_neg (by simpa using hhost), Report.stepsOfHost_apply_of_ne hx hhost]
      exact hagree

theorem Report.InLine.after (hp : j.plan.WellFormed) (h : r.InLine) {xs : List Change}
    (hxs : j.Chronicle told r xs) : (r.after xs).InLine :=
  hxs.induction List.nil_suffix h fun _ _ hr hx ↦ hr.change hp hx

theorem Report.InLine.hostState_eq (h : r.InLine) {address : String} {x : Status}
    (hx : r.hostState address = some x) : HostRecord.stateOf (r.stepsOfHost address) = x := by
  obtain ⟨g, hg, rfl⟩ := Option.map_eq_some_iff.mp hx
  have haddress : g.address = address := by simpa using List.find?_some hg
  rw [← haddress, (h g (List.mem_of_find?_eq_some hg)).state_eq]

theorem Report.hostState_setAgent (r : Report) (host : String) (health : AgentHealth)
    (degraded : Bool) (address : String) :
    (r.setAgent host health degraded).hostState address = r.hostState address := by
  have hcomp : (fun g : HostRecord ↦ g.address == address) ∘ (fun g : HostRecord ↦
      if g.address == host then
        { g with agentHealth := some health, monitoringDegraded := degraded } else g) =
      fun g ↦ g.address == address := by
    funext g
    simp only [Function.comp]
    split <;> rfl
  simp only [Report.setAgent, Report.modifyHost, Report.hostState, Report.host?, List.find?_map,
    hcomp, Option.map_map]
  congr 1
  funext g
  simp only [Function.comp]
  split <;> rfl

theorem Report.InLine.terminal (hp : j.plan.WellFormed) (h : r.InLine) {z : Change}
    (hz : j.Proper told r z) {address : String} {x : Status}
    (hx : r.hostState address = some x) (hend : x.isTerminal = true) :
    (r.change z).hostState address = some x := by
  cases z with
  | cancelled => exact hx
  | finished now => exact hx
  | agent host health degraded => exact (r.hostState_setAgent host health degraded address).trans hx
  | event now id e =>
    obtain ⟨s, hs, hfits⟩ := hz
    obtain rfl := hp.id_of_step? hs
    obtain ⟨y, hy⟩ : ∃ y, r.steps[s.id]? = some y := by
      rcases hfits.state with h' | h' <;>
        exact (Option.map_eq_some_iff.mp h').imp fun _ hy ↦ hy.1
    have hopen : y.state.isTerminal = false := by
      rcases hfits.state with h' | h' <;> simp [Report.stepState, hy] at h' <;>
        simp [h', Status.isTerminal]
    rw [Report.change_event]
    by_cases hhost : address = y.host
    · subst hhost
      have hstate := h.hostState_eq hx
      have hmem : y ∈ r.stepsOfHost y.host :=
        Report.mem_stepsOfHost.mpr ⟨List.mem_of_getElem? hy, rfl⟩
      -- a step that has not ended is left, so the host can only have failed
      have hfailed : x = .failed := by
        rcases Status.isTerminal_iff.mp hend with rfl | rfl | rfl
        · rw [HostRecord.stateOf_eq_succeeded.mp hstate y hmem] at hopen
          cases hopen
        · rfl
        · rcases (HostRecord.stateOf_eq_skipped.mp hstate).2 y hmem with h' | h' <;>
            rw [h'] at hopen <;> cases hopen
      subst hfailed
      obtain ⟨w, hw, hwfailed⟩ := HostRecord.stateOf_eq_failed.mp hstate
      obtain ⟨hwmem, hwhost⟩ := Report.mem_stepsOfHost.mp hw
      obtain ⟨i, hi⟩ := List.mem_iff_getElem?.mp hwmem
      have hne : i ≠ s.id := by
        rintro rfl
        rw [hy, Option.some.injEq] at hi
        rw [hi, hwfailed] at hopen
        cases hopen
      have hw' : w ∈ (r.apply now s.id e).1.stepsOfHost y.host := by
        refine Report.mem_stepsOfHost.mpr ⟨List.mem_of_getElem? (i := i) ?_, hwhost⟩
        rw [Report.getElem?_steps_apply, if_neg hne, hi]
      obtain ⟨g, hg, -⟩ := Option.map_eq_some_iff.mp hx
      rw [Report.hostState_apply_self hy, hg, Option.map_some,
        HostRecord.stateOf_eq_failed.mpr ⟨w, hw', hwfailed⟩]
    · rw [Report.hostState_apply_of_ne hy hhost, hx]

theorem Report.InLine.hostState_after (hp : j.plan.WellFormed) (h : r.InLine) {xs ys : List Change}
    (hxs : j.Chronicle told r xs) (hsuf : ys <:+ xs) {address : String} {x : Status}
    (hx : (r.after ys).hostState address = some x) (hend : x.isTerminal = true) :
    (r.after xs).hostState address = some x :=
  have hys : (r.after ys).InLine := h.after hp (hxs.of_suffix hsuf)
  (hxs.induction (P := fun q ↦ q.InLine ∧ q.hostState address = some x) hsuf ⟨hys, hx⟩
    fun _ _ hq hz ↦ ⟨hq.1.change hp hz, hq.1.terminal hp hz hq.2 hend⟩).2

end Rollout
