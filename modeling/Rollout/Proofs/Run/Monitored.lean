import Rollout.Proofs.Agents.Ensured
import Rollout.Proofs.Run.Ending
import Rollout.Proofs.Run.Orders

namespace Rollout

variable {j : Job} {told : Outcomes} {l : Launch} {now : Moment} {σs : List Signal}
  {os : List RunOrder} {x : Course} {host : String}

def HostRecord.unmonitored (g : HostRecord) : HostRecord :=
  { g with agentHealth := none, monitoringDegraded := false }

namespace Report

variable {r : Report}

def unmonitored (r : Report) : Report := { r with hosts := r.hosts.map HostRecord.unmonitored }

theorem unmonitored_setAgent (r : Report) (host : String) (health : AgentHealth)
    (degraded : Bool) : (r.setAgent host health degraded).unmonitored = r.unmonitored := by
  simp only [unmonitored, setAgent, modifyHost, List.map_map]
  congr 1
  refine List.map_congr_left fun g _ ↦ ?_
  simp only [Function.comp]
  split <;> rfl

theorem hostState_of_mem (hnodup : (r.hosts.map HostRecord.address).Nodup) {g : HostRecord}
    (hg : g ∈ r.hosts) : r.hostState g.address = some g.state := by
  cases hfind : r.host? g.address with
  | none => exact absurd (List.find?_eq_none.mp hfind g hg) (by simp)
  | some k =>
    have haddress : k.address = g.address := by simpa using List.find?_some hfind
    obtain rfl := List.inj_on_of_nodup_map hnodup (List.mem_of_find?_eq_some hfind) hg haddress
    rw [hostState, hfind, Option.map_some]

theorem exitCode_eq_zero_iff : r.exitCode = 0 ↔ r.finishedAt.isSome = true ∧
    r.cancelled = false ∧ ∀ g ∈ r.hosts, g.state = .succeeded ∧ g.monitoringDegraded = false := by
  unfold exitCode outcome
  cases r.finishedAt with
  | none => simp
  | some now =>
    cases r.cancelled with
    | true => simp
    | false =>
      simp only [Option.isNone_some, Bool.false_eq_true, if_false]
      split
      · rename_i hall
        simpa using hall
      · rename_i hnot
        simpa using hnot

end Report

namespace Course

/-- The courses that a run can come to, with the signals heard, the latest first, and with all
orders given so far. -/
inductive Ordered (j : Job) (l : Launch) : List Signal → List RunOrder → Course → Prop
  | launch (now : Moment) : Ordered j l [] (firstOrders j l now) (launch j l now)
  | hear (now : Moment) {σs : List Signal} {os : List RunOrder} {x : Course} {σ : Signal} :
      Ordered j l σs os x → x.CanHear σ →
      Ordered j l (σ :: σs) (os ++ x.orders j now σ) (x.hear j now σ)
  | finish (now : Moment) {σs : List Signal} {os : List RunOrder} {x : Course} :
      Ordered j l σs os x → x.control.isOver = true → x.control.report.finishedAt = none →
      Ordered j l σs os (x.finish j now)

theorem reached_iff : Reached j l σs x ↔ ∃ os, Ordered j l σs os x := by
  constructor
  · intro h
    induction h with
    | launch now => exact ⟨_, .launch now⟩
    | hear now _ hσ ih =>
      obtain ⟨os, h⟩ := ih
      exact ⟨_, .hear now h hσ⟩
    | finish now _ hover hopen ih =>
      obtain ⟨os, h⟩ := ih
      exact ⟨_, .finish now h hover hopen⟩
  · rintro ⟨os, h⟩
    induction h with
    | launch now => exact .launch now
    | hear now _ hσ ih => exact .hear now ih hσ
    | finish now _ hover hopen ih => exact .finish now ih hover hopen

theorem Ordered.count_startAgent (h : Ordered j l σs os x) (host : String) :
    os.count (.startAgent host) =
      σs.countP (Signal.isAnswer host) + x.outside.starts.count host := by
  induction h with
  | launch now =>
    rw [outside_launch, Outside.count_starts_foldl_obey]
    simp
  | @hear now σs os x σ _ hσ ih =>
    rw [outside_hear, Outside.count_starts_foldl_obey, List.count_append, ih, List.countP_cons]
    cases σ with
    | cancel => simp [Outside.hear, Signal.isAnswer]; omega
    | message m =>
      cases m with
      | finished id outcome => simp [Outside.hear, Signal.isAnswer]; omega
      | retryDue id => simp [Outside.hear, Signal.isAnswer]; omega
      | agentDone g outcome =>
        have hpos := List.count_pos_iff.mpr (show g ∈ x.outside.starts from hσ.2)
        simp only [Outside.hear, Signal.isAnswer, List.count_erase, beq_iff_eq]
        split
        · rename_i hg
          subst hg
          omega
        · omega
  | finish now _ _ _ ih => exact ih

theorem Reached.succeeded_of_order (hp : j.plan.WellFormed) (h : Reached j l σs x) {u : Outside}
    (hout : x.outside = os.foldl Outside.obey u) (hmem : .startAgent host ∈ os) :
    ∀ y ∈ x.control.report.stepsOfHost host, y.state = .succeeded := by
  have hpos := List.count_pos_iff.mpr hmem
  have hcount := Outside.count_starts_foldl_obey os u host
  rw [← hout] at hcount
  have hstate := (h.tended hp).succeeded host (by omega)
  have hline := (h.sound_any hp).invariant.steady.sound.inLine hp
  exact HostRecord.stateOf_eq_succeeded.mp (hline.hostState_eq hstate)

theorem not_cancelled_of_firstOrders (hmem : .startAgent host ∈ firstOrders j l now) :
    l.cancelled = false := by
  by_contra hstop
  have hstop : l.cancelled = true := by simpa using hstop
  rw [(launch_of_cancelled j now hstop).2, orders_cancel] at hmem
  simp [Control.initial] at hmem

theorem Sound.not_cancelled_of_orders (hp : j.plan.WellFormed) (h : x.Sound j told l σs)
    {σ : Signal} (hσ : x.CanHear σ) (hmem : .startAgent host ∈ x.orders j now σ) :
    l.cancelled = false ∧ .cancel ∉ σ :: σs :=
  h.going_of_orders hp hσ (by simp) hmem

theorem Sound.unmonitored_agentDone (h : x.Sound j told l σs) (outcome : Result AgentHealth) :
    (x.hear j now (.message (.agentDone host outcome))).control.report.unmonitored =
      x.control.report.unmonitored := by
  have hfill : (x.control.handle j now (.agentDone host outcome)).fill j now =
      x.control.handle j now (.agentDone host outcome) := by
    refine Control.fill_of_settled ?_
    rw [Control.handle_agentDone]
    by_cases hstop : x.control.cancelled = true
    · split <;> exact .inl hstop
    · split <;> exact .inr (h.settled (by simpa using hstop))
  simp only [Course.hear, turn, respond, hfill, Control.takeOrders]
  rw [Control.handle_agentDone]
  split
  · exact Report.unmonitored_setAgent ..
  · rfl

theorem answer_unique (htended : x.control.Tended j σs x.outside)
    (hinventory : j.inventory.Accepted) {outcome outcome' : Result AgentHealth}
    (h : .message (.agentDone host outcome) ∈ σs) (h' : .message (.agentDone host outcome') ∈ σs) :
    outcome = outcome' := by
  have hle := answers_le htended hinventory host
  rw [List.countP_eq_length_filter] at hle
  have hmem : ∀ o, .message (.agentDone host o) ∈ σs →
      .message (.agentDone host o) ∈ σs.filter (Signal.isAnswer host) :=
    fun o ho ↦ List.mem_filter.mpr ⟨ho, by simp [Signal.isAnswer]⟩
  have h := hmem outcome h
  have h' := hmem outcome' h'
  cases hfilter : σs.filter (Signal.isAnswer host) with
  | nil =>
    rw [hfilter] at h
    cases h
  | cons σ rest =>
    rw [hfilter, List.length_cons] at hle
    have hrest : rest = [] := List.eq_nil_of_length_eq_zero (by omega)
    rw [hfilter, hrest, List.mem_singleton] at h h'
    cases h.trans h'.symm
    rfl

/-- The agents of a run. -/
structure Monitored (j : Job) (l : Launch) (σs : List Signal) (os : List RunOrder) (x : Course) :
    Prop where
  starts_le : ∀ host, os.count (.startAgent host) ≤ 1
  /-- When a start is ordered, the run has not been cancelled and the host is done. -/
  first : ∀ now host, .startAgent host ∈ firstOrders j l now → l.cancelled = false ∧
    ∀ y ∈ (launch j l now).control.report.stepsOfHost host, y.state = .succeeded
  later : ∀ now σ host, x.CanHear σ → .startAgent host ∈ x.orders j now σ →
    (l.cancelled = false ∧ .cancel ∉ σ :: σs) ∧
    ∀ y ∈ (x.hear j now σ).control.report.stepsOfHost host, y.state = .succeeded
  unaffected : ∀ now host outcome, x.CanHear (.message (.agentDone host outcome)) →
    (x.hear j now (.message (.agentDone host outcome))).control.report.unmonitored =
      x.control.report.unmonitored
  answered : l.cancelled = false → .cancel ∉ σs → x.control.isOver = true →
    ∀ g ∈ x.control.report.hosts, g.state = .succeeded →
    ∃ outcome, .message (.agentDone g.address outcome) ∈ σs
  healthy : l.cancelled = false → .cancel ∉ σs → ∀ g ∈ x.control.report.hosts,
    ∀ health, .message (.agentDone g.address (.ok health)) ∈ σs →
    g.state = .succeeded ∧ g.agentHealth = some .healthy ∧ g.monitoringDegraded = false
  unhealthy : l.cancelled = false → .cancel ∉ σs → ∀ g ∈ x.control.report.hosts,
    ∀ fault, .message (.agentDone g.address (.error fault)) ∈ σs →
    g.state = .succeeded ∧ g.agentHealth = some .unhealthy ∧ g.monitoringDegraded = true
  silent : l.cancelled = false → .cancel ∉ σs → ∀ g ∈ x.control.report.hosts,
    g.state ≠ .succeeded → g.agentHealth = none ∧ g.monitoringDegraded = false
  exitCode : x.control.isOver = true → ∀ now,
    ((x.finish j now).control.report.exitCode = 0 ↔ l.cancelled = false ∧ .cancel ∉ σs ∧
      ∀ g ∈ (x.finish j now).control.report.hosts,
        g.state = .succeeded ∧ g.agentHealth = some .healthy)

section Uncancelled

variable (hp : j.plan.WellFormed) (hinventory : j.inventory.Accepted) (h : Reached j l σs x)
  (hgo : x.control.cancelled = false) {g : HostRecord} (hg : g ∈ x.control.report.hosts)
include hp hinventory h

theorem Reached.hostState_of_mem (hg : g ∈ x.control.report.hosts) :
    x.control.report.hostState g.address = some g.state := by
  refine Report.hostState_of_mem ?_ hg
  rw [(h.sound_any hp).invariant.steady.sound.addresses_eq]
  exact hinventory.nodup_addresses

include hgo hg

theorem Reached.reported {outcome : Result AgentHealth}
    (hmem : .message (.agentDone g.address outcome) ∈ σs) :
    g.state = .succeeded ∧ g.agentHealth = some (Control.agentReport outcome).1 ∧
      g.monitoringDegraded = (Control.agentReport outcome).2 := by
  have htended := h.tended hp
  have hpos : 0 < σs.countP (Signal.isAnswer g.address) :=
    List.countP_pos_iff.mpr ⟨_, hmem, by simp [Signal.isAnswer]⟩
  have hsucceeded := htended.succeeded g.address (by omega)
  rw [h.hostState_of_mem hp hinventory hg, Option.some.injEq] at hsucceeded
  refine ⟨hsucceeded, ?_⟩
  rcases (h.attended hp hgo).reported _ _ _ (Report.mem_agents hg) with
    ⟨outcome', hmem', heq⟩ | ⟨hzero, -⟩
  · rwa [answer_unique htended hinventory hmem hmem']
  · omega

theorem Reached.silent (hnot : g.state ≠ .succeeded) :
    g.agentHealth = none ∧ g.monitoringDegraded = false := by
  rcases (h.attended hp hgo).reported _ _ _ (Report.mem_agents hg) with
    ⟨outcome, hmem, -⟩ | ⟨-, heq⟩
  · exact absurd (h.reported hp hinventory hgo hg hmem).1 hnot
  · exact heq

theorem Reached.answered (hagents : j.agents = true) (hover : x.control.isOver = true)
    (hstate : g.state = .succeeded) : ∃ outcome, .message (.agentDone g.address outcome) ∈ σs := by
  have hmem : g.address ∈ j.inventory.addresses := by
    rw [← (h.sound_any hp).invariant.steady.sound.addresses_eq]
    exact List.mem_map_of_mem hg
  have hbegun := (h.attended hp hgo).begun hagents g.address hmem
    ((h.hostState_of_mem hp hinventory hg).trans (congrArg some hstate))
  obtain ⟨-, -, hstarts, -⟩ := Control.isOver_iff.mp hover
  rw [hstarts, List.count_nil, Nat.add_zero] at hbegun
  obtain ⟨σ, hσ, hanswer⟩ := List.countP_pos_iff.mp (hbegun.resolve_left List.not_mem_nil)
  cases σ with
  | cancel => cases hanswer
  | message m =>
    cases m with
    | finished | retryDue => cases hanswer
    | agentDone host outcome =>
      obtain rfl : host = g.address := by simpa [Signal.isAnswer] using hanswer
      exact ⟨outcome, hσ⟩

end Uncancelled

theorem Reached.exitCode_eq_zero_iff (hp : j.plan.WellFormed) (hinventory : j.inventory.Accepted)
    (hagents : j.agents = true)
    (hanswers : ∀ host outcome, .message (.agentDone host outcome) ∈ σs →
      Fleet.Answers host outcome)
    (h : Reached j l σs x) (hover : x.control.isOver = true) (now : Moment) :
    (x.finish j now).control.report.exitCode = 0 ↔ l.cancelled = false ∧ .cancel ∉ σs ∧
      ∀ g ∈ (x.finish j now).control.report.hosts,
        g.state = .succeeded ∧ g.agentHealth = some .healthy := by
  have hsound := h.sound_any hp
  have hcancelled : x.control.report.cancelled = false ↔ l.cancelled = false ∧ .cancel ∉ σs := by
    rw [hsound.invariant.steady.cancelled_eq, hsound.going_iff]
  rw [Course.finish, finish_eq now hp hsound.invariant hover, Report.exitCode_eq_zero_iff]
  constructor
  · rintro ⟨-, hgo, hall⟩
    obtain ⟨hlaunch, hheard⟩ := hcancelled.mp hgo
    have hgo := hsound.going_iff.mpr ⟨hlaunch, hheard⟩
    refine ⟨hlaunch, hheard, fun g hg ↦ ?_⟩
    obtain ⟨hstate, hwell⟩ := hall g hg
    obtain ⟨outcome, hmem⟩ := h.answered hp hinventory hgo hg hagents hover hstate
    obtain ⟨-, hhealth, hdegraded⟩ := h.reported hp hinventory hgo hg hmem
    cases outcome with
    | ok health =>
      obtain rfl := (hanswers _ _ hmem).healthy
      exact ⟨hstate, hhealth⟩
    | error fault =>
      rw [hwell] at hdegraded
      cases hdegraded
  · rintro ⟨hlaunch, hheard, hall⟩
    have hgo := hsound.going_iff.mpr ⟨hlaunch, hheard⟩
    refine ⟨rfl, hcancelled.mpr ⟨hlaunch, hheard⟩, fun g hg ↦ ?_⟩
    obtain ⟨hstate, hwell⟩ := hall g hg
    obtain ⟨outcome, hmem⟩ := h.answered hp hinventory hgo hg hagents hover hstate
    obtain ⟨-, hhealth, hdegraded⟩ := h.reported hp hinventory hgo hg hmem
    cases outcome with
    | ok health => exact ⟨hstate, hdegraded⟩
    | error fault =>
      rw [hwell] at hhealth
      cases hhealth

/-- In every run an agent is started once on each host that succeeds, and the exit code tells
whether all went well. -/
theorem Ordered.monitored {steps : List Step} (hplan : Plan.ofSteps steps = .ok j.plan)
    (hinventory : j.inventory.Accepted) (hagents : j.agents = true)
    (hanswers : ∀ host outcome, .message (.agentDone host outcome) ∈ σs →
      Fleet.Answers host outcome)
    (h : Ordered j l σs os x) : x.Monitored j l σs os := by
  have hp := Plan.wellFormed_of_ofSteps hplan
  have hreached := reached_iff.mpr ⟨os, h⟩
  have hsound := hreached.sound_any hp
  refine ⟨?_, ?_, ?_, ?_, ?_, ?_, ?_, ?_,
    fun hover ↦ hreached.exitCode_eq_zero_iff hp hinventory hagents hanswers hover⟩
  · intro host
    have hone := List.nodup_iff_count_le_one.mp hinventory.nodup_addresses host
    rw [h.count_startAgent]
    exact ((hreached.tended hp).starts_le host).trans hone
  · intro now host hmem
    refine ⟨not_cancelled_of_firstOrders hmem, ?_⟩
    exact (Reached.launch (l := l) now).succeeded_of_order hp (outside_launch j l now) hmem
  · intro now σ host hσ hmem
    refine ⟨hsound.not_cancelled_of_orders hp hσ hmem, ?_⟩
    exact (hreached.hear now hσ).succeeded_of_order hp (outside_hear j now x σ) hmem
  · intro now host outcome _
    exact hsound.unmonitored_agentDone outcome
  · intro hlaunch hheard hover g hg hstate
    have hgo := hsound.going_iff.mpr ⟨hlaunch, hheard⟩
    exact hreached.answered hp hinventory hgo hg hagents hover hstate
  · intro hlaunch hheard g hg health hmem
    have hgo := hsound.going_iff.mpr ⟨hlaunch, hheard⟩
    obtain rfl := (hanswers _ _ hmem).healthy
    exact hreached.reported hp hinventory hgo hg hmem
  · intro hlaunch hheard g hg fault hmem
    have hgo := hsound.going_iff.mpr ⟨hlaunch, hheard⟩
    exact hreached.reported hp hinventory hgo hg hmem
  · intro hlaunch hheard g hg hnot
    have hgo := hsound.going_iff.mpr ⟨hlaunch, hheard⟩
    exact hreached.silent hp hinventory hgo hg hnot

/-- On the host `b` an agent is started, on the host `a` it cannot be. -/
theorem monitored_trio :
    let refused : Fault := .connect "a" "refused"
    let heard : List Signal :=
      [.message (.agentDone "a"
          (.error (.agentStart "a" ("start command failed: " ++ refused.message)))),
        .message (.finished 2 (.ok false)), .message (.agentDone "b" (.ok .healthy)),
        .message (.finished 0 (.ok false)), .message (.finished 1 (.ok true))]
    ∃ os, (play (.trio 2) ⟨"run", .origin, false⟩ .origin heard).Monitored (.trio 2)
      ⟨"run", .origin, false⟩ heard os := by
  intro refused heard
  have hreached : Reached (.trio 2) ⟨"run", .origin, false⟩ heard
      (play (.trio 2) ⟨"run", .origin, false⟩ .origin heard) :=
    .hear _ (.hear _ (.hear _ (.hear _ (.hear _ (.launch _) (by decide)) (by decide)) (by decide))
      (by decide)) (by decide)
  obtain ⟨os, hordered⟩ := reached_iff.mp hreached
  refine ⟨os, Ordered.monitored (Job.ofSteps_trio 2) (Job.accepted_trio 2) rfl ?_ hordered⟩
  intro host outcome hmem
  simp only [heard, List.mem_cons, Signal.message.injEq, RunMessage.agentDone.injEq,
    reduceCtorEq, List.not_mem_nil, or_false, false_or] at hmem
  rcases hmem with ⟨rfl, rfl⟩ | ⟨rfl, rfl⟩
  · exact Fleet.answers_failed "a" refused
  · exact Fleet.answers_healthy "b"

end Course

end Rollout
