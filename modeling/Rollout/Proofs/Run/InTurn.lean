import Rollout.Proofs.Plan.Order
import Rollout.Proofs.Run.Monitored

namespace Rollout

variable {j : Job} {told : Outcomes} {l : Launch} {now : Moment} {u : Outside} {r r' : Report}
  {done pre post : List Nat} {i : Nat} {σs : List Signal} {os : List RunOrder}

def RunOrder.attempted : RunOrder → Option Nat
  | .attempt id => some id
  | _ => none

theorem Outside.retries_foldl_obey (u : Outside) (h : ∀ id delay, .retryLater id delay ∉ os) :
    (os.foldl obey u).retries = u.retries := by
  induction os generalizing u with
  | nil => rfl
  | cons o os ih =>
    rw [List.foldl_cons, ih _ fun id delay hmem ↦ h id delay (List.mem_cons_of_mem o hmem)]
    cases o with
    | retryLater id delay => exact absurd List.mem_cons_self (h id delay)
    | attempt | startAgent | abandonAgent => rfl

/-- Steps have ended or have been skipped from one report to another, and nothing else. -/
def Report.MovesOn (r r' : Report) : Prop :=
  ∀ i, r'.stepState i = r.stepState i ∨
    r.stepState i = some .pending ∧ r'.stepState i = some .skipped ∨
    r.stepState i = some .inProgress ∧
      (r'.stepState i = some .succeeded ∨ r'.stepState i = some .failed)

/-- How far a run has come in the order of its plan: the steps up to some point have been begun or
skipped, those after it are pending or skipped. -/
structure Job.Split (j : Job) (r : Report) (done pre post : List Nat) : Prop where
  order_eq : j.plan.order = pre ++ post
  done_eq : done = pre.filter fun i ↦ r.stepState i ≠ some .skipped
  passed : ∀ i ∈ pre, r.stepState i ≠ some .pending
  ahead : ∀ i ∈ post, r.stepState i = some .pending ∨ r.stepState i = some .skipped

def Job.InTurn (j : Job) (r : Report) (done : List Nat) : Prop :=
  ∃ pre post, j.Split r done pre post

namespace Job

theorem Split.movesOn (h : j.Split r done pre post) (hmoves : r.MovesOn r') :
    j.Split r' done pre post where
  order_eq := h.order_eq
  done_eq := by
    rw [h.done_eq]
    refine List.filter_congr fun i hi ↦ ?_
    have hpassed := h.passed i hi
    rcases hmoves i with heq | ⟨hpending, -⟩ | ⟨hbegun, hended⟩
    · rw [heq]
    · exact absurd hpending hpassed
    · rcases hended with hended | hended <;> simp [hbegun, hended]
  passed i hi := by
    have hpassed := h.passed i hi
    rcases hmoves i with heq | ⟨hpending, -⟩ | ⟨-, hended⟩
    · rwa [heq]
    · exact absurd hpending hpassed
    · rcases hended with hended | hended <;> simp [hended]
  ahead i hi := by
    rcases hmoves i with heq | ⟨-, hskipped⟩ | ⟨hbegun, -⟩
    · rw [heq]
      exact h.ahead i hi
    · exact .inr hskipped
    · rcases h.ahead i hi with hi | hi <;> simp [hbegun] at hi

theorem inTurn_start {steps : List Step} (hplan : Plan.ofSteps steps = .ok j.plan)
    (runId : String) (now : Moment) :
    j.InTurn (.start runId now j.plan j.inventory) [] := by
  have hp := Plan.wellFormed_of_ofSteps hplan
  refine ⟨[], j.plan.order, rfl, rfl, by simp, fun i hi ↦ .inl ?_⟩
  obtain ⟨s, hs, rfl⟩ := Plan.exists_of_mem_order hplan hi
  rw [Report.stepState_start, hp.step?_of_mem hs, Option.map_some]

theorem Split.dispatched {mid : List Nat} (h : j.Split r done pre (mid ++ i :: post))
    (hnodup : j.plan.order.Nodup) (hmid : ∀ a ∈ mid, r.stepState a = some .skipped)
    (hpending : r.stepState i = some .pending) :
    j.Split (r.apply now i .dispatched).1 (done ++ [i]) (pre ++ mid ++ [i]) post := by
  have hself : (r.apply now i .dispatched).1.stepState i = some .inProgress :=
    Report.stepState_apply_self hpending
  have hother : ∀ a, a ≠ i → (r.apply now i .dispatched).1.stepState a = r.stepState a :=
    fun a ha ↦ Report.stepState_apply_of_ne ha
  have hpre : ∀ a ∈ pre, a ≠ i := fun a ha he ↦ h.passed a ha (he ▸ hpending)
  have hskipped : ∀ a ∈ mid, a ≠ i := fun a ha he ↦ by
    rw [he] at ha
    cases hpending.symm.trans (hmid i ha)
  have hpost : ∀ a ∈ post, a ≠ i := by
    rw [h.order_eq, List.nodup_append, List.nodup_append, List.nodup_cons] at hnodup
    exact fun a ha he ↦ hnodup.2.1.2.1.1 (he ▸ ha)
  refine ⟨by simp [h.order_eq], ?_, fun a ha ↦ ?_, fun a ha ↦ ?_⟩
  · have hleft : pre.filter (fun a ↦ (r.apply now i .dispatched).1.stepState a ≠ some .skipped) =
        done := by
      rw [h.done_eq]
      exact List.filter_congr fun a ha ↦ by rw [hother a (hpre a ha)]
    have hnone : mid.filter (fun a ↦ (r.apply now i .dispatched).1.stepState a ≠ some .skipped) =
        [] := by
      refine List.filter_eq_nil_iff.mpr fun a ha ↦ ?_
      rw [hother a (hskipped a ha)]
      simp [hmid a ha]
    rw [List.filter_append, List.filter_append, hleft, hnone]
    simp [hself]
  · simp only [List.mem_append, List.mem_singleton] at ha
    rcases ha with (ha | ha) | rfl
    · rw [hother a (hpre a ha)]
      exact h.passed a ha
    · rw [hother a (hskipped a ha), hmid a ha]
      simp
    · rw [hself]
      simp
  · rw [hother a (hpost a ha)]
    exact h.ahead a (by simp [ha])

section Positions

variable {steps : List Step} (hplan : Plan.ofSteps steps = .ok j.plan)
  (h : j.Split r done pre post) {s : Step} (hs : s ∈ j.plan.steps)
include hplan h hs

theorem Split.mem_pre (hpending : r.stepState s.id ≠ some .pending)
    (hskipped : r.stepState s.id ≠ some .skipped) : s.id ∈ pre := by
  have hmem := Plan.mem_order hplan hs
  rw [h.order_eq] at hmem
  exact (List.mem_append.mp hmem).resolve_right fun hpost ↦
    (h.ahead s.id hpost).elim hpending hskipped

theorem Split.exists_next (hpending : r.stepState s.id = some .pending) :
    ∃ mid i rest, post = mid ++ i :: rest ∧ (∀ a ∈ mid, r.stepState a = some .skipped) ∧
      r.stepState i = some .pending := by
  have hmem := Plan.mem_order hplan hs
  rw [h.order_eq] at hmem
  have hpost : s.id ∈ post :=
    (List.mem_append.mp hmem).resolve_left fun hpre ↦ h.passed s.id hpre hpending
  have hsome : (post.find? fun a ↦ r.stepState a ≠ some .skipped).isSome = true :=
    List.find?_isSome.mpr ⟨s.id, hpost, by simp [hpending]⟩
  obtain ⟨i, hi⟩ := Option.isSome_iff_exists.mp hsome
  obtain ⟨hnot, mid, rest, rfl, hmid⟩ := List.find?_eq_some_iff_append.mp hi
  refine ⟨mid, i, rest, rfl, by simpa using hmid, ?_⟩
  exact (h.ahead i (by simp)).resolve_right (by simpa using hnot)

end Positions

theorem InTurn.movesOn (h : j.InTurn r done) (hmoves : r.MovesOn r') : j.InTurn r' done := by
  obtain ⟨pre, post, h⟩ := h
  exact ⟨pre, post, h.movesOn hmoves⟩

end Job

namespace Control

variable {c : Control} {id : Nat} {m : RunMessage}

def attempted (c : Control) : List Nat := c.outbox.filterMap RunOrder.attempted

theorem attempted_order (o : RunOrder) :
    (c.order o).attempted = c.attempted ++ o.attempted.toList := by
  simp only [attempted, order, List.filterMap_append]
  cases o <;> rfl

theorem attempted_startAgent (host : String) : (c.startAgent j host).attempted = c.attempted := by
  unfold startAgent
  split
  · rfl
  · rw [attempted_order]
    exact List.append_nil _

theorem attempted_hostChanged (host : String) (change : Option Status) :
    (c.hostChanged j host change).attempted = c.attempted := by
  unfold hostChanged
  split
  · exact attempted_startAgent host
  · rfl

section Dispatch

variable {steps : List Step} (hplan : Plan.ofSteps steps = .ok j.plan) (hone : j.workers = 1)
  (hinv : c.Invariant j told l (c.under u)) (hgo : c.cancelled = false)
  (hfree : c.inFlight < j.workers)
include hplan hone hinv hgo hfree

theorem canBegin_next {mid rest : List Nat} (h : j.Split c.report done pre (mid ++ i :: rest))
    (hmid : ∀ a ∈ mid, c.report.stepState a = some .skipped)
    (hi : c.report.stepState i = some .pending) : j.CanBegin c.report i := by
  have hp := Plan.wellFormed_of_ofSteps hplan
  have hidle : (c.under u).attempts = [] := by
    rw [← List.length_eq_zero_iff, ← hinv.steady.inFlight_eq]
    omega
  have horder : j.plan.order = (pre ++ mid) ++ i :: rest := by
    rw [h.order_eq, List.append_assoc]
  refine ⟨hi, fun a ha ↦ ?_⟩
  have hnot : ¬ c.report.IsLost a := fun hlost ↦ by
    cases hi.symm.trans ((hinv.going hgo).contagion a i ha hlost)
  obtain ⟨y, hy, rfl⟩ := hp.exists_of_precedes ha
  obtain ⟨x, hx⟩ := hinv.steady.stepState_of_mem hp hy
  rw [hx]
  cases x with
  | succeeded => rfl
  | pending =>
    rcases List.mem_append.mp ((Plan.order_eq_append hplan horder).1 y.id ha) with hmem | hmem
    · exact absurd hx (h.passed y.id hmem)
    · cases hx.symm.trans (hmid y.id hmem)
  | inProgress =>
    have hmem := (hinv.steady.mem_attempts y.id).mpr hx
    rw [hidle] at hmem
    cases hmem
  | failed => exact absurd (.inl hx) hnot
  | skipped => exact absurd (.inr hx) hnot

theorem inTurn_dispatched (now : Moment) (hretries : (c.under u).retries = []) {ready : List Nat}
    (hready : c.ready = id :: ready) (h : j.InTurn c.report done) :
    j.InTurn (c.report.apply now id .dispatched).1 (done ++ [id]) := by
  obtain ⟨pre, post, h⟩ := h
  have hp := Plan.wellFormed_of_ofSteps hplan
  have hopen := hinv.going hgo
  obtain ⟨hpending, hall⟩ := (hopen.frontier id).mp (.inl (by simp [hready]))
  obtain ⟨s, hs, rfl⟩ := hinv.steady.step?_of_stepState hp hpending
  have hs := List.mem_of_getElem? hs
  obtain ⟨mid, i, rest, rfl, hmid, hi⟩ := h.exists_next hplan hs hpending
  have horder : j.plan.order = (pre ++ mid) ++ i :: rest := by
    rw [h.order_eq, List.append_assoc]
  have hle : s.id ≤ i := by
    have hcan := canBegin_next hplan hone hinv hgo hfree h hmid hi
    have hmem : i ∈ c.ready := ((hopen.frontier i).mpr hcan).resolve_right (by simp [hretries])
    have hinc := hopen.increasing
    rw [hready] at hmem hinc
    rcases List.mem_cons.mp hmem with rfl | hmem
    · exact Nat.le_refl _
    · exact Nat.le_of_lt (List.rel_of_pairwise_cons hinc hmem)
  have hge : i ≤ s.id := by
    refine (Plan.order_eq_append hplan horder).2 s hs ?_ fun a ha ↦ ?_
    · rw [List.mem_append, not_or]
      exact ⟨fun hmem ↦ h.passed s.id hmem hpending,
        fun hmem ↦ by cases hpending.symm.trans (hmid s.id hmem)⟩
    · have hprecedes := (hp.precedes_iff hs).mpr ha
      have hsucceeded := hall a hprecedes
      obtain ⟨y, hy, rfl⟩ := hp.exists_of_precedes hprecedes
      refine List.mem_append_left mid (h.mem_pre hplan hy ?_ ?_) <;> simp [hsucceeded]
  obtain rfl : i = s.id := Nat.le_antisymm hge hle
  exact ⟨_, _, h.dispatched (Plan.nodup_order hplan) hmid hpending⟩

end Dispatch

theorem foldl_startAgent_kept (hosts : List String) (c : Control) :
    (hosts.foldl (fun c host ↦ c.startAgent j host) c).report = c.report ∧
      (hosts.foldl (fun c host ↦ c.startAgent j host) c).attempted = c.attempted := by
  induction hosts generalizing c with
  | nil => exact ⟨rfl, rfl⟩
  | cons host hosts ih =>
    obtain ⟨hreport, hattempted⟩ := ih (c.startAgent j host)
    have hbare := bare_startAgent (j := j) (c := c) host
    exact ⟨hreport.trans (congrArg Control.report hbare :),
      hattempted.trans (attempted_startAgent host)⟩

theorem mem_outbox_fill (hp : j.plan.WellFormed) (now : Moment)
    (hinv : c.Invariant j told l (c.under u)) {o : RunOrder} (ho : o ∈ c.outbox) :
    o ∈ (c.fill j now).outbox := by
  refine (hinv.dispatchReady_induct now hp (P := fun c ↦ o ∈ c.outbox) ?_ c.ready.length ho).2
  intro c id ready hinv ho hready hgo _
  rw [hinv.dispatch_eq hp hgo hready]
  exact List.mem_append_left _ ho

theorem inTurn_fill {steps : List Step} (hplan : Plan.ofSteps steps = .ok j.plan)
    (hone : j.workers = 1) (now : Moment) (hinv : c.Invariant j told l (c.under u))
    (hretries : (c.under u).retries = []) (h : j.InTurn c.report (done ++ c.attempted)) :
    ((c.fill j now).under u).retries = [] ∧
      j.InTurn (c.fill j now).report (done ++ (c.fill j now).attempted) := by
  have hp := Plan.wellFormed_of_ofSteps hplan
  refine (hinv.dispatchReady_induct now hp
    (P := fun c ↦ (c.under u).retries = [] ∧ j.InTurn c.report (done ++ c.attempted)) ?_
    c.ready.length ⟨hretries, h⟩).2
  intro c id ready hinv ⟨hretries, h⟩ hready hgo hfree
  have hturn := inTurn_dispatched hplan hone hinv hgo hfree now hretries hready h
  rw [hinv.dispatch_eq hp hgo hready, under_order, attempted_order]
  exact ⟨hretries, List.append_assoc .. ▸ hturn⟩

theorem movesOn_handle (hp : j.plan.WellFormed) (now : Moment) (hinv : c.Invariant j told l u)
    (hm : u.Expects m) (hretries : u.retries = [])
    (hnone : ∀ id delay, .retryLater id delay ∉ (c.handle j now m).outbox) :
    c.report.MovesOn (c.handle j now m).report ∧
      (c.handle j now m).attempted = c.attempted := by
  cases m with
  | retryDue id =>
    have hmem : id ∈ u.retries := hm
    rw [hretries] at hmem
    cases hmem
  | agentDone host outcome =>
    rw [handle_agentDone]
    split <;> exact ⟨fun _ ↦ .inl rfl, rfl⟩
  | finished id outcome =>
    have hbegun := (hinv.steady.mem_attempts id).mp hm
    obtain ⟨s, hs, hid⟩ := hinv.steady.step?_of_stepState hp hbegun
    have hended : ∀ e i, (c.ended now id e).report.stepState i =
        if i = id then some (Status.next .inProgress e).1 else c.report.stepState i := by
      intro e i
      rw [ended, report_write, Report.change_event, Report.stepState_apply]
      split
      · rename_i hi
        simp [hi, hbegun]
      · rfl
    cases outcome with
    | ok b =>
      rw [handle_completed hs hid hbegun, report_hostChanged, attempted_hostChanged,
        foldl_releaseStep_eq]
      refine ⟨fun i ↦ ?_, rfl⟩
      by_cases hi : i = id
      · exact .inr (.inr ⟨hi ▸ hbegun, .inl ((hended _ i).trans (by simp [hi, Status.next]))⟩)
      · exact .inl ((hended _ i).trans (if_neg hi))
    | error fault =>
      rcases handle_error hs hid hbegun fault with ⟨-, delay, -, heq⟩ | ⟨-, heq⟩
      · rw [heq] at hnone
        exact absurd (by simp [order]) (hnone id delay)
      · have hframe := frame_skipDependents j now id s.label
          (c.ended now id (.failed fault.message none))
        rw [heq]
        refine ⟨fun i ↦ ?_, (congrArg attempted hframe :)⟩
        rw [skipDependents, stepState_foldl_skipStep, hended]
        by_cases hi : i = id
        · simp [hi, hbegun, Status.next]
        · simp only [hi, if_false]
          split
          · rename_i hskipped
            exact .inr (.inl ⟨hskipped.2, rfl⟩)
          · exact .inl rfl

end Control

namespace Course

variable {x : Course}

theorem inTurn_turn {steps : List Step} (hplan : Plan.ofSteps steps = .ok j.plan)
    (hone : j.workers = 1) (now : Moment) (done : List Nat) {c : Control}
    (hinv : c.Invariant j told l (c.under u)) (hretries : u.retries = [])
    (honce : ∀ id delay, .retryLater id delay ∉ (c.fill j now).outbox)
    (hturn : j.InTurn c.report (done ++ c.attempted)) :
    (turn j now c u).outside.retries = [] ∧
      j.InTurn (turn j now c u).control.report (done ++ (c.fill j now).attempted) := by
  have hp := Plan.wellFormed_of_ofSteps hplan
  have hunder : (c.under u).retries = [] := by
    rw [Control.under, Outside.retries_foldl_obey, hretries]
    exact fun id delay hmem ↦ honce id delay (Control.mem_outbox_fill hp now hinv hmem)
  exact Control.inTurn_fill hplan hone now hinv hunder hturn

theorem Ordered.inTurn_soFar {steps : List Step} (hplan : Plan.ofSteps steps = .ok j.plan)
    (hone : j.workers = 1) (hlaunch : l.cancelled = false) (h : Ordered j l σs os x)
    (hheard : .cancel ∉ σs) (honce : ∀ id delay, .retryLater id delay ∉ os) :
    x.outside.retries = [] ∧ j.InTurn x.control.report (os.filterMap RunOrder.attempted) := by
  have hp := Plan.wellFormed_of_ofSteps hplan
  induction h with
  | launch now =>
    obtain ⟨hinv, -⟩ := Control.start_kept now (fun _ _ _ ↦ True) l hp
    have hstart : (Control.initial j l.runId l.createdAt).start j now l.cancelled =
        ((Control.initial j l.runId l.createdAt).report.succeededHosts.foldl
          (fun c host ↦ c.startAgent j host) (Control.initial j l.runId l.createdAt)) := by
      rw [Control.start, hlaunch]
      rfl
    obtain ⟨hreport, hattempted⟩ := Control.foldl_startAgent_kept (j := j)
      (Control.initial j l.runId l.createdAt).report.succeededHosts
      (Control.initial j l.runId l.createdAt)
    refine inTurn_turn hplan hone now [] hinv rfl honce ?_
    rw [hstart, hreport, hattempted]
    exact Job.inTurn_start hplan l.runId l.createdAt
  | @hear now σs os x σ hordered hσ ih =>
    have honce' : ∀ id delay, .retryLater id delay ∉ os := fun id delay hmem ↦
      honce id delay (List.mem_append_left _ hmem)
    obtain ⟨hne, hheard⟩ := not_or.mp (List.mem_cons.not.mp hheard)
    obtain ⟨hretries, hturn⟩ := ih hheard honce'
    have hsound := (reached_iff.mpr ⟨_, hordered⟩).sound_any hp
    cases σ with
    | cancel => exact absurd rfl hne
    | message m =>
      have hinv : (x.control.handle j now m).Invariant j (fun _ _ _ ↦ True) l
          ((x.control.handle j now m).under (x.outside.hear (.message m))) :=
        hsound.invariant.handle hp hsound.outbox_eq hσ.2 fun _ _ _ ↦ trivial
      obtain ⟨hmoves, hattempted⟩ := Control.movesOn_handle hp now hsound.invariant hσ.2 hretries
        fun id delay hmem ↦ honce id delay
          (List.mem_append_right _ (Control.mem_outbox_fill hp now hinv hmem))
      rw [List.filterMap_append]
      refine inTurn_turn hplan hone now (os.filterMap RunOrder.attempted) hinv ?_ ?_ ?_
      · cases m <;> simp [Outside.hear, hretries]
      · exact fun id delay hmem ↦ honce id delay (List.mem_append_right _ hmem)
      · have hnone : x.control.attempted = [] := by rw [Control.attempted, hsound.outbox_eq]; rfl
        rw [respond, hattempted, hnone, List.append_nil]
        exact hturn.movesOn hmoves
  | finish now hordered hover _ ih =>
    have hsound := (reached_iff.mpr ⟨_, hordered⟩).sound_any hp
    obtain ⟨hretries, hturn⟩ := ih hheard honce
    rw [Course.finish, finish_eq now hp hsound.invariant hover]
    exact ⟨hretries, hturn.movesOn fun _ ↦ .inl rfl⟩

/-- A run with one worker in which nothing is repeated begins the steps in the order of the plan,
without those that are skipped in the end. -/
theorem Ordered.attempted_eq {steps : List Step} (hplan : Plan.ofSteps steps = .ok j.plan)
    (hone : j.workers = 1) (hlaunch : l.cancelled = false) (hheard : .cancel ∉ σs)
    (honce : ∀ id delay, .retryLater id delay ∉ os) (h : Ordered j l σs os x)
    (hover : x.control.isOver = true) :
    os.filterMap RunOrder.attempted =
        j.plan.order.filter (fun i ↦ x.control.report.stepState i ≠ some .skipped) ∧
      ((∀ s ∈ j.plan.steps, x.control.report.stepState s.id = some .succeeded) →
        os.filterMap RunOrder.attempted = j.plan.order) := by
  have hp := Plan.wellFormed_of_ofSteps hplan
  have hsound := (reached_iff.mpr ⟨_, h⟩).sound_any hp
  obtain ⟨-, pre, post, hsplit⟩ := h.inTurn_soFar hplan hone hlaunch hheard honce
  have heq : os.filterMap RunOrder.attempted =
      j.plan.order.filter (fun i ↦ x.control.report.stepState i ≠ some .skipped) := by
    have hnone : post.filter (fun i ↦ x.control.report.stepState i ≠ some .skipped) = [] := by
      refine List.filter_eq_nil_iff.mpr fun i hi ↦ ?_
      rcases hsplit.ahead i hi with hpending | hskipped
      · cases hsound.invariant.terminal_of_isOver hp hover hpending
      · simp [hskipped]
    rw [hsplit.done_eq, hsplit.order_eq, List.filter_append, hnone, List.append_nil]
  refine ⟨heq, fun hall ↦ heq.trans (List.filter_eq_self.mpr fun i hi ↦ ?_)⟩
  obtain ⟨s, hs, rfl⟩ := Plan.exists_of_mem_order hplan hi
  simp [hall s hs]

/-- The second step of the trio fails, so that the third one is left out. -/
theorem attempted_trio :
    let heard : List Signal :=
      [.message (.finished 1 (.error (.exec "b" 1 "disk full"))),
        .message (.finished 0 (.ok false))]
    let x := play (.trio 1) ⟨"run", .origin, false⟩ .origin heard
    ∃ os, Ordered (.trio 1) ⟨"run", .origin, false⟩ heard os x ∧
      os.filterMap RunOrder.attempted = [0, 1] ∧
      os.filterMap RunOrder.attempted =
        [0, 1, 2].filter fun i ↦ x.control.report.stepState i ≠ some .skipped := by
  intro heard x
  have hordered : Ordered (.trio 1) ⟨"run", .origin, false⟩ heard _ x :=
    .hear _ (.hear _ (.launch _) (by decide)) (by decide)
  refine ⟨_, hordered, by decide, (Ordered.attempted_eq (Job.ofSteps_trio 1) rfl rfl ?_ ?_ hordered
    (by decide)).1⟩
  · simp [heard]
  · intro id delay hmem
    revert hmem
    exact List.not_mem_cons_of_ne_of_not_mem nofun (List.not_mem_cons_of_ne_of_not_mem nofun nofun)

end Course

end Rollout
