import Rollout.Proofs.Run.Reached

namespace Rollout

variable {j : Job} {told : Outcomes} {l : Launch} {now : Moment} {u u' : Outside}
  {σs : List Signal}

theorem Status.next_ne_succeeded {e : StepEvent} (he : ∀ b, e ≠ .completed b) (x : Status) :
    (x.next e).1 ≠ .succeeded := by
  cases e with
  | completed b => exact absurd rfl (he b)
  | failed t retryAfter => cases x <;> cases retryAfter <;> simp [Status.next]
  | dispatched | dependencyFailed | cancelled => cases x <;> simp [Status.next]

theorem Report.succeeded_of_apply {r : Report} {id : Nat} {e : StepEvent}
    (he : ∀ b, e ≠ .completed b) {host : String}
    (h : (r.apply now id e).1.hostState host = some .succeeded) :
    r.hostState host = some .succeeded := by
  refine (Report.hostState_of_apply h).resolve_right ?_
  rintro ⟨hchange, x, hx, -⟩
  refine Report.hostChange_ne_succeeded ?_ hchange
  have hstate : r.stepState id = some x.state := by simp [Report.stepState, hx]
  rw [Report.state_apply_of_eq hstate]
  exact Status.next_ne_succeeded he _

theorem Outside.count_starts_foldl_obey (os : List RunOrder) (u : Outside) (host : String) :
    (os.foldl obey u).starts.count host = u.starts.count host + os.count (.startAgent host) := by
  induction os generalizing u with
  | nil => rfl
  | cons o os ih =>
    rw [List.foldl_cons, ih, List.count_cons]
    cases o with
    | startAgent g =>
      simp only [obey, List.count_cons, beq_iff_eq, RunOrder.startAgent.injEq]
      omega
    | attempt | retryLater | abandonAgent => simp [obey]

namespace Control

variable {c c' c'' : Control} {id : Nat} {s : Step} {m : RunMessage}

theorem count_startAgent_order (o : RunOrder) (host : String) :
    (c.order o).outbox.count (.startAgent host) =
      c.outbox.count (.startAgent host) + if o = .startAgent host then 1 else 0 := by
  simp [order, List.count_append, List.count_singleton]

/-- From `c` to `c'` no host has succeeded, and nothing has happened to agents. -/
structure Quiet (c c' : Control) : Prop where
  agents : c'.report.agents = c.report.agents
  starts : c'.agentStarts = c.agentStarts
  cancelled : c'.cancelled = c.cancelled
  orders : ∀ host, c'.outbox.count (.startAgent host) = c.outbox.count (.startAgent host)
  succeeded : ∀ host, c'.report.hostState host = some .succeeded →
    c.report.hostState host = some .succeeded

namespace Quiet

theorem refl (c : Control) : c.Quiet c := ⟨rfl, rfl, rfl, fun _ ↦ rfl, fun _ hstate ↦ hstate⟩

theorem trans (h : c.Quiet c') (h' : c'.Quiet c'') : c.Quiet c'' where
  agents := h'.agents.trans h.agents
  starts := h'.starts.trans h.starts
  cancelled := h'.cancelled.trans h.cancelled
  orders host := (h'.orders host).trans (h.orders host)
  succeeded host hstate := h.succeeded host (h'.succeeded host hstate)

theorem write {e : StepEvent} (he : ∀ b, e ≠ .completed b) (c : Control) (id : Nat) :
    c.Quiet (c.write (.event now id e)) where
  agents := Report.agents_apply ..
  starts := rfl
  cancelled := rfl
  orders _ := rfl
  succeeded _ := Report.succeeded_of_apply he

theorem order {o : RunOrder} (ho : ∀ host, o ≠ .startAgent host) (c : Control) :
    c.Quiet (c.order o) where
  agents := rfl
  starts := rfl
  cancelled := rfl
  orders host := by rw [count_startAgent_order, if_neg (ho host), Nat.add_zero]
  succeeded _ hstate := hstate

theorem perform (j : Job) (now : Moment) (id : Nat) (label : String) (f : StepEffect)
    (c : Control) : c.Quiet (c.perform j now id label f) := by
  cases f with
  | scheduleRetry delay =>
    have hquiet : c.Quiet { c with waitingRetry := c.waitingRetry + 1 } :=
      ⟨rfl, rfl, rfl, fun _ ↦ rfl, fun _ hstate ↦ hstate⟩
    exact hquiet.trans (.order (by simp) _)
  | releaseDependents =>
    rw [Control.perform, foldl_releaseStep_eq]
    exact ⟨rfl, rfl, rfl, fun _ ↦ rfl, fun _ hstate ↦ hstate⟩
  | skipDependents =>
    refine foldl_skipStep_induct (P := c.Quiet) (.refl c) fun c' i _ hc' _ ↦ hc'.trans ?_
    have hquiet : c'.Quiet { c' with ready := c'.ready.filter fun r ↦ r ≠ i } :=
      ⟨rfl, rfl, rfl, fun _ ↦ rfl, fun _ hstate ↦ hstate⟩
    exact hquiet.trans (.write (by simp) _ i)
  | execute | recordError | recordSkip | logActivity => exact .refl c

theorem foldl_perform (j : Job) (now : Moment) (id : Nat) (label : String) (fs : List StepEffect)
    (c : Control) : c.Quiet (fs.foldl (Control.perform j now id label) c) := by
  induction fs generalizing c with
  | nil => exact .refl c
  | cons f fs ih => exact (perform j now id label f c).trans (ih _)

theorem dispatch (id : Nat) (c : Control) : c.Quiet (c.dispatch j now id) := by
  have hwrite : c.Quiet (c.write (.event now id .dispatched)) := .write (by simp) c id
  simp only [Control.dispatch, apply_fst]
  split
  · exact .refl c
  · split
    · exact ⟨hwrite.agents, rfl, rfl, (Quiet.order (by simp) c).orders, hwrite.succeeded⟩
    · exact hwrite

theorem fill (j : Job) (now : Moment) (c : Control) : c.Quiet (c.fill j now) := by
  have hrounds : ∀ (rounds : Nat) (c : Control), c.Quiet (c.dispatchReady j now rounds) := by
    intro rounds
    induction rounds with
    | zero => exact refl
    | succ rounds ih =>
      intro c
      rw [dispatchReady]
      split
      · exact .refl c
      · split
        · exact .refl c
        · rename_i id ready _
          have hquiet : c.Quiet { c with ready := ready } :=
            ⟨rfl, rfl, rfl, fun _ ↦ rfl, fun _ hstate ↦ hstate⟩
          exact (hquiet.trans (.dispatch id _)).trans (ih _)
  exact hrounds _ c

end Quiet

theorem exists_quiet_finished (now : Moment) (outcome : Result Bool)
    (hs : j.plan.step? id = some s) (hid : s.id = id) :
    ∃ d, (c.ended now id (c.outcomeEvent j s outcome)).Quiet d ∧
      c.handle j now (.finished id outcome) = d.hostChanged j s.host
        (c.report.apply now id (c.outcomeEvent j s outcome)).2.hostChange := by
  subst hid
  refine ⟨_, .foldl_perform j now s.id s.label
    (c.report.apply now s.id (c.outcomeEvent j s outcome)).2.effects _, ?_⟩
  simp only [handle, hs]
  rfl

/-- The accounts of agents of a run that has not been cancelled. The hosts `todo` have succeeded,
and the starts on them come next. -/
structure Attended (j : Job) (σs : List Signal) (u : Outside) (todo : List String) (c : Control) :
    Prop where
  awaited : ∀ host, c.agentStarts.count host =
    u.starts.count host + c.outbox.count (.startAgent host)
  begun : j.agents = true → ∀ host ∈ j.inventory.addresses,
    c.report.hostState host = some .succeeded →
    host ∈ todo ∨ 0 < σs.countP (Signal.isAnswer host) + c.agentStarts.count host
  reported : ∀ host health degraded, (host, health, degraded) ∈ c.report.agents →
    (∃ outcome, .message (.agentDone host outcome) ∈ σs ∧
      health = some (agentReport outcome).1 ∧ degraded = (agentReport outcome).2) ∨
    σs.countP (Signal.isAnswer host) = 0 ∧ health = none ∧ degraded = false

namespace Attended

variable {todo : List String}

theorem quiet (h : c.Attended j σs u todo) (hc : c.Quiet c') : c'.Attended j σs u todo where
  awaited host := by rw [hc.starts, hc.orders, h.awaited]
  begun hagents host hmem hstate := by
    rw [hc.starts]
    exact h.begun hagents host hmem (hc.succeeded host hstate)
  reported := by rw [hc.agents]; exact h.reported

theorem startAgent {host : String} (h : c.Attended j σs u (host :: todo))
    (hgo : c.cancelled = false) : (c.startAgent j host).Attended j σs u todo := by
  unfold Control.startAgent
  split
  · rename_i hnot
    refine ⟨h.awaited, fun hagents g hmem hstate ↦ ?_, h.reported⟩
    rcases h.begun hagents g hmem hstate with htodo | hpos
    · rcases List.mem_cons.mp htodo with rfl | htodo
      · -- no start is left out that there should be
        simp only [hgo, hagents, Bool.not_true, Bool.or_self, Bool.false_or,
          Option.isNone_iff_eq_none] at hnot
        obtain ⟨k, hk, rfl⟩ := List.mem_map.mp hmem
        exact absurd (List.find?_eq_none.mp hnot k hk) (by simp)
      · exact .inl htodo
    · exact .inr hpos
  · refine ⟨fun g ↦ ?_, fun hagents g hmem hstate ↦ ?_, h.reported⟩
    · have heq := h.awaited g
      rw [count_startAgent_order]
      change (c.agentStarts ++ [host]).count g = _
      rw [List.count_append, List.count_singleton, heq]
      simp only [beq_iff_eq, RunOrder.startAgent.injEq]
      omega
    · change _ ∨ 0 < _ + (c.agentStarts ++ [host]).count g
      rw [List.count_append, List.count_singleton]
      rcases h.begun hagents g hmem hstate with htodo | hpos
      · rcases List.mem_cons.mp htodo with rfl | htodo
        · exact .inr (by rw [if_pos (beq_self_eq_true _)]; omega)
        · exact .inl htodo
      · exact .inr (by omega)

theorem foldl_startAgent (h : c.Attended j σs u todo) (hgo : c.cancelled = false) :
    (todo.foldl (fun c host ↦ c.startAgent j host) c).Attended j σs u [] := by
  induction todo generalizing c with
  | nil => exact h
  | cons host todo ih =>
    refine ih (h.startAgent hgo) ?_
    exact (congrArg Control.cancelled (bare_startAgent (j := j) (c := c) host) :).trans hgo

theorem ended (h : c.Attended j σs u []) {e : StepEvent} {x : StepRecord}
    (hx : c.report.steps[id]? = some x) {todo : List String}
    (htodo : (c.report.apply now id e).2.hostChange = some .succeeded → x.host ∈ todo) :
    (c.ended now id e).Attended j σs u todo where
  awaited := h.awaited
  begun hagents host hmem hstate := by
    rcases Report.hostState_of_apply hstate with hold | ⟨hchange, y, hy, rfl⟩
    · exact .inr ((h.begun hagents host hmem hold).resolve_left List.not_mem_nil)
    · obtain rfl : x = y := Option.some.inj (hx.symm.trans hy)
      exact .inl (htodo hchange)
  reported := by
    have hagents : (c.ended now id e).report.agents = c.report.agents := Report.agents_apply ..
    rw [hagents]
    exact h.reported

theorem finished (hp : j.plan.WellFormed) (hinv : c.Invariant j told l u)
    (h : c.Attended j σs u []) (hgo : c.cancelled = false) (hid : id ∈ u.attempts)
    (outcome : Result Bool) : (c.handle j now (.finished id outcome)).Attended j σs u [] := by
  have hbegun := (hinv.steady.mem_attempts id).mp hid
  obtain ⟨s, hs, rfl⟩ := hinv.steady.step?_of_stepState hp hbegun
  obtain ⟨x, hx, -⟩ := Option.map_eq_some_iff.mp hbegun
  have hhost := ((hinv.steady.sound.holds hp).accounts s x hs hx).describes.host_eq
  obtain ⟨d, hquiet, heq⟩ := exists_quiet_finished (c := c) now outcome hs rfl
  rw [heq, Control.hostChanged]
  split
  · have hended : (c.ended now s.id (c.outcomeEvent j s outcome)).Attended j σs u [s.host] :=
      h.ended hx fun _ ↦ by simp [hhost]
    exact (hended.quiet hquiet).startAgent (hquiet.cancelled.trans hgo)
  · rename_i hnot
    have hended : (c.ended now s.id (c.outcomeEvent j s outcome)).Attended j σs u [] :=
      h.ended hx fun hchange ↦ absurd hchange hnot
    exact hended.quiet hquiet

theorem heard (h : c.Attended j σs u todo) {σ : Signal}
    (hσ : ∀ host, Signal.isAnswer host σ = false) (hstarts : u'.starts = u.starts) :
    c.Attended j (σ :: σs) u' todo := by
  have hcount : ∀ host, (σ :: σs).countP (Signal.isAnswer host) =
      σs.countP (Signal.isAnswer host) := by
    intro host
    rw [List.countP_cons, if_neg (by simp [hσ]), Nat.add_zero]
  refine ⟨by rw [hstarts]; exact h.awaited, ?_, ?_⟩
  · intro hagents host hmem hstate
    rw [hcount]
    exact h.begun hagents host hmem hstate
  · intro host health degraded hmem
    rw [hcount]
    refine (h.reported host health degraded hmem).imp_left ?_
    rintro ⟨outcome, hout, hreported⟩
    exact ⟨outcome, List.mem_cons_of_mem _ hout, hreported⟩

theorem agentDone (h : c.Attended j σs u []) (hempty : c.outbox = []) {host : String}
    (hm : host ∈ u.starts) (outcome : Result AgentHealth) :
    (c.handle j now (.agentDone host outcome)).Attended j
      (.message (.agentDone host outcome) :: σs) { u with starts := u.starts.erase host } [] := by
  have hawaited : ∀ g, c.agentStarts.count g = u.starts.count g := by
    intro g
    have heq := h.awaited g
    rwa [hempty, List.count_nil, Nat.add_zero] at heq
  have hpos : 0 < c.agentStarts.count host := by
    rw [hawaited]
    exact List.count_pos_iff.mpr hm
  have hcontains : c.agentStarts.contains host = true :=
    List.contains_iff_mem.mpr (List.count_pos_iff.mp hpos)
  rw [handle_agentDone, if_pos hcontains]
  refine ⟨fun g ↦ ?_, fun hagents g hmem hstate ↦ .inr ?_, fun g health degraded hmem ↦ ?_⟩
  · change (c.agentStarts.erase host).count g = (u.starts.erase host).count g + c.outbox.count _
    rw [List.count_erase, List.count_erase, hawaited, hempty, List.count_nil, Nat.add_zero]
  · rw [report_write, Report.change, Report.hostState_setAgent] at hstate
    have hbegun := (h.begun hagents g hmem hstate).resolve_left List.not_mem_nil
    change 0 < _ + (c.agentStarts.erase host).count g
    rw [List.countP_cons, List.count_erase]
    simp only [Signal.isAnswer, beq_iff_eq]
    split <;> omega
  · rw [report_write, Report.change, Report.agents_setAgent] at hmem
    obtain ⟨⟨g', health', degraded'⟩, hmem, heq⟩ := List.mem_map.mp hmem
    split at heq
    · rename_i hhost
      cases heq
      obtain rfl : g' = host := by simpa using hhost
      exact .inl ⟨outcome, List.mem_cons_self, rfl, rfl⟩
    · rename_i hhost
      cases heq
      have hne : ¬ host = g := fun heq ↦ hhost (by simp [heq])
      rw [List.countP_cons, if_neg (by simpa [Signal.isAnswer] using hne), Nat.add_zero]
      refine (h.reported g health degraded hmem).imp_left ?_
      rintro ⟨outcome', hout, hreported⟩
      exact ⟨outcome', List.mem_cons_of_mem _ hout, hreported⟩

theorem handle (hp : j.plan.WellFormed) (hinv : c.Invariant j told l u)
    (h : c.Attended j σs u []) (hempty : c.outbox = []) (hgo : c.cancelled = false)
    (hm : u.Expects m) :
    (c.handle j now m).Attended j (.message m :: σs) (u.hear (.message m)) [] := by
  cases m with
  | finished id outcome =>
    exact (h.finished hp hinv hgo hm outcome).heard (fun _ ↦ rfl) rfl
  | agentDone host outcome => exact h.agentDone hempty hm outcome
  | retryDue id =>
    have hquiet : c.Quiet (c.handle j now (.retryDue id)) := by
      simp only [Control.handle]
      split <;> exact ⟨rfl, rfl, rfl, fun _ ↦ rfl, fun _ hstate ↦ hstate⟩
    exact (h.quiet hquiet).heard (fun _ ↦ rfl) rfl

theorem turn (h : c.Attended j σs u []) :
    (Course.turn j now c u).control.Attended j σs (Course.turn j now c u).outside [] := by
  have hfill := h.quiet (Quiet.fill j now c)
  refine ⟨fun host ↦ ?_, hfill.begun, hfill.reported⟩
  refine (hfill.awaited host).trans ?_
  exact (Outside.count_starts_foldl_obey (c.fill j now).outbox u host).symm

theorem start (hgo : l.cancelled = false) :
    ((initial j l.runId l.createdAt).start j now l.cancelled).Attended j [] {} [] := by
  rw [Control.start, hgo]
  refine foldl_startAgent ⟨fun _ ↦ rfl, fun _ host _ hstate ↦ .inl ?_, ?_⟩ rfl
  · obtain ⟨g, hg, hsucceeded⟩ := Option.map_eq_some_iff.mp hstate
    have haddress : g.address = host := by simpa using List.find?_some hg
    refine List.mem_map.mpr ⟨g, List.mem_filter.mpr ⟨List.mem_of_find?_eq_some hg, ?_⟩, haddress⟩
    simp [hsucceeded]
  · intro host health degraded hmem
    obtain ⟨g, hg, heq⟩ := List.mem_map.mp hmem
    obtain ⟨h, -, rfl⟩ := List.mem_map.mp hg
    cases heq
    exact .inr ⟨rfl, rfl, rfl⟩

end Attended

end Control

theorem Course.Reached.attended (hp : j.plan.WellFormed) {x : Course} (h : Reached j l σs x)
    (hgo : x.control.cancelled = false) : x.control.Attended j σs x.outside [] := by
  induction h with
  | launch now =>
    have hsound := (Reached.launch (j := j) (l := l) now).sound_any hp
    exact (Control.Attended.start (hsound.going_iff.mp hgo).1).turn
  | @hear now σs x σ hx hσ ih =>
    have hs := hx.sound_any hp
    obtain ⟨hlaunch, hheard⟩ := ((hx.hear now hσ).sound_any hp).going_iff.mp hgo
    obtain ⟨hne, hheard⟩ := List.ne_and_not_mem_of_not_mem_cons hheard
    have hgo' := hs.going_iff.mpr ⟨hlaunch, hheard⟩
    cases σ with
    | cancel => exact absurd rfl hne
    | message m => exact ((ih hgo').handle hp hs.invariant hs.outbox_eq hgo' hσ.2).turn
  | @finish now σs x hx hover _ ih =>
    have hs := hx.sound_any hp
    rw [Course.finish, finish_eq now hp hs.invariant hover] at hgo ⊢
    have hattended := ih hgo
    exact ⟨hattended.awaited, hattended.begun, hattended.reported⟩

end Rollout
