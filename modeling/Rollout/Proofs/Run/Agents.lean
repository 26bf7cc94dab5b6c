import Rollout.Proofs.Run.Growth
import Rollout.Proofs.Run.Reached

namespace Rollout

variable {j : Job} {told : Outcomes} {l : Launch} {now : Moment} {u u' : Outside}
  {σs : List Signal}

namespace Control

variable {c c' : Control} {id : Nat} {s : Step} {m : RunMessage}

theorem Sound.hostState_of_suffix (hp : j.plan.WellFormed) (h : c.Sound j told l)
    (h' : c'.Sound j told l) (hsuf : c.history <:+ c'.history) {address : String}
    (ha : c.report.hostState address = some .succeeded) :
    c'.report.hostState address = some .succeeded := by
  rw [h.report_eq] at ha
  rw [h'.report_eq]
  exact (Report.inLine_start l.runId j.plan j.inventory).hostState_after hp h'.chronicle hsuf ha rfl

/-- The accounts of the starts of agents. -/
structure Tended (j : Job) (σs : List Signal) (u : Outside) (c : Control) : Prop where
  awaited : ∀ host, c.agentStarts.count host ≤ u.starts.count host
  starts_le : ∀ host, σs.countP (Signal.isAnswer host) + u.starts.count host ≤
    j.inventory.addresses.count host
  succeeded : ∀ host, 0 < σs.countP (Signal.isAnswer host) + u.starts.count host →
    c.report.hostState host = some .succeeded

namespace Tended

theorem frame (h : c.Tended j σs u)
    (hstate : ∀ host, c.report.hostState host = some .succeeded →
      c'.report.hostState host = some .succeeded)
    (hawaited : c'.agentStarts = c.agentStarts) (hstarts : u'.starts = u.starts) :
    c'.Tended j σs u' where
  awaited := by rw [hawaited, hstarts]; exact h.awaited
  starts_le := by rw [hstarts]; exact h.starts_le
  succeeded host hpos := hstate host (h.succeeded host (by rwa [hstarts] at hpos))

theorem startAgent (h : c.Tended j σs (c.under u)) {host : String}
    (hstate : c.report.hostState host = some .succeeded)
    (hroom : host ∈ j.inventory.addresses → σs.countP (Signal.isAnswer host) +
      (c.under u).starts.count host < j.inventory.addresses.count host) :
    (c.startAgent j host).Tended j σs ((c.startAgent j host).under u) := by
  unfold Control.startAgent
  split
  · exact h
  · rename_i hgo
    simp only [Bool.or_eq_true, Bool.not_eq_true', Option.isNone_iff_eq_none, not_or] at hgo
    have hmem : host ∈ j.inventory.addresses := by
      obtain ⟨g, hg⟩ := Option.ne_none_iff_exists'.mp hgo.2
      have haddress : g.address = host := by simpa using List.find?_some hg
      exact List.mem_map.mpr ⟨g, List.mem_of_find?_eq_some hg, haddress⟩
    have hlt := hroom hmem
    rw [under_order]
    refine ⟨?_, ?_, ?_⟩
    · intro g
      have hle := h.awaited g
      change (c.agentStarts ++ [host]).count g ≤ (host :: (c.under u).starts).count g
      rw [List.count_append, List.count_cons, List.count_cons, List.count_nil]
      omega
    · intro g
      have hle := h.starts_le g
      change _ + (host :: (c.under u).starts).count g ≤ _
      rw [List.count_cons]
      by_cases hg : host = g
      · subst hg
        simp only [beq_self_eq_true, if_true]
        omega
      · simpa [hg] using hle
    · intro g hpos
      by_cases hg : host = g
      · exact hg ▸ hstate
      · refine h.succeeded g ?_
        change 0 < _ + (host :: (c.under u).starts).count g at hpos
        simpa [List.count_cons, hg] using hpos

theorem agentDone (h : c.Tended j σs u) (hempty : c.outbox = []) {host : String}
    (hm : host ∈ u.starts) (outcome : Result AgentHealth)
    (hstate : ∀ host', c.report.hostState host' = some .succeeded →
      (c.handle j now (.agentDone host outcome)).report.hostState host' = some .succeeded) :
    (c.handle j now (.agentDone host outcome)).Tended j (.message (.agentDone host outcome) :: σs)
      ((c.handle j now (.agentDone host outcome)).under
        { u with starts := u.starts.erase host }) := by
  have hpos := List.count_pos_iff.mpr hm
  have hsum : ∀ g, (Signal.message (.agentDone host outcome) :: σs).countP (Signal.isAnswer g) +
      (u.starts.erase host).count g = σs.countP (Signal.isAnswer g) + u.starts.count g := by
    intro g
    rw [List.countP_cons, List.count_erase]
    simp only [Signal.isAnswer, beq_iff_eq]
    split
    · rename_i hg
      subst hg
      omega
    · omega
  have hawaited : ∀ g, (c.handle j now (.agentDone host outcome)).agentStarts.count g ≤
      (u.starts.erase host).count g := by
    intro g
    have hle := h.awaited g
    rw [handle_agentDone, List.count_erase]
    split
    · change (c.agentStarts.erase host).count g ≤ _
      rw [List.count_erase]
      omega
    · rename_i hnot
      have hzero : c.agentStarts.count host = 0 :=
        List.count_eq_zero.mpr fun hmem ↦ hnot (List.contains_iff_mem.mpr hmem)
      split
      · rename_i hg
        have hg' : host = g := by simpa using hg
        subst hg'
        omega
      · omega
  rw [under_handle_agentDone, under_of_empty hempty]
  refine ⟨hawaited, ?_, fun g hpos ↦ hstate g (h.succeeded g ?_)⟩
  · intro g
    rw [hsum]
    exact h.starts_le g
  · rwa [hsum] at hpos

theorem completed (hp : j.plan.WellFormed) (hinv : c.Invariant j told l u) (h : c.Tended j σs u)
    (hempty : c.outbox = []) (hid : id ∈ u.attempts) (b : Bool)
    (hstate : ∀ host, c.report.hostState host = some .succeeded →
      (c.handle j now (.finished id (.ok b))).report.hostState host = some .succeeded) :
    (c.handle j now (.finished id (.ok b))).Tended j (.message (.finished id (.ok b)) :: σs)
      ((c.handle j now (.finished id (.ok b))).under
        { u with attempts := u.attempts.erase id }) := by
  have hbegun := (hinv.steady.mem_attempts id).mp hid
  obtain ⟨s, hs, rfl⟩ := hinv.steady.step?_of_stepState hp hbegun
  obtain ⟨x, hx, -⟩ := Option.map_eq_some_iff.mp hbegun
  have hhost := ((hinv.steady.sound.holds hp).accounts s x hs hx).describes.host_eq
  have hquiet : c.Tended j (.message (.finished s.id (.ok b)) :: σs)
      { u with attempts := u.attempts.erase s.id } := ⟨h.awaited, h.starts_le, h.succeeded⟩
  rw [handle_completed hs rfl hbegun] at hstate ⊢
  rw [report_hostChanged] at hstate
  have hreleased : ((j.plan.successors s.id).foldl releaseStep
      (c.ended now s.id (.completed b))).Tended j (.message (.finished s.id (.ok b)) :: σs)
        (((j.plan.successors s.id).foldl releaseStep (c.ended now s.id (.completed b))).under
          { u with attempts := u.attempts.erase s.id }) := by
    rw [foldl_releaseStep_eq] at hstate ⊢
    rw [under_of_empty]
    · exact hquiet.frame hstate rfl rfl
    · exact hempty
  have hreport : ((j.plan.successors s.id).foldl releaseStep
      (c.ended now s.id (.completed b))).report = (c.report.apply now s.id (.completed b)).1 := by
    rw [foldl_releaseStep_eq]
    rfl
  unfold Control.hostChanged
  split
  · rename_i hchange
    obtain ⟨hnew, hold⟩ := Report.hostChange_eq_some hx hchange
    rw [hhost] at hnew hold
    refine hreleased.startAgent (hreport ▸ hnew) fun hmem ↦ ?_
    have hzero : ¬ 0 < σs.countP (Signal.isAnswer s.host) + u.starts.count s.host :=
      fun hpos ↦ hold (h.succeeded s.host hpos)
    have hcount := List.count_pos_iff.mpr hmem
    rw [foldl_releaseStep_eq, under_of_empty, List.countP_cons]
    · simp only [Signal.isAnswer, Bool.false_eq_true, if_false]
      omega
    · exact hempty
  · exact hreleased

theorem handle (hp : j.plan.WellFormed) (hinv : c.Invariant j told l u)
    (hsound : (c.handle j now m).Sound j told l) (h : c.Tended j σs u) (hempty : c.outbox = [])
    (hm : u.Expects m) :
    (c.handle j now m).Tended j (.message m :: σs)
      ((c.handle j now m).under (u.hear (.message m))) := by
  have hstate : ∀ host, c.report.hostState host = some .succeeded →
      (c.handle j now m).report.hostState host = some .succeeded := fun host ↦
    hinv.steady.sound.hostState_of_suffix hp hsound (history_handle m)
  cases m with
  | retryDue id =>
    have hquiet : c.Tended j (.message (.retryDue id) :: σs)
        { u with retries := u.retries.erase id } := ⟨h.awaited, h.starts_le, h.succeeded⟩
    refine hquiet.frame hstate ?_ ?_
    · simp only [Control.handle]
      split <;> rfl
    · rw [under_handle_retryDue, under_of_empty hempty]
      rfl
  | agentDone host outcome => exact h.agentDone hempty hm outcome hstate
  | finished id outcome =>
    have hquiet : c.Tended j (.message (.finished id outcome) :: σs)
        { u with attempts := u.attempts.erase id } := ⟨h.awaited, h.starts_le, h.succeeded⟩
    have hbegun := (hinv.steady.mem_attempts id).mp hm
    obtain ⟨s, hs, hid⟩ := hinv.steady.step?_of_stepState hp hbegun
    cases outcome with
    | ok b => exact h.completed hp hinv hempty hm b hstate
    | error fault =>
      rcases handle_error hs hid hbegun fault with ⟨-, delay, -, heq⟩ | ⟨-, heq⟩
      · rw [heq] at hstate ⊢
        refine hquiet.frame hstate rfl ?_
        rw [under_order, under_of_empty]
        · rfl
        · exact hempty
      · have hframe := frame_skipDependents j now id s.label
          (c.ended now id (.failed fault.message none))
        rw [heq] at hstate ⊢
        refine hquiet.frame hstate (congrArg Control.agentStarts hframe :) ?_
        rw [under_of_empty]
        · rfl
        · exact (congrArg Control.outbox hframe :).trans hempty

theorem cancel (hp : j.plan.WellFormed) (hinv : c.Invariant j told l u) (h : c.Tended j σs u) :
    (c.cancel j now).Tended j (.cancel :: σs) u where
  awaited host := by
    rw [(hinv.cancel hp).closed cancelled_cancel |>.starts_eq]
    exact Nat.zero_le _
  starts_le := h.starts_le
  succeeded host hpos := hinv.steady.sound.hostState_of_suffix hp (hinv.cancel hp).steady.sound
    history_cancel (h.succeeded host hpos)

theorem foldl_startAgent {hosts : List String} (h : c.Tended j σs (c.under u))
    (hstate : ∀ host ∈ hosts, c.report.hostState host = some .succeeded)
    (hroom : ∀ host, σs.countP (Signal.isAnswer host) + (c.under u).starts.count host +
      hosts.count host ≤ j.inventory.addresses.count host) :
    (hosts.foldl (fun c host ↦ c.startAgent j host) c).Tended j σs
      ((hosts.foldl (fun c host ↦ c.startAgent j host) c).under u) := by
  induction hosts generalizing c with
  | nil => exact h
  | cons g hosts ih =>
    have hreport : (c.startAgent j g).report = c.report :=
      (congrArg Control.report (bare_startAgent (j := j) (c := c) g) :)
    have hstart : (c.startAgent j g).Tended j σs ((c.startAgent j g).under u) := by
      refine h.startAgent (hstate g List.mem_cons_self) fun _ ↦ ?_
      have hle := hroom g
      rw [List.count_cons_self] at hle
      omega
    refine ih hstart (fun host hmem ↦ ?_) fun host ↦ ?_
    · rw [hreport]
      exact hstate host (List.mem_cons_of_mem _ hmem)
    · have hle := hroom host
      have hstarts : ((c.startAgent j g).under u).starts.count host ≤
          (g :: (c.under u).starts).count host := by
        unfold Control.startAgent
        split
        · rw [List.count_cons]
          omega
        · rw [under_order]
          exact Nat.le_refl _
      rw [List.count_cons] at hle hstarts
      change _ + ((c.startAgent j g).under u).starts.count host + _ ≤ _
      omega

end Tended

theorem hostState_initial (runId : String) {host : String}
    (h : host ∈ (initial j runId now).report.succeededHosts) :
    (initial j runId now).report.hostState host = some .succeeded := by
  simp only [Report.succeededHosts, initial, Report.start, List.mem_map, List.mem_filter] at h
  obtain ⟨-, ⟨⟨g, hg, rfl⟩, hstate⟩, rfl⟩ := h
  have hnone : (j.plan.stepsForHost g.address).isEmpty = true := by
    by_contra hnone
    simp [Report.hostRecord, hnone] at hstate
  cases hfind : (initial j runId now).report.host? (Report.hostRecord j.plan g).address with
  | none =>
    have hnot := List.find?_eq_none.mp hfind (Report.hostRecord j.plan g)
      (List.mem_map.mpr ⟨g, hg, rfl⟩)
    simp at hnot
  | some y =>
    have hfound := List.find?_some hfind
    obtain ⟨g', -, rfl⟩ := List.mem_map.mp (List.mem_of_find?_eq_some hfind)
    have haddress : g'.address = g.address := beq_iff_eq.mp hfound
    rw [Report.hostState, hfind, Option.map_some]
    simp [Report.hostRecord, haddress, hnone]

theorem succeededHosts_initial_sublist (j : Job) (now : Moment) (runId : String) :
    (initial j runId now).report.succeededHosts.Sublist j.inventory.addresses := by
  have haddresses : (initial j runId now).report.hosts.map HostRecord.address =
      j.inventory.addresses := by
    simp only [initial, Report.start, List.map_map]
    rfl
  rw [← haddresses]
  exact List.filter_sublist.map _

theorem Tended.start (hp : j.plan.WellFormed) :
    ((initial j l.runId l.createdAt).start j now l.cancelled).Tended j []
      (((initial j l.runId l.createdAt).start j now l.cancelled).under {}) := by
  have hinitial : (initial j l.runId l.createdAt).Tended j []
      ((initial j l.runId l.createdAt).under {}) :=
    ⟨fun _ ↦ Nat.le_refl 0, fun _ ↦ Nat.zero_le _,
      fun _ hpos ↦ absurd hpos (by simp [under, initial])⟩
  unfold Control.start
  cases l.cancelled with
  | false =>
    refine hinitial.foldl_startAgent (fun host ↦ hostState_initial l.runId) fun host ↦ ?_
    have hle := (succeededHosts_initial_sublist j l.createdAt l.runId).count_le host
    exact (Nat.zero_add _).le.trans hle
  | true =>
    have hinv : (initial j l.runId l.createdAt).Invariant j (fun _ _ _ ↦ True) l {} := .initial hp
    have hcancel : ((initial j l.runId l.createdAt).cancel j now).Tended j []
        (((initial j l.runId l.createdAt).cancel j now).under {}) := by
      rw [under_cancel]
      have hheard : ((initial j l.runId l.createdAt).cancel j now).Tended j [.cancel] {} :=
        Tended.cancel hp hinv hinitial
      exact ⟨hheard.awaited, hheard.starts_le, hheard.succeeded⟩
    rw [if_pos rfl, foldl_startAgent_of_cancelled cancelled_cancel]
    exact hcancel

theorem Tended.fill (now : Moment) (hp : j.plan.WellFormed)
    (hinv : c.Invariant j told l (c.under u))
    (h : c.Tended j σs (c.under u)) :
    (c.fill j now).Tended j σs ((c.fill j now).under u) := by
  obtain ⟨hinv', hstarts, hunder⟩ := hinv.dispatchReady_induct now hp
    (P := fun c' ↦ c'.agentStarts = c.agentStarts ∧ (c'.under u).starts = (c.under u).starts)
    (fun c' id ready hinv hP hready hgo _ ↦ by
      rw [hinv.dispatch_eq hp hgo hready, under_order]
      exact hP) c.ready.length ⟨rfl, rfl⟩
  exact h.frame (fun host ↦ hinv.steady.sound.hostState_of_suffix hp hinv'.steady.sound
    (history_dispatchReady _)) hstarts hunder

end Control

theorem Course.Reached.tended (hp : j.plan.WellFormed) {x : Course} (h : Reached j l σs x) :
    x.control.Tended j σs x.outside := by
  induction h with
  | launch now =>
    obtain ⟨hinv, -⟩ := Control.start_kept now (fun _ _ _ ↦ True) l hp
    have hfill := (Control.Tended.start hp).fill now hp hinv
    exact ⟨hfill.awaited, hfill.starts_le, hfill.succeeded⟩
  | @hear now σs x σ hx hσ ih =>
    have hs := hx.sound_any hp
    cases σ with
    | cancel =>
      have hunder : (x.control.cancel j now).under x.outside = x.outside :=
        Control.under_cancel_of_empty hs.outbox_eq
      have hinv : (x.control.cancel j now).Invariant j (fun _ _ _ ↦ True) l
          ((x.control.cancel j now).under x.outside) := hunder.symm ▸ hs.invariant.cancel hp
      have hcancel : (x.control.cancel j now).Tended j (.cancel :: σs)
          ((x.control.cancel j now).under x.outside) := hunder.symm ▸ ih.cancel hp hs.invariant
      have hfill := hcancel.fill now hp hinv
      exact ⟨hfill.awaited, hfill.starts_le, hfill.succeeded⟩
    | message m =>
      have hinv : (x.control.handle j now m).Invariant j (fun _ _ _ ↦ True) l
          ((x.control.handle j now m).under (x.outside.hear (.message m))) :=
        hs.invariant.handle hp hs.outbox_eq hσ.2 fun _ _ _ ↦ trivial
      have hfill := (ih.handle hp hs.invariant hinv.steady.sound hs.outbox_eq hσ.2).fill now hp hinv
      exact ⟨hfill.awaited, hfill.starts_le, hfill.succeeded⟩
  | @finish now σs x hx hover _ ih =>
    have hs := hx.sound_any hp
    rw [Course.finish, finish_eq now hp hs.invariant hover]
    exact ⟨ih.awaited, ih.starts_le, ih.succeeded⟩

end Rollout
