import Rollout.Proofs.Run.Bouts
import Rollout.Proofs.Run.Tallies

namespace Rollout

theorem Step.beginAction_eq (s : Step) (timeout : Span) : s.beginAction timeout =
    .call (s.actionCall timeout).1 (s.actionCall timeout).2 .action := rfl

namespace Fieldwork

variable {j : Job} {l : Launch} {σs : List Signal} {x : Fieldwork} {s : Step} {bs : List Bout}
  {id : Nat}

/-- How far a step has come: what is written down for it are its bouts, the latest first, and what
is under way for it goes with them. -/
structure Progress (j : Job) (σs : List Signal) (s : Step) (x : Fieldwork) (bs : List Bout) :
    Prop where
  notes_eq : x.notes s.id = bs.reverse.flatMap Bout.notes
  series : j.Series s bs
  phase : j.Phase s x.now (x.course.control.report.stepState s.id) bs (x.duties s.id)
  begun : bs.length + (x.duties s.id).count .ordered =
    σs.countP (Signal.isEnding s.id) + (x.duties s.id).countP Duty.isAttempt

namespace Progress

theorem newBout (h : x.Progress j σs s bs) (hds : x.duties s.id = [.ordered]) {c : Call}
    {within : Option Span} {stage : AttemptStage}
    (hgoes : s.Goes (j.timeoutOf s) ⟨[⟨c, x.now, none⟩], none⟩)
    (hphase : j.Phase s x.now (x.course.control.report.stepState s.id)
      (⟨[⟨c, x.now, none⟩], none⟩ :: bs) [.waiting stage]) :
    (x.carryOut s.id .ordered (.call c within stage)).Progress j σs s
      (⟨[⟨c, x.now, none⟩], none⟩ :: bs) := by
  have hgo : j.MayGo s x.now bs := by
    have hbefore := h.phase
    rw [hds] at hbefore
    cases hbefore
    assumption
  refine ⟨?_, .cons hgoes rfl hgo h.series, ?_, ?_⟩
  · rw [notes_call, h.notes_eq]
    simp [Bout.notes, TimedCall.notes]
  · rw [duties_call hds]
    exact hphase
  · have hbegun := h.begun
    rw [hds] at hbegun
    rw [duties_call hds]
    simpa [Duty.isAttempt] using hbegun

theorem begins (h : x.Progress j σs s bs) (hcan : .ordered ∈ x.duties s.id) :
    ∃ bs', (x.carryOut s.id .ordered (s.beginAttempt (j.timeoutOf s))).Progress j σs s bs' := by
  have hds := h.phase.eq_singleton hcan
  cases hcheck : s.check with
  | none =>
    rw [Step.beginAttempt, hcheck]
    exact ⟨_, h.newBout hds (.acting (.direct hcheck) rfl) (.acting (.direct hcheck))⟩
  | some command =>
    rw [Step.beginAttempt, hcheck]
    exact ⟨_, h.newBout (c := s.checkCall (j.timeoutOf s) command) hds (.checking hcheck)
      (.checking hcheck)⟩

theorem goesOn {b : Bout} {d d' : Duty} {y : Fieldwork} {more : List (Span × FieldNote)}
    (h : x.Progress j σs s (b :: bs)) (b' : Bout)
    (hds : x.duties s.id = [d]) (hd : d.isAttempt = true ∧ d ≠ .ordered)
    (hds' : y.duties s.id = [d']) (hd' : d'.isAttempt = true ∧ d' ≠ .ordered)
    (hnotes : y.notes s.id = x.notes s.id ++ more) (hmore : b'.notes = b.notes ++ more)
    (hmade : b'.calls.head?.map TimedCall.made = b.calls.head?.map TimedCall.made)
    (hgoes : s.Goes (j.timeoutOf s) b')
    (hphase : j.Phase s y.now (y.course.control.report.stepState s.id) (b' :: bs) [d']) :
    y.Progress j σs s (b' :: bs) := by
  refine ⟨?_, h.series.goOn hgoes hmade, ?_, ?_⟩
  · rw [hnotes, h.notes_eq]
    simp [hmore]
  · rwa [hds']
  · have hbegun := h.begun
    rw [hds] at hbegun
    rw [hds']
    simpa [hd, hd'] using hbegun

theorem answersCheck (h : x.Progress j σs s bs) (hcan : .waiting .check ∈ x.duties s.id)
    (r : Reply) :
    ∃ bs', ((x.write s.id (.came r)).carryOut s.id (.waiting .check)
      (s.continueAttempt (j.timeoutOf s) .check (.reply r))).Progress j σs s bs' := by
  have hds := h.phase.eq_singleton hcan
  have hds' : (x.write s.id (.came r)).duties s.id = [.waiting .check] := hds
  have hcame : (x.write s.id (.came r)).notes s.id = x.notes s.id ++ [(x.now, .came r)] :=
    notes_write_self ..
  have hphase := h.phase
  rw [hds] at hphase
  cases hphase with
  | @checking command made bs hcheck =>
    let check : TimedCall := ⟨s.checkCall (j.timeoutOf s) command, made, some (x.now, r)⟩
    cases r with
    | ok out =>
      exact ⟨_, h.goesOn ⟨[check], some (x.now, .ok true)⟩ hds ⟨rfl, by simp⟩ (duties_done hds')
        ⟨rfl, by simp⟩ hcame rfl rfl (.satisfied hcheck) (.ended rfl (Nat.le_refl _))⟩
    | error fault =>
      cases hfault : fault.isExec with
      | false =>
        rw [Step.continueAttempt, hfault, if_neg (by simp)]
        exact ⟨_, h.goesOn ⟨[check], some (x.now, .error fault)⟩ hds ⟨rfl, by simp⟩
          (duties_done hds') ⟨rfl, by simp⟩ hcame rfl rfl (.unclear hcheck hfault)
          (.ended rfl (Nat.le_refl _))⟩
      | true =>
        have hfirst : s.ComesToAct (j.timeoutOf s) [check] := .checked hcheck hfault
        rw [Step.continueAttempt, hfault, if_pos rfl, Step.beginAction_eq]
        refine ⟨_, h.goesOn ⟨[check] ++ [⟨(s.actionCall (j.timeoutOf s)).1, x.now, none⟩], none⟩ hds
          ⟨rfl, by simp⟩ (duties_call hds') ⟨rfl, by simp⟩ ?_ rfl rfl (.acting hfirst rfl)
          (.acting hfirst)⟩
        rw [notes_call, hcame, List.append_assoc]
        rfl

theorem answersAction (h : x.Progress j σs s bs) (hcan : .waiting .action ∈ x.duties s.id)
    (r : Reply) :
    ∃ bs', ((x.write s.id (.came r)).carryOut s.id (.waiting .action)
      (s.continueAttempt (j.timeoutOf s) .action (.reply r))).Progress j σs s bs' := by
  have hds := h.phase.eq_singleton hcan
  have hds' : (x.write s.id (.came r)).duties s.id = [.waiting .action] := hds
  have hphase := h.phase
  rw [hds] at hphase
  have hmove : s.continueAttempt (j.timeoutOf s) .action (.reply r) =
      .done (r.map fun _ ↦ false) := by
    cases r <;> rfl
  rw [hmove]
  cases hphase with
  | @acting first made bs hfirst =>
    refine ⟨_, h.goesOn ⟨first ++ [⟨(s.actionCall (j.timeoutOf s)).1, made, some (x.now, r)⟩],
      some (x.now, r.map fun _ ↦ false)⟩ hds ⟨rfl, by simp⟩ (duties_done hds') ⟨rfl, by simp⟩
      (notes_write_self ..) ?_ ?_ (.acting hfirst rfl) (.ended rfl (Nat.le_refl _))⟩
    · simp [Bout.notes, TimedCall.notes]
    · cases hfirst <;> rfl

theorem left_cases (h : x.Progress j σs s bs) {σ : Signal} (hσ : x.Brings σ) :
    (∃ outcome, σ = .message (.finished s.id outcome) ∧ x.duties s.id = [.ended outcome] ∧
      x.left σ s.id = []) ∨
    (∃ due, σ = .message (.retryDue s.id) ∧ x.duties s.id = [.resting due] ∧
      due.nanos ≤ x.now.nanos ∧ x.left σ s.id = []) ∨
    (∀ outcome, σ ≠ .message (.finished s.id outcome)) ∧ x.left σ s.id = x.duties s.id := by
  cases σ with
  | cancel => exact .inr (.inr ⟨by simp, rfl⟩)
  | message m =>
    cases m with
    | agentDone host outcome => exact .inr (.inr ⟨by simp, rfl⟩)
    | finished id outcome =>
      by_cases hid : id = s.id
      · subst hid
        have hds := h.phase.eq_singleton hσ
        exact .inl ⟨outcome, rfl, hds, by simp [Fieldwork.left, hds]⟩
      · refine .inr (.inr ⟨by simp [hid], ?_⟩)
        rw [Fieldwork.left, Function.update_of_ne (Ne.symm hid)]
    | retryDue id =>
      by_cases hid : id = s.id
      · subst hid
        obtain ⟨d, hd, hdue⟩ := hσ
        have hds := h.phase.eq_singleton hd
        cases d with
        | resting due =>
          have hle : due.nanos ≤ x.now.nanos := by simpa [Duty.isDue] using hdue
          exact .inr (.inl ⟨due, rfl, hds, hle, by simp [Fieldwork.left, hds, hdue]⟩)
        | ordered | waiting | ended => cases hdue
      · refine .inr (.inr ⟨by simp, ?_⟩)
        rw [Fieldwork.left, Function.update_of_ne (Ne.symm hid)]

theorem left_balance (h : x.Progress j σs s bs) {σ : Signal} (hσ : x.Brings σ) :
    (x.left σ s.id).count .ordered + (σs.countP (Signal.isEnding s.id) +
        (x.duties s.id).countP Duty.isAttempt) =
      (x.duties s.id).count .ordered + ((σ :: σs).countP (Signal.isEnding s.id) +
        (x.left σ s.id).countP Duty.isAttempt) := by
  rw [List.countP_cons]
  rcases h.left_cases hσ with ⟨outcome, hσ, hds, hleft⟩ | ⟨due, hσ, hds, -, hleft⟩ | ⟨hnot, hleft⟩
  · rw [hleft, hds, hσ]
    simp [Duty.isAttempt, Signal.isEnding]
  · rw [hleft, hds, hσ]
    simp [Duty.isAttempt, Signal.isEnding]
  · have hnot : σ.isEnding s.id = false := by
      cases σ with
      | cancel => rfl
      | message m =>
        cases m with
        | finished i outcome =>
          refine beq_eq_false_iff_ne.mpr fun hi ↦ hnot outcome ?_
          rw [hi]
        | retryDue | agentDone => rfl
    rw [hleft, hnot, if_neg (by simp), Nat.add_zero]

theorem attempts_eq (hp : j.plan.WellFormed) (hreached : Reached j l σs x)
    (h : x.Progress j σs s bs) : x.course.control.report.attempts s.id =
      bs.length + (x.duties s.id).count .ordered := by
  rw [h.begun, hreached.tallies.attempts,
    (hreached.course.sound_any hp).ledger.attempts_eq]

end Progress

section Hears

variable {now : Moment} {σ : Signal} (hp : j.plan.WellFormed) (hreached : Reached j l σs x)
  (hcan : x.CanAct (.hears now σ))
include hp hreached hcan

theorem Reached.inProgress_of_ordered (hmem : .ordered ∈ (x.act j (.hears now σ)).duties id) :
    (x.course.hear j now σ).control.report.stepState id = some .inProgress := by
  have hnext := hreached.act hcan
  have hpos : 0 < ((x.act j (.hears now σ)).duties id).countP Duty.isAttempt :=
    List.countP_pos_iff.mpr ⟨_, hmem, rfl⟩
  rw [hnext.tallies.attempts] at hpos
  exact ((hnext.course.sound_any hp).invariant.steady.mem_attempts id).mp
    (List.count_pos_iff.mp hpos)

theorem Reached.pending_before (hs : s ∈ j.plan.steps) (hds : x.duties s.id = [])
    {state : Status}
    (hstate : (x.course.hear j now σ).control.report.stepState s.id = some state)
    (hgoing : state.isTerminal = false) :
    x.course.control.report.stepState s.id = some .pending := by
  have hsound := hreached.course.sound_any hp
  have hsound' := (hreached.course.hear now (hreached.tallies.canHear hcan)).sound_any hp
  obtain ⟨before, hbefore⟩ := hsound.invariant.steady.stepState_of_mem hp hs
  have hgone : before.isTerminal = false := by
    by_contra hend
    have hkept := hsound.invariant.steady.sound.stepState_of_suffix hp
      hsound'.invariant.steady.sound (Course.history_hear ..) hbefore (by simpa using hend)
    rw [hstate, Option.some.injEq] at hkept
    rw [hkept] at hgoing
    exact hend (by simp [hgoing])
  cases before with
  | pending => exact hbefore
  | inProgress =>
    have hmem := (hsound.invariant.steady.mem_attempts s.id).mpr hbefore
    rw [← List.count_pos_iff, ← hreached.tallies.attempts, hds] at hmem
    cases hmem
  | succeeded | failed | skipped => cases hgone

/-- What a turn asks for a step: nothing, an attempt, or the wait for another attempt after one that
has just failed. -/
theorem Reached.asked_cases (hs : j.plan.step? s.id = some s) :
    x.asked j now σ s.id = [] ∨
    (x.asked j now σ s.id = [.ordered] ∧ x.left σ s.id = []) ∨
    ∃ fault delay, σ = .message (.finished s.id (.error fault)) ∧
      j.delayAfter s (x.course.control.report.attempts s.id) fault = some delay ∧
      x.asked j now σ s.id = [.resting ⟨x.now.nanos + delay.nanos⟩] ∧ x.left σ s.id = [] := by
  cases hnews : x.asked j now σ s.id with
  | nil => exact .inl rfl
  | cons d ds =>
    have hd : d ∈ x.asked j now σ s.id := by
      rw [hnews]
      exact List.mem_cons_self
    have hlength := hreached.length_duties_le hp hcan hd
    simp only [Fieldwork.act, hnews, List.length_append, List.length_cons] at hlength
    obtain rfl : ds = [] := List.eq_nil_of_length_eq_zero (by omega)
    have hleft : x.left σ s.id = [] := List.eq_nil_of_length_eq_zero (by omega)
    rcases mem_duties_iff.mp hd with ⟨rfl, -⟩ | ⟨delay, rfl, ho⟩
    · exact .inr (.inl ⟨rfl, hleft⟩)
    · obtain ⟨s', fault, hσ, hs', hdelay⟩ := (hreached.course.sound_any hp).retried_of_orders hp
        (hreached.tallies.canHear hcan) ho
      obtain rfl := Option.some.inj (hs.symm.trans hs')
      exact .inr (.inr ⟨fault, delay, hσ, hdelay, rfl, hleft⟩)

theorem Reached.settled_or_resting {outcome : Result Bool}
    (hσ : σ = .message (.finished id outcome)) :
    (∃ state, (x.course.hear j now σ).control.report.stepState id = some state ∧
      state.isTerminal = true) ∨
    ∃ due, .resting due ∈ x.asked j now σ id := by
  subst hσ
  have hhear := hreached.tallies.canHear hcan
  have hsound' := (hreached.course.hear now hhear).sound_any hp
  rcases (hreached.course.sound_any hp).settled_of_finished hp hhear hsound' trivial with
    hended | ⟨delay, ho⟩
  · exact .inl hended
  · exact .inr ⟨_, mem_duties_iff.mpr (.inr ⟨delay, rfl, ho⟩)⟩

theorem Progress.phase_ended (hs : j.plan.step? s.id = some s) (h : x.Progress j σs s bs)
    {outcome : Result Bool} (hσ : σ = .message (.finished s.id outcome))
    (hds : x.duties s.id = [.ended outcome]) (hleft : x.left σ s.id = []) :
    j.Phase s x.now ((x.course.hear j now σ).control.report.stepState s.id) bs
      ((x.act j (.hears now σ)).duties s.id) := by
  have hended := hreached.settled_or_resting hp hcan hσ
  have hattempts := h.attempts_eq hp hreached
  have hphase := h.phase
  rw [hds] at hphase hattempts
  cases hphase with
  | @ended b came _ bs hbout hcame =>
    rcases hreached.asked_cases hp hcan hs with
      hnews | ⟨hnews, -⟩ | ⟨fault, delay, hσ', hdelay, hnews, -⟩
    · -- Nothing is asked for, so the step has ended: it is not pending.
      simp only [Fieldwork.act, hnews, hleft]
      refine .idle fun hpending ↦ ?_
      rcases hended with ⟨state, hstate, hend⟩ | ⟨due, hdue⟩
      · rw [hpending, Option.some.injEq] at hstate
        subst hstate
        cases hend
      · rw [hnews] at hdue
        cases hdue
    · -- The turn that hears of an attempt never orders another one for the same step.
      have hnext : (x.act j (.hears now σ)).duties s.id = [.ordered] := by
        simp only [Fieldwork.act, hnews, hleft, List.append_nil]
      have hbegun := hreached.inProgress_of_ordered hp hcan
        (by rw [hnext]; exact List.mem_cons_self)
      rcases hended with ⟨state, hstate, hend⟩ | ⟨due, hdue⟩
      · rw [hbegun, Option.some.injEq] at hstate
        subst hstate
        cases hend
      · rw [hnews] at hdue
        simp at hdue
    · rw [hσ, Signal.message.injEq, RunMessage.finished.injEq] at hσ'
      obtain ⟨-, rfl⟩ := hσ'
      have hlength : x.course.control.report.attempts s.id = bs.length + 1 := by
        simpa using hattempts
      rw [hlength] at hdelay
      obtain ⟨hkind, hreason, hlt, hbackoff⟩ := retryDelay_eq_some_iff.mp hdelay
      simp only [Fieldwork.act, hnews, hleft]
      refine .resting ⟨came, fault, hbout, ⟨hkind, hreason, hlt⟩, ?_⟩
      rw [hbackoff]
      exact Nat.add_le_add_right hcame _

theorem Progress.phase_hears (hs : j.plan.step? s.id = some s) (h : x.Progress j σs s bs) :
    j.Phase s x.now ((x.course.hear j now σ).control.report.stepState s.id) bs
      ((x.act j (.hears now σ)).duties s.id) := by
  have hasked := hreached.asked_cases hp hcan hs
  have hmem := List.mem_of_getElem? hs
  have hphase := h.phase
  have hordered : (x.act j (.hears now σ)).duties s.id = [.ordered] →
      (x.course.hear j now σ).control.report.stepState s.id = some .inProgress := fun hds ↦
    hreached.inProgress_of_ordered hp hcan (by rw [hds]; exact List.mem_cons_self)
  rcases h.left_cases hcan.2 with
    ⟨outcome, hσ, hds, hleft⟩ | ⟨due, hσ, hds, hle, hleft⟩ | ⟨hσ, hleft⟩
  · exact h.phase_ended hp hreached hcan hs hσ hds hleft
  · -- The timer was due, so the delay is over.
    rw [hds] at hphase
    cases hphase with
    | resting hgo =>
      rcases hasked with hnews | ⟨hnews, -⟩ | ⟨fault, delay, hσ', -⟩
      · simp only [Fieldwork.act, hnews, hleft]
        exact .idle fun _ ↦ hgo.mono hle
      · simp only [Fieldwork.act, hnews, hleft]
        exact .ordered (hgo.mono hle)
      · rw [hσ] at hσ'
        cases hσ'
  · -- The signal is about something else. What is ordered now was pending before.
    rcases hasked with hnews | ⟨hnews, hnone⟩ | ⟨fault, delay, hσ', -⟩
    · simp only [Fieldwork.act, hnews, hleft]
      exact hphase.frame (Nat.le_refl _) fun hds hpending ↦
        hreached.pending_before hp hcan hmem hds hpending rfl
    · have hds := hleft.symm.trans hnone
      have hnext : (x.act j (.hears now σ)).duties s.id = [.ordered] := by
        simp only [Fieldwork.act, hnews, hnone, List.append_nil]
      have hpending := hreached.pending_before hp hcan hmem hds (hordered hnext) rfl
      rw [hds] at hphase
      cases hphase with
      | idle hgo =>
        rw [hnext]
        exact .ordered (hgo hpending)
    · exact absurd hσ' (hσ _)

theorem Progress.hears (hs : j.plan.step? s.id = some s) (h : x.Progress j σs s bs) :
    (x.act j (.hears now σ)).Progress j (σ :: σs) s bs := by
  have hphase := h.phase_hears hp hreached hcan hs
  have hbegun := h.begun
  have hleft := h.left_balance hcan.2
  have hasked := count_ordered_asked j x now σ s.id
  refine ⟨h.notes_eq, h.series, ?_, ?_⟩
  · simp only [Fieldwork.act] at hphase ⊢
    exact hphase
  · simp only [Fieldwork.act, List.count_append, List.countP_append]
    omega

end Hears

theorem Progress.frame (h : x.Progress j σs s bs) {y : Fieldwork}
    (hnotes : y.notes s.id = x.notes s.id) (hduties : y.duties s.id = x.duties s.id)
    (hnow : x.now.nanos ≤ y.now.nanos)
    (hstate : y.course.control.report.stepState s.id = x.course.control.report.stepState s.id) :
    y.Progress j σs s bs where
  notes_eq := hnotes.trans h.notes_eq
  series := h.series
  phase := by
    rw [hduties, hstate]
    exact h.phase.frame hnow fun _ hpending ↦ hpending
  begun := by rw [hduties, h.begun]

theorem Progress.write_of_ne (h : x.Progress j σs s bs) (hid : id ≠ s.id) (n : FieldNote) :
    (x.write id n).Progress j σs s bs :=
  h.frame (notes_write_of_ne hid n) rfl (Nat.le_refl _) rfl

theorem Progress.replace_of_ne (h : x.Progress j σs s bs) (hid : id ≠ s.id) (d d' : Duty) :
    (x.replace id d d').Progress j σs s bs :=
  h.frame rfl (duties_replace_of_ne (Ne.symm hid) d d') (Nat.le_refl _) rfl

theorem Progress.carryOut_of_ne (h : x.Progress j σs s bs) (hid : id ≠ s.id) (d : Duty)
    (mv : Move AttemptStage (Result Bool)) : (x.carryOut id d mv).Progress j σs s bs := by
  cases mv with
  | call c within stage => exact (h.write_of_ne hid _).replace_of_ne hid ..
  | pause t stage => exact h.replace_of_ne hid ..
  | done outcome => exact h.replace_of_ne hid ..

theorem Progress.launch (hp : j.plan.WellFormed) (now : Moment) :
    (Fieldwork.launch j l now).Progress j [] s [] := by
  have htallies := tallies_launch j l now
  have hsound := (Course.Reached.launch (j := j) (l := l) now).sound_any hp
  have hattempts := List.nodup_iff_count_le_one.mp hsound.invariant.steady.nodup_attempts s.id
  have hretries : (Course.launch j l now).outside.retries.count s.id = 0 := by
    simpa using hsound.ledger.retries_le s.id
  have hordered := count_ordered_duties .zero s.id (Course.firstOrders j l now)
  refine ⟨rfl, .nil, ?_, congrArg (0 + ·) hordered⟩
  have hlength := htallies.length_duties s.id
  have hrest := htallies.retries s.id
  simp only [Fieldwork.launch] at hlength hrest ⊢
  rw [hretries] at hlength hrest
  cases hduties : (Course.firstOrders j l now).flatMap (RunOrder.duties .zero s.id) with
  | nil => exact .idle fun _ ↦ trivial
  | cons d ds =>
    rw [hduties] at hlength hrest
    obtain rfl : ds = [] := List.eq_nil_of_length_eq_zero (by simp at hlength; omega)
    have hd : d ∈ (Course.firstOrders j l now).flatMap (RunOrder.duties .zero s.id) := by
      simp [hduties]
    rcases mem_duties_iff.mp hd with ⟨rfl, -⟩ | ⟨delay, rfl, -⟩
    · exact .ordered trivial
    · cases hrest

theorem Progress.act (hp : j.plan.WellFormed) (hs : j.plan.step? s.id = some s)
    (hreached : Reached j l σs x) (h : x.Progress j σs s bs) {e : Event} (hcan : x.CanAct e) :
    ∃ bs', (x.act j e).Progress j (e.heard ++ σs) s bs' := by
  cases e with
  | passes d => exact ⟨bs, h.frame rfl rfl (Nat.le_add_right ..) rfl⟩
  | hears now σ => exact ⟨bs, h.hears hp hreached hcan hs⟩
  | ends now =>
    refine ⟨bs, h.frame rfl rfl (Nat.le_refl _) ?_⟩
    rw [Fieldwork.act, Course.finish,
      Course.finish_eq now hp (hreached.course.sound_any hp).invariant hcan.1]
    rfl
  | begins id =>
    by_cases hid : id = s.id
    · subst hid
      simp only [Fieldwork.act, hs]
      exact h.begins hcan
    · simp only [Fieldwork.act]
      split
      · exact ⟨bs, h.carryOut_of_ne hid ..⟩
      · exact ⟨bs, h⟩
  | answers id stage r =>
    by_cases hid : id = s.id
    · subst hid
      simp only [Fieldwork.act, hs]
      cases stage with
      | check => exact h.answersCheck hcan r
      | action => exact h.answersAction hcan r
    · simp only [Fieldwork.act]
      split
      · exact ⟨bs, (h.write_of_ne hid _).carryOut_of_ne hid ..⟩
      · exact ⟨bs, h⟩

theorem Reached.exists_progress (hp : j.plan.WellFormed) (hs : s ∈ j.plan.steps)
    (h : Reached j l σs x) : ∃ bs, x.Progress j σs s bs := by
  induction h with
  | launch now => exact ⟨[], .launch hp now⟩
  | act hx hcan ih =>
    obtain ⟨bs, hbs⟩ := ih
    exact hbs.act hp (hp.step?_of_mem hs) hx hcan

/-- How a step is carried out: in bouts, one for each attempt that has begun. -/
structure CarriedOut (j : Job) (s : Step) (x : Fieldwork) (bouts : List Bout) : Prop where
  /-- The calls of one bout come after those of another. -/
  notes_eq : x.notes s.id = bouts.flatMap Bout.notes
  goes : ∀ b ∈ bouts, s.Goes (j.timeoutOf s) b
  hosts : ∀ b ∈ bouts, ∀ v ∈ b.calls, v.call.host = s.host
  attempts_eq : x.course.control.report.attempts s.id =
    bouts.length + (x.duties s.id).count .ordered
  alone : (x.duties s.id).length ≤ 1
  /-- A bout that follows another one begins when that one has failed and the delay is over. -/
  follows : ∀ front b b' back, bouts = front ++ b :: b' :: back →
    ∃ v vs, b'.calls = v :: vs ∧ j.Rests s (front.length + 1) b v.made
  settled : ∀ n ∈ (x.notes s.id).dropLast, n.2.isSuccess = false

/-- Whatever happens in a run, cancelled or not, all its steps are carried out in this way. -/
theorem Reached.carriedOut {steps : List Step} (hplan : Plan.ofSteps steps = .ok j.plan)
    (h : Reached j l σs x) :
    x.Written j ∧ ∀ s ∈ j.plan.steps, ∃ bouts, x.CarriedOut j s bouts := by
  have hp := Plan.wellFormed_of_ofSteps hplan
  refine ⟨h.written hp, fun s hs ↦ ?_⟩
  obtain ⟨bs, hbs⟩ := h.exists_progress hp hs
  have hgoes : ∀ b ∈ bs.reverse, s.Goes (j.timeoutOf s) b := fun b hb ↦
    hbs.series.goes b (List.mem_reverse.mp hb)
  refine ⟨bs.reverse, hbs.notes_eq, hgoes, fun b hb ↦ (hgoes b hb).hosts, ?_, ?_, ?_, ?_⟩
  · rw [List.length_reverse]
    exact hbs.attempts_eq hp h
  · cases hduties : x.duties s.id with
    | nil => exact Nat.zero_le _
    | cons d ds =>
      have hd : d ∈ x.duties s.id := by simp [hduties]
      rw [← hduties, hbs.phase.eq_singleton hd]
      exact Nat.le_refl _
  · intro front b b' back heq
    have hlatest : bs = back.reverse ++ b' :: b :: front.reverse := by
      rw [← List.reverse_reverse bs, heq]
      simp
    obtain ⟨v, vs, hcalls, hrests⟩ := hbs.series.follows hlatest
    rw [List.length_reverse] at hrests
    exact ⟨v, vs, hcalls, hrests⟩
  · rw [hbs.notes_eq]
    exact hbs.series.settled

/-- For five seconds the host `a` cannot be reached. When the check is repeated it finds something
to do, and the run is cancelled before that is done. -/
def checkedEvents : List Event :=
  [.begins 0, .passes (.ofSeconds 5), .answers 0 .check (.error (.connect "a" "refused")),
    .hears .origin (.message (.finished 0 (.error (.connect "a" "refused")))),
    .passes (.ofSeconds 1), .hears .origin (.message (.retryDue 0)), .begins 0,
    .answers 0 .check (.error (.exec "a" 2 "")), .hears .origin .cancel, .passes (.ofSeconds 2),
    .answers 0 .action (.ok {}), .hears .origin (.message (.finished 0 (.ok false)))]

theorem carriedOut_checked :
    Plan.ofSteps Course.checked.plan.steps = .ok Course.checked.plan ∧
    let x := (launch Course.checked ⟨"run", .origin, false⟩ .origin).follow Course.checked
      checkedEvents
    ((x.notes 0).map fun n ↦ (n.1, n.2.isSuccess)) =
      [(.zero, false), (.ofSeconds 5, false), (.ofSeconds 6, false), (.ofSeconds 6, false),
        (.ofSeconds 6, false), (.ofSeconds 8, true)] ∧
    x.Written Course.checked ∧
    ∀ s ∈ Course.checked.plan.steps, ∃ bouts, x.CarriedOut Course.checked s bouts :=
  have hplan : Plan.ofSteps Course.checked.plan.steps = .ok Course.checked.plan := rfl
  have hreached := (Reached.launch (j := Course.checked) (l := ⟨"run", .origin, false⟩)
    .origin).follow (show CanFollow _ _ checkedEvents by decide)
  ⟨hplan, by decide, hreached.carriedOut hplan⟩

end Fieldwork

end Rollout
