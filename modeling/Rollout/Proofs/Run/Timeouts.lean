import Rollout.Proofs.Run.Bench

namespace Rollout

namespace Step

variable {s : Step} {timeout limit : Span} {stage : AttemptStage} {c : Call}

/-- The call that an attempt of a step makes at a stage, and the limit for its wait. -/
def Calls (s : Step) (timeout : Span) : AttemptStage → Call → Option Span → Prop
  | .check, c, within =>
    within = none ∧ ∃ command, s.check = some command ∧ c = ⟨s.host, .run command timeout⟩
  | .action, c, within => s.actionCall timeout = (c, within)

theorem Calls.push_of_limit (h : s.Calls timeout stage c (some limit)) :
    stage = .action ∧ limit = timeout ∧
      ∃ source target, s.action = .push source target ∧ c = ⟨s.host, .push source target⟩ := by
  cases stage with
  | check => cases h.1
  | action =>
    simp only [Calls, actionCall] at h
    cases haction : s.action with
    | run command =>
      rw [haction] at h
      cases h
    | push source target =>
      rw [haction] at h
      cases h
      exact ⟨rfl, rfl, source, target, rfl, rfl⟩

theorem exists_beginAction (s : Step) (timeout : Span) :
    ∃ c within, s.beginAction timeout = .call c within .action ∧
      s.Calls timeout .action c within := ⟨_, _, rfl, rfl⟩

theorem exists_beginAttempt (s : Step) (timeout : Span) :
    ∃ c within stage, s.beginAttempt timeout = .call c within stage ∧
      s.Calls timeout stage c within := by
  cases hcheck : s.check with
  | none =>
    obtain ⟨c, within, hmove, hcalls⟩ := s.exists_beginAction timeout
    exact ⟨c, within, .action, by rw [beginAttempt, hcheck, hmove], hcalls⟩
  | some command =>
    exact ⟨_, none, .check, by rw [beginAttempt, hcheck], rfl, command, hcheck, rfl⟩

theorem continueAttempt_reply (s : Step) (timeout : Span) (stage : AttemptStage) (r : Reply) :
    (∃ outcome, s.continueAttempt timeout stage (.reply r) = .done outcome ∧
      ∀ fault, outcome = .error fault → r = .error fault) ∨
    stage = .check ∧ ∃ c within, s.continueAttempt timeout stage (.reply r) =
      .call c within .action ∧ s.Calls timeout .action c within := by
  cases r with
  | ok out => cases stage <;> exact .inl ⟨_, rfl, fun fault h ↦ by cases h⟩
  | error e =>
    have hsame : ∀ fault, (.error e : Result Bool) = .error fault →
        (.error e : Reply) = .error fault := fun fault h ↦ by cases h; rfl
    cases stage with
    | action => exact .inl ⟨_, rfl, hsame⟩
    | check =>
      cases hexec : e.isExec with
      | false => exact .inl ⟨_, by simp only [continueAttempt, hexec]; rfl, hsame⟩
      | true =>
        refine .inr ⟨rfl, ?_⟩
        simp only [continueAttempt, hexec, if_true]
        exact s.exists_beginAction timeout

end Step

namespace Attempt

variable {ρ : Type} {a a' : Attempt} {stage stage' : AttemptStage} {c c' : Call}

theorem ticket_ne_of_stage (h : stage ≠ stage') :
    (a.ticket stage c : Ticket (Caller ρ)) ≠ a.ticket stage' c' := by
  intro heq
  simp only [ticket, Ticket.mk.injEq, Caller.attempt.injEq] at heq
  exact h heq.1.2

end Attempt

namespace Bench

variable {ρ : Type} [DecidableEq ρ] {j : Job} {g : Guard (Ticket (Caller ρ))} {b : Bench ρ}
  {a : Attempt} {p : Passage (Ticket (Caller ρ))} {clock : UInt64} {s : Step}

theorem errands_call {stage : AttemptStage} {c : Call} {within : Option Span} :
    (b.carryOut clock a (.call c within stage)).errands =
      Function.update b.errands a (some ⟨stage, c, within, b.diary.now⟩) := rfl

theorem errands_done {outcome : Result Bool} :
    (b.carryOut clock a (.done outcome)).errands = Function.update b.errands a none := rfl

def Reported (j : Job) (x : Diary (Ticket (Caller ρ))) (s : Step) (a : Attempt) (fault : Fault) :
    Prop :=
  ∃ stage c within, s.Calls (j.timeoutOf s) stage c within ∧
    x.traffic.Performed (a.ticket stage c) (.error fault)

/-- Where the timeout of an attempt comes from: one of its operations came to it, or its step is a
push that was given up. -/
inductive TimedOut (j : Job) (x : Diary (Ticket (Caller ρ))) (a : Attempt) (ended : Span)
    (host : String) (after : Span) : Prop
  | reported {s : Step} :
      j.plan.step? a.step = some s → Reported j x s a (.timeout host after) →
      TimedOut j x a ended host after
  | overdue {s : Step} {source target : String} {since : Span} :
      j.plan.step? a.step = some s → s.action = .push source target →
      host = s.host → after = j.timeoutOf s →
      x.Overdue (a.ticket .action ⟨s.host, .push source target⟩) since (j.timeoutOf s) ended →
      TimedOut j x a ended host after

theorem TimedOut.write {x : Diary (Ticket (Caller ρ))} {ended after : Span} {host : String}
    (h : TimedOut j x a ended host after) (p : Passage (Ticket (Caller ρ))) :
    TimedOut j (x.write Ticket.call p) a ended host after := by
  cases h with
  | reported hs hreported =>
    obtain ⟨stage, c, within, hcalls, hperformed⟩ := hreported
    exact .reported hs ⟨stage, c, within, hcalls, hperformed.step p⟩
  | overdue hs haction hhost hafter hover =>
    exact .overdue hs haction hhost hafter (hover.write p)

omit [DecidableEq ρ] in
theorem TimedOut.wait {x : Diary (Ticket (Caller ρ))} {ended after : Span} {host : String}
    (h : TimedOut j x a ended host after) (d : Span) :
    TimedOut j (x.wait d) a ended host after := by
  cases h with
  | reported hs hreported => exact .reported hs hreported
  | overdue hs haction hhost hafter hover =>
    exact .overdue hs haction hhost hafter ⟨hover.asked, hover.late, hover.givenUp⟩

/-- An attempt waits for a call of its step, and has not made a later one. -/
structure Awaits (j : Job) (b : Bench ρ) (a : Attempt) (e : Errand) : Prop where
  begun : a ∈ b.begun
  calls : ∃ s, j.plan.step? a.step = some s ∧ s.Calls (j.timeoutOf s) e.stage e.call e.within
  asked : ∃ clock, (e.since, .asks clock (a.ticket e.stage e.call)) ∈ b.diary.entries
  ahead : e.stage = .check → ∀ c, a.ticket .action c ∉ b.diary.traffic.asked

omit [DecidableEq ρ] in
theorem Awaits.frame {b' : Bench ρ} {e : Errand} (h : b.Awaits j a e) (hbegun : b.begun ⊆ b'.begun)
    (hentries : b.diary.entries ⊆ b'.diary.entries)
    (hasked : ∀ c, a.ticket .action c ∈ b'.diary.traffic.asked →
      a.ticket .action c ∈ b.diary.traffic.asked) : b'.Awaits j a e where
  begun := hbegun h.begun
  calls := h.calls
  asked := h.asked.imp fun _ hmem ↦ hentries hmem
  ahead hstage c ht := h.ahead hstage c (hasked c ht)

structure Sound (j : Job) (g : Guard (Ticket (Caller ρ))) (b : Bench ρ) : Prop where
  diary : Diary.Reached Ticket.call g b.diary
  known : ∀ t ∈ b.diary.traffic.asked, ∀ a, t.activity.attempt? = some a → a ∈ b.begun
  awaits : ∀ a e, b.errands a = some e → b.Awaits j a e
  pushes : ∀ ended t a stage, (ended, .givesUp t) ∈ b.diary.entries →
    t.activity = .attempt a stage →
    stage = .action ∧ ∃ s source target, j.plan.step? a.step = some s ∧
      s.action = .push source target
  timedOut : ∀ k ∈ b.conclusions, ∀ host after, k.outcome = .error (.timeout host after) →
    TimedOut j b.diary k.attempt k.moment host after

namespace Sound

theorem not_asked (h : b.Sound j g) (ha : a ∉ b.begun) (stage : AttemptStage) (c : Call) :
    a.ticket stage c ∉ b.diary.traffic.asked := fun ht ↦ ha (h.known _ ht a rfl)

theorem write (h : b.Sound j g) (hcan : b.diary.traffic.CanStep p)
    (hasks : ∀ clock t, p = .asks clock t → t.activity.attempt? = none)
    (hquits : ∀ t a stage, p = .givesUp t → t.activity = .attempt a stage →
      stage = .action ∧ ∃ s source target, j.plan.step? a.step = some s ∧
      s.action = .push source target) :
    (b.write p).Sound j g where
  diary := h.diary.write hcan
  known t ht a ha := by
    rcases Traffic.mem_asked_step ht with hold | ⟨clock, hp⟩
    · exact h.known t hold a ha
    · rw [hasks clock t hp] at ha
      cases ha
  awaits a e he := by
    refine (h.awaits a e he).frame (List.Subset.refl _) (List.subset_cons_self ..) fun c ht ↦ ?_
    -- Nobody else asks in the name of an attempt.
    rcases Traffic.mem_asked_step ht with hold | ⟨clock, hp⟩
    · exact hold
    · cases hasks clock _ hp
  pushes ended t a stage ht hact := by
    rcases List.mem_cons.mp ht with heq | hold
    · exact hquits t a stage (Prod.mk.inj heq).2.symm hact
    · exact h.pushes ended t a stage hold hact
  timedOut k hk host after hout := (h.timedOut k hk host after hout).write p

theorem wait (h : b.Sound j g) (d : Span) :
    ({ b with diary := b.diary.wait d } : Bench ρ).Sound j g where
  diary := h.diary.wait d
  known := h.known
  awaits a e he := (h.awaits a e he).frame (List.Subset.refl _) (List.Subset.refl _) fun _ ht ↦ ht
  pushes := h.pushes
  timedOut k hk host after hout := (h.timedOut k hk host after hout).wait d

theorem begin (h : b.Sound j g) : ({ b with begun := a :: b.begun } : Bench ρ).Sound j g where
  diary := h.diary
  known t ht a' ha := List.mem_cons_of_mem a (h.known t ht a' ha)
  awaits a' e he :=
    (h.awaits a' e he).frame (List.subset_cons_self ..) (List.Subset.refl _) fun _ ht ↦ ht
  pushes := h.pushes
  timedOut := h.timedOut

theorem call (h : b.Sound j g) {stage : AttemptStage} {c : Call} {within : Option Span}
    (ha : a ∈ b.begun) (hs : j.plan.step? a.step = some s)
    (hcalls : s.Calls (j.timeoutOf s) stage c within)
    (hfresh : a.ticket stage c ∉ b.diary.traffic.asked)
    (hahead : stage = .check → ∀ c, a.ticket .action c ∉ b.diary.traffic.asked) :
    (b.carryOut clock a (.call c within stage)).Sound j g where
  diary := h.diary.write hfresh
  known t ht a' ha' := by
    rcases Traffic.mem_asked_step ht with hold | ⟨_, hp⟩
    · exact h.known t hold a' ha'
    · cases hp
      cases ha'
      exact ha
  awaits a' e he := by
    have hcall : ∀ {t : Ticket (Caller ρ)}, a.ticket stage c ≠ t →
        t ∈ (b.carryOut clock a (.call c within stage)).diary.traffic.asked →
        t ∈ b.diary.traffic.asked := by
      intro t hne ht
      rcases Traffic.mem_asked_step ht with hmem | ⟨_, hp⟩
      · exact hmem
      · cases hp
        exact absurd rfl hne
    by_cases heq : a' = a
    · subst heq
      rw [errands_call, Function.update_self] at he
      cases he
      -- After a check the action is still to come: its call has another name.
      refine ⟨ha, ⟨s, hs, hcalls⟩, ⟨clock, List.mem_cons_self⟩, fun hstage c' ht ↦ ?_⟩
      refine hahead hstage c' (hcall (Attempt.ticket_ne_of_stage ?_) ht)
      rw [show stage = .check from hstage]
      decide
    · rw [errands_call, Function.update_of_ne heq] at he
      refine (h.awaits a' e he).frame (List.Subset.refl _) (List.subset_cons_self ..) fun c' ↦ ?_
      refine hcall fun hname ↦ heq ?_
      simp only [Attempt.ticket, Ticket.mk.injEq, Caller.attempt.injEq] at hname
      exact hname.1.1.symm
  pushes ended t a' stage' ht hact := by
    rcases List.mem_cons.mp ht with heq | hold
    · cases heq
    · exact h.pushes ended t a' stage' hold hact
  timedOut k hk host after hout := (h.timedOut k hk host after hout).write _

theorem done (h : b.Sound j g) {outcome : Result Bool}
    (hout : ∀ host after, outcome = .error (.timeout host after) →
      TimedOut j b.diary a b.diary.now host after) :
    (b.carryOut clock a (.done outcome)).Sound j g where
  diary := h.diary
  known := h.known
  awaits a' e he := by
    have hne : a' ≠ a := by
      rintro rfl
      rw [errands_done, Function.update_self] at he
      cases he
    rw [errands_done, Function.update_of_ne hne] at he
    exact (h.awaits a' e he).frame (List.Subset.refl _) (List.Subset.refl _) fun _ ht ↦ ht
  pushes := h.pushes
  timedOut := List.forall_mem_cons.mpr ⟨hout, h.timedOut⟩

theorem goOn (h : b.Sound j g) {r : Reply}
    (hr : ∀ host after, r = .error (.timeout host after) →
      TimedOut j b.diary a b.diary.now host after) :
    (b.goOn j clock a r).Sound j g := by
  simp only [Bench.goOn]
  split
  · rename_i s e hs he
    have hwait := h.awaits a e he
    rcases s.continueAttempt_reply (j.timeoutOf s) e.stage r with
      ⟨outcome, hmove, hsame⟩ | ⟨hstage, c, within, hmove, hcalls⟩
    · rw [hmove]
      exact h.done fun host after hout ↦ hr host after (hsame _ hout)
    · rw [hmove]
      exact h.call hwait.begun hs hcalls (hwait.ahead hstage c) fun hcheck ↦ by cases hcheck
  · exact h

theorem begins (h : b.Sound j g) (hcan : b.CanStep j (.begins clock a)) :
    (b.step j (.begins clock a)).Sound j g := by
  obtain ⟨hfresh, hsome⟩ := hcan
  obtain ⟨s, hs⟩ := Option.isSome_iff_exists.mp hsome
  obtain ⟨c, within, stage, hmove, hcalls⟩ := s.exists_beginAttempt (j.timeoutOf s)
  simp only [Bench.step, hs, hmove]
  exact h.begin.call List.mem_cons_self hs hcalls (h.not_asked hfresh stage c)
    fun _ ↦ h.not_asked hfresh .action

theorem hears (h : b.Sound j g) {r : Reply} (hcan : b.CanStep j (.hears clock a r)) :
    (b.step j (.hears clock a r)).Sound j g := by
  obtain ⟨e, he, hreturned⟩ := hcan
  obtain ⟨s, hs, hcalls⟩ := (h.awaits a e he).calls
  refine h.goOn fun host after hr ↦ ?_
  subst hr
  rcases h.diary.traffic.performed_of_returned hreturned with ⟨fault, hfault, hconnect⟩ | hdone
  · -- A call that is turned away fails to connect, which is no timeout.
    cases hfault
    cases hconnect
  · exact .reported hs ⟨e.stage, e.call, e.within, hcalls, hdone⟩

theorem step_expires (h : b.Sound j g) {e : Errand} {limit : Span}
    (he : b.errands a = some e) (hlimit : e.within = some limit) :
    b.step j (.expires clock a limit) =
      (b.write (.givesUp (a.ticket e.stage e.call))).carryOut clock a
        (.done (.error (.timeout e.call.host limit))) := by
  obtain ⟨s, hs, hcalls⟩ := (h.awaits a e he).calls
  rw [hlimit] at hcalls
  have hsame : (b.write (.givesUp (a.ticket e.stage e.call))).errands a = some e := he
  simp only [Bench.step, he, Bench.goOn, hs, hsame]
  rw [hcalls.push_of_limit.1]
  rfl

theorem expires (h : b.Sound j g) {limit : Span} (hcan : b.CanStep j (.expires clock a limit)) :
    (b.step j (.expires clock a limit)).Sound j g := by
  obtain ⟨e, he, hlimit, hover, hquit⟩ := hcan
  obtain ⟨-, ⟨s, hs, hcalls⟩, hasked, -⟩ := h.awaits a e he
  rw [hlimit] at hcalls
  obtain ⟨hstage, rfl, source, target, haction, hcall⟩ := hcalls.push_of_limit
  rw [h.step_expires he hlimit]
  refine done (h.write hquit (fun _ _ hp ↦ by cases hp) ?_) fun host after hout ↦ ?_
  · intro t a' stage hp hact
    cases hp
    cases hact
    exact ⟨hstage, s, source, target, hs, haction⟩
  · cases hout
    rw [hstage, hcall] at hasked
    rw [hstage, hcall]
    refine .overdue hs haction rfl rfl ⟨?_, hover, List.mem_cons_self⟩
    exact hasked.imp fun _ ↦ List.mem_cons_of_mem _

theorem step (h : b.Sound j g) {d : Deed ρ} (hcan : b.CanStep j d) : (b.step j d).Sound j g := by
  cases d with
  | passes d => exact h.wait d
  | moves p =>
    -- A call of an attempt neither asks nor gives up on its own.
    obtain ⟨hmove, hown⟩ := hcan
    refine h.write hmove (fun clock t hp ↦ ?_) fun t a stage hp hact ↦ ?_
    · subst hp
      exact hown
    · subst hp
      rw [Passage.OnItsOwn, hact] at hown
      cases hown
  | begins clock a => exact h.begins hcan
  | hears clock a r => exact h.hears hcan
  | expires clock a limit => exact h.expires hcan

end Sound

theorem Reached.sound (h : Reached j g b) : b.Sound j g := by
  induction h with
  | start =>
    refine ⟨.start, ?_, ?_, ?_, ?_⟩ <;> simp [Bench.start]
  | step _ hcan ih => exact ih.step hcan

theorem conclusions_subset_carryOut (m : Move AttemptStage (Result Bool)) :
    b.conclusions ⊆ (b.carryOut clock a m).conclusions := by
  cases m with
  | done outcome => exact List.subset_cons_self ..
  | _ => exact List.Subset.refl _

theorem conclusions_subset_goOn (r : Reply) :
    b.conclusions ⊆ (b.goOn j clock a r).conclusions := by
  unfold goOn
  split
  · exact conclusions_subset_carryOut _
  · exact List.Subset.refl _

theorem conclusions_subset_step (d : Deed ρ) : b.conclusions ⊆ (b.step j d).conclusions := by
  cases d with
  | passes d => exact List.Subset.refl _
  | moves p => exact List.Subset.refl _
  | begins clock a =>
    simp only [step]
    split
    · exact conclusions_subset_carryOut (b := { b with begun := a :: b.begun }) _
    · exact List.Subset.refl _
  | hears clock a r => exact conclusions_subset_goOn r
  | expires clock a limit =>
    simp only [step]
    split
    · exact conclusions_subset_goOn (b := b.write _) _
    · exact List.Subset.refl _

end Bench

end Rollout
