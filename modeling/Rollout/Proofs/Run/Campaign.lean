import Rollout.Proofs.Run.Reached
import Rollout.Proofs.Run.Timeouts

namespace Rollout

def Passage.begun? {τ : Type} : Passage τ → Option τ
  | .begins _ t => some t
  | _ => none

/-- A run, and the attempts that it has ordered. -/
structure Campaign (ρ : Type) where
  course : Course
  bench : Bench ρ

namespace Campaign

inductive Event (ρ : Type)
  | works (d : Deed ρ)
  | hears (now : Moment) (σ : Signal)
  | ends (now : Moment)

def Event.heard {ρ : Type} : Event ρ → List Signal
  | .hears _ σ => [σ]
  | _ => []

variable {ρ : Type} [DecidableEq ρ]

def launch (j : Job) (l : Launch) (now : Moment) (g : Guard (Ticket (Caller ρ))) : Campaign ρ :=
  ⟨.launch j l now, .start g⟩

def act (j : Job) (x : Campaign ρ) : Event ρ → Campaign ρ
  | .works d => { x with bench := x.bench.step j d }
  | .hears now σ => { x with course := x.course.hear j now σ }
  | .ends now => { x with course := x.course.finish j now }

def lastAttempt (x : Campaign ρ) (id : Nat) : Attempt := ⟨id, x.course.control.report.attempts id⟩

def Orders (x : Campaign ρ) : Deed ρ → Prop
  | .begins _ a => a.step ∈ x.course.outside.attempts ∧ a = x.lastAttempt a.step
  | _ => True

def Tells (x : Campaign ρ) : Signal → Prop
  | .message (.finished id outcome) =>
    ∃ k ∈ x.bench.conclusions, k.attempt = x.lastAttempt id ∧ k.outcome = outcome
  | _ => True

def CanAct (j : Job) (x : Campaign ρ) : Event ρ → Prop
  | .works d => x.bench.CanStep j d ∧ x.Orders d
  | .hears _ σ => x.course.CanHear σ ∧ x.Tells σ
  | .ends _ => x.course.control.isOver = true ∧ x.course.control.report.finishedAt = none

instance (x : Campaign ρ) (d : Deed ρ) : Decidable (x.Orders d) :=
  match d with
  | .begins _ a => inferInstanceAs
    (Decidable (a.step ∈ x.course.outside.attempts ∧ a = x.lastAttempt a.step))
  | .passes _ | .moves _ | .hears .. | .expires .. => inferInstanceAs (Decidable True)

instance (x : Campaign ρ) (σ : Signal) : Decidable (x.Tells σ) :=
  match σ with
  | .message (.finished id outcome) => inferInstanceAs (Decidable
    (∃ k ∈ x.bench.conclusions, k.attempt = x.lastAttempt id ∧ k.outcome = outcome))
  | .message (.retryDue _) | .message (.agentDone ..) | .cancel =>
    inferInstanceAs (Decidable True)

instance (j : Job) (x : Campaign ρ) (e : Event ρ) : Decidable (x.CanAct j e) :=
  match e with
  | .works d => inferInstanceAs (Decidable (x.bench.CanStep j d ∧ x.Orders d))
  | .hears _ σ => inferInstanceAs (Decidable (x.course.CanHear σ ∧ x.Tells σ))
  | .ends _ => inferInstanceAs (Decidable
    (x.course.control.isOver = true ∧ x.course.control.report.finishedAt = none))

def follow (j : Job) (x : Campaign ρ) (es : List (Event ρ)) : Campaign ρ := es.foldl (act j) x

def CanFollow (j : Job) : Campaign ρ → List (Event ρ) → Prop
  | _, [] => True
  | x, e :: es => x.CanAct j e ∧ CanFollow j (x.act j e) es

instance decidableCanFollow (j : Job) :
    (x : Campaign ρ) → (es : List (Event ρ)) → Decidable (x.CanFollow j es)
  | _, [] => inferInstanceAs (Decidable True)
  | x, e :: es =>
    have := decidableCanFollow j (x.act j e) es
    inferInstanceAs (Decidable (x.CanAct j e ∧ (x.act j e).CanFollow j es))

/-- What a run can come to, with the signals heard so far, the latest first. -/
inductive Reached (j : Job) (l : Launch) (g : Guard (Ticket (Caller ρ))) :
    List Signal → Campaign ρ → Prop
  | launch (now : Moment) : Reached j l g [] (launch j l now g)
  | act {σs : List Signal} {x : Campaign ρ} {e : Event ρ} :
      Reached j l g σs x → x.CanAct j e → Reached j l g (e.heard ++ σs) (x.act j e)

def told (b : Bench ρ) : Outcomes := fun id k outcome ↦
  ∃ c ∈ b.conclusions, c.attempt = ⟨id, k⟩ ∧ c.outcome = outcome

variable {j : Job} {l : Launch} {g : Guard (Ticket (Caller ρ))} {σs : List Signal}
  {x : Campaign ρ}

theorem Reached.follow {es : List (Event ρ)} (h : Reached j l g σs x) (hcan : x.CanFollow j es) :
    Reached j l g (es.foldl (fun σs e ↦ e.heard ++ σs) σs) (x.follow j es) := by
  induction es generalizing x σs with
  | nil => exact h
  | cons e es ih => exact ih (h.act hcan.1) hcan.2

theorem Reached.course (h : Reached j l g σs x) : Course.Reached j l σs x.course := by
  induction h with
  | launch now => exact .launch now
  | @act σs x e _ hcan ih =>
    cases e with
    | works d => exact ih
    | hears now σ => exact .hear now ih hcan.1
    | ends now => exact .finish now ih hcan.1 hcan.2

theorem Reached.bench (h : Reached j l g σs x) : Bench.Reached j g x.bench := by
  induction h with
  | launch now => exact .start
  | @act σs x e _ hcan ih =>
    cases e with
    | works d => exact ih.step hcan.1
    | hears now σ => exact ih
    | ends now => exact ih

theorem told_subset_step {b : Bench ρ} {d : Deed ρ} {id k : Nat} {outcome : Result Bool}
    (h : told b id k outcome) : told (b.step j d) id k outcome :=
  h.imp fun _ hc ↦ ⟨Bench.conclusions_subset_step d hc.1, hc.2⟩

/-- What is heard of an attempt is what it has come to. -/
theorem Reached.attested (hp : j.plan.WellFormed) (h : Reached j l g σs x) :
    (told x.bench).Attested σs := by
  induction h with
  | launch now => trivial
  | @act σs x e hreached hcan ih =>
    cases e with
    | works d => exact ih.mono fun _ _ _ ↦ told_subset_step
    | ends now => exact ih
    | hears now σ =>
      cases σ with
      | cancel => exact ih
      | message m =>
        cases m with
        | retryDue id => exact ih
        | agentDone host outcome => exact ih
        | finished id outcome =>
          -- The attempt under way is the last one ordered, so its number counts those heard of.
          obtain ⟨⟨-, hunder⟩, c, hc, hlast, hout⟩ := hcan
          have hsound := hreached.course.sound_any hp
          have hnumber := hsound.ledger.attempts_of_mem hsound.invariant.steady.nodup_attempts
            hunder
          refine ⟨⟨c, hc, ?_, hout⟩, ih⟩
          rw [hlast, lastAttempt, hnumber]
          rfl

/-- Where the timeouts of attempts come from in a run. -/
structure Timely (j : Job) (σs : List Signal) (x : Campaign ρ) : Prop where
  /-- What is heard of attempt number `k` of a step is what that attempt has come to. -/
  heard : (told x.bench).Attested σs
  commands : ∀ c ∈ x.bench.conclusions, ∀ s command host after,
    j.plan.step? c.attempt.step = some s → s.action = .run command →
    c.outcome = .error (.timeout host after) →
    Bench.Reported j x.bench.diary s c.attempt (.timeout host after)
  /-- An attempt to push is timed out for the same reason, or because it was given up when its limit
  was over, counted from its call. Its operation has begun later than that, if at all. -/
  pushes : ∀ c ∈ x.bench.conclusions, ∀ s source target host after,
    j.plan.step? c.attempt.step = some s → s.action = .push source target →
    c.outcome = .error (.timeout host after) →
    Bench.Reported j x.bench.diary s c.attempt (.timeout host after) ∨
    let call := c.attempt.ticket .action ⟨s.host, .push source target⟩
    ∃ since, x.bench.diary.Overdue call since (j.timeoutOf s) c.moment ∧
      ∀ began clock, (began, .begins clock call) ∈ x.bench.diary.entries →
        since.nanos ≤ began.nanos ∧ began.nanos ≤ c.moment.nanos
  patient : ∀ (ended : Span) (a : Attempt) (stage : AttemptStage) (c : Call),
    (ended, .givesUp (a.ticket stage c)) ∈ x.bench.diary.entries →
    stage = .action ∧ ∃ s source target, j.plan.step? a.step = some s ∧
      s.action = .push source target
  /-- A push that waits for a place when its limit is over can be given up. That ends its attempt
  with a timeout, although its operation has not begun. -/
  starved : ∀ (a : Attempt) (e : Errand) (limit : Span) (clock : UInt64),
    x.bench.errands a = some e → e.within = some limit →
    e.since.nanos + limit.nanos ≤ x.bench.diary.now.nanos →
    a.ticket e.stage e.call ∈ x.bench.diary.traffic.guard.waiting →
    x.CanAct j (.works (.expires clock a limit)) ∧
    ⟨a, x.bench.diary.now, .error (.timeout e.call.host limit)⟩ ∈
      (x.bench.step j (.expires clock a limit)).conclusions ∧
    ∀ began, .begins began (a.ticket e.stage e.call) ∉
      (x.bench.step j (.expires clock a limit)).diary.traffic.past

theorem Reached.timely {steps : List Step} (hplan : Plan.ofSteps steps = .ok j.plan)
    {maxInFlight : Nat} {threshold : UInt32} {cooldown : Span}
    (h : Reached j l (.new maxInFlight threshold cooldown) σs x) : x.Timely j σs := by
  have hg : (Guard.new maxInFlight threshold cooldown : Guard (Ticket (Caller ρ))).Serves [] [] []
      [] := .new ..
  have hsound := h.bench.sound
  refine ⟨h.attested (Plan.wellFormed_of_ofSteps hplan), ?_, ?_, ?_, ?_⟩
  · intro c hc s command host after hs haction hout
    cases hsound.timedOut c hc host after hout with
    | reported hs' hreported =>
      obtain rfl := Option.some.inj (hs.symm.trans hs')
      exact hreported
    | overdue hs' hpush =>
      obtain rfl := Option.some.inj (hs.symm.trans hs')
      cases haction.symm.trans hpush
  · intro c hc s source target host after hs haction hout
    cases hsound.timedOut c hc host after hout with
    | reported hs' hreported =>
      obtain rfl := Option.some.inj (hs.symm.trans hs')
      exact .inl hreported
    | @overdue s' source' target' since hs' hpush hhost hafter hover =>
      obtain rfl := Option.some.inj (hs.symm.trans hs')
      cases haction.symm.trans hpush
      obtain ⟨clock', hasked⟩ := hover.asked
      refine .inr ⟨since, hover, fun began clock hbegan ↦ ⟨?_, ?_⟩⟩
      · exact hsound.diary.asks_before_begins hg hasked hbegan
      · exact hsound.diary.begins_before_givesUp hg hbegan hover.givenUp
  · intro ended a stage c hquit
    exact hsound.pushes ended _ a stage hquit rfl
  · intro a e limit clock he hlimit hover hwait
    -- Who waits for a place has not begun, and giving up begins nothing.
    refine ⟨⟨⟨e, he, hlimit, hover, .inl hwait⟩, trivial⟩, ?_⟩
    rw [hsound.step_expires he hlimit]
    refine ⟨List.mem_cons_self, fun began hbegan ↦ ?_⟩
    rcases List.mem_cons.mp hbegan with heq | hbegan
    · cases heq
    · exact hsound.diary.traffic.not_begun_of_waiting hg hwait hbegan

def pair : Job where
  plan :=
    { steps :=
        [{ id := 0, host := "client01", role := .client, name := "image", kind := .push
           action := .push "conf/image" "/srv/image", timeout := some (.ofSeconds 60) },
         { id := 1, host := "mon01", role := .monitor, name := "config", kind := .push
           action := .push "conf/agent" "/etc/agent", timeout := some (.ofSeconds 1) }]
      successorTable := [[], []]
      order := [0, 1] }
  inventory := ⟨[{ address := "client01", roles := [.client] },
    { address := "mon01", roles := [.monitor] }]⟩
  workers := 2
  commandTimeout := .ofSeconds 30
  retry := .uniform .noRetry
  agents := false

def image : Ticket (Caller Empty) :=
  Attempt.ticket ⟨0, 1⟩ .action ⟨"client01", .push "conf/image" "/srv/image"⟩

def config : Ticket (Caller Empty) :=
  Attempt.ticket ⟨1, 1⟩ .action ⟨"mon01", .push "conf/agent" "/etc/agent"⟩

/-- The only place is taken by the first push for as long as the second one may wait. -/
def congestion : List (Event Empty) :=
  [.works (.begins 0 ⟨0, 1⟩), .works (.moves (.enters image)), .works (.moves (.begins 0 image)),
    .works (.begins 0 ⟨1, 1⟩), .works (.moves (.enters config)),
    .works (.passes (.ofSeconds 1)), .works (.expires 1000 ⟨1, 1⟩ (.ofSeconds 1)),
    .hears .origin (.message (.finished 1 (.error (.timeout "mon01" (.ofSeconds 1)))))]

def uncongested : Campaign Empty :=
  launch pair ⟨"run", .origin, false⟩ .origin (.new 1 3 (.ofSeconds 60))

theorem timely_congestion : Plan.ofSteps pair.plan.steps = .ok pair.plan ∧
    uncongested.CanFollow pair congestion ∧
    (uncongested.follow pair congestion).Timely pair
      [.message (.finished 1 (.error (.timeout "mon01" (.ofSeconds 1))))] :=
  have hplan : Plan.ofSteps pair.plan.steps = .ok pair.plan := rfl
  have hcan : uncongested.CanFollow pair congestion := by decide
  ⟨hplan, hcan, Reached.timely hplan ((Reached.launch .origin).follow hcan)⟩

/-- The second push has failed with a timeout, and its operation never began. -/
theorem told_congestion :
    uncongested.CanFollow pair congestion ∧
    told (uncongested.follow pair congestion).bench 1 1
      (.error (.timeout "mon01" (.ofSeconds 1))) ∧
    (uncongested.follow pair congestion).course.control.report.stepState 1 = some .failed ∧
    (uncongested.follow pair congestion).bench.diary.traffic.past.filterMap Passage.begun? =
      [image] := by
  refine ⟨by decide, ⟨_, List.mem_cons_self, rfl, rfl⟩, by decide, by decide⟩

end Campaign

end Rollout
