import Rollout.Proofs.Agents.Rounds
import Rollout.Proofs.Agents.Started
import Rollout.Proofs.Retry.Tolerant

namespace Rollout

variable {ω : Type}

namespace Fleet

/-- The first `n` stop commands on a host have failed, and the next is due: 100 ms after the first,
twice as long after the second. -/
inductive Stops (f : Fleet) (host : String) (begun : Span) :
    (n : Nat) → List (Contact ω) → (due : Span) → Prop
  | none : Stops f host begun 0 [] begun
  | failed {n : Nat} {log : List (Contact ω)} {due : Span} {p : Contact ω} {e : Fault} :
      Stops f host begun n log due → p.Answers (f.stopCall host) due (.error e) →
      Stops f host begun (n + 1) (log ++ [p]) ((Span.ofMillis (100 * 2 ^ n)).after p.heard)

/-- The contacts in the turn of a host, what is known of its agent after them, and where the turn
stands. -/
inductive StopTurn (f : Fleet) (host : String) (begun : Span) :
    List (Contact ω) → Option Agent → TurnState → Prop
  | stopping {n : Nat} {log : List (Contact ω)} {due : Span} :
      Stops f host begun n log due → n < 3 → StopTurn f host begun log (f.find? host) .underWay
  | stopped {n : Nat} {log : List (Contact ω)} {due : Span} {p : Contact ω} {out : CommandOutput} :
      Stops f host begun n log due → n < 3 → p.Answers (f.stopCall host) due (.ok out) →
      StopTurn f host begun (log ++ [p])
        (some (observed p.heard .stopped none (f.entry host))) (.over p.heard)
  | givenUp {log : List (Contact ω)} {due : Span} {p : Contact ω} {e : Fault} :
      Stops f host begun 2 log due → p.Answers (f.stopCall host) due (.error e) →
      StopTurn f host begun (log ++ [p]) (f.find? host) (.over p.heard)

def stopBackoff : Backoff := (Tolerant.new 3).backoff

def stopCourse (n : Nat) : Tolerant := ⟨3 - n, Backoff.advance^[n] stopBackoff⟩

theorem next_stopCourse {α : Type} {n : Nat} (h : n < 2) : (stopCourse n).next (none : Option α) =
    .retry (.ofMillis (100 * 2 ^ n)) (stopCourse (n + 1)) := by
  have hdelay : Tolerant.delay n = .ofMillis (100 * 2 ^ n) := by
    obtain rfl | rfl : n = 0 ∨ n = 1 := by omega
    · rfl
    · rfl
  rw [← hdelay]
  exact Tolerant.next_failed (Nat.succ_lt_succ h)

inductive Stopping (f : Fleet) (begun : Span) :
    List (Contact ω) → Undertaking AgentWork AgentAnswer → Prop
  | calling {done todo : List String} {host : String} {log turn : List (Contact ω)}
      {since due : Span} {g : Fleet} {n : Nat} :
      f.activeHosts = done ++ host :: todo → Dealt (StopTurn f) f begun done log since g →
      Stops f host since n turn due → n < 3 →
      Stopping f begun (log ++ turn) ⟨due, g, .call (f.stopCall host) none
        (.stopAll host (stopCourse n) todo (done.countP g.isStopped))⟩
  | resting {done todo : List String} {host : String} {log turn : List (Contact ω)}
      {since now d : Span} {g : Fleet} {n : Nat} :
      f.activeHosts = done ++ host :: todo → Dealt (StopTurn f) f begun done log since g →
      Stops f host since n turn (d.after now) → n < 3 →
      Stopping f begun (log ++ turn)
        ⟨now, g, .pause d (.stopAll host (stopCourse n) todo (done.countP g.isStopped))⟩
  | complete {log : List (Contact ω)} {now : Span} {g : Fleet} :
      Dealt (StopTurn f) f begun f.activeHosts log now g →
      Stopping f begun log ⟨now, g, .done (.count (f.activeHosts.countP g.isStopped))⟩

section Steps

variable {f g k : Fleet} {begun now since : Span} {host : String} {done todo : List String}
  {log turn : List (Contact ω)}

theorem Stopping.of_nextStop (hhosts : f.activeHosts = done ++ todo)
    (h : Dealt (StopTurn f) f begun done log now g) :
    Stopping f begun log ⟨now, g, g.nextStop (done.countP g.isStopped) todo⟩ := by
  cases todo with
  | nil =>
    rw [List.append_nil] at hhosts
    subst hhosts
    exact .complete h
  | cons host todo =>
    have hcalling := Stopping.calling hhosts h .none (by decide)
    rwa [List.append_nil, ← stopCall_of_manner h.manner] at hcalling

theorem countP_isStopped (hhost : host ∉ done) (hk : ChangesOnly host g k) :
    done.countP k.isStopped = done.countP g.isStopped := by
  refine List.countP_congr fun other hother ↦ ?_
  rw [isStopped, isStopped, hk.find? other fun heq ↦ hhost (heq ▸ hother)]

theorem Stopping.next (hf : Ordered f.agents) (hhosts : f.activeHosts = done ++ host :: todo)
    (h : Dealt (StopTurn f) f begun done log since g) (hk : ChangesOnly host g k)
    (hturn : StopTurn f host since turn (k.find? host) (.over now)) :
    Stopping f begun (log ++ turn) ⟨now, k,
      k.nextStop (done.countP g.isStopped + if k.isStopped host then 1 else 0) todo⟩ := by
  have hnext := Stopping.of_nextStop (hhosts.trans (List.append_cons ..)) (h.next hk hturn)
  rwa [List.countP_append, List.countP_singleton,
    countP_isStopped (notMem_of_activeHosts hf hhosts) hk] at hnext

variable {x : Undertaking AgentWork AgentAnswer}

theorem Stopping.hears (h : Stopping f begun log x) (hf : Ordered f.agents) {c : Call}
    {work : AgentWork} (hmove : x.move = .call c none work) (work' : ω) (took : Span) (r : Reply) :
    Stopping f begun (log ++ [⟨c, work', x.now, took.after x.now, r⟩])
      ⟨took.after x.now, (work.resume (took.after x.now) x.fleet (.reply r)).1,
        (work.resume (took.after x.now) x.fleet (.reply r)).2⟩ := by
  cases h with
  | @calling done todo host log turn since due g n hhosts h hstops hn =>
    cases hmove
    have hanswers := Contact.answers_mk (f.stopCall host) work' due took r
    rw [List.append_assoc]
    cases r with
    | ok out =>
      have hk : ChangesOnly host g (g.record (took.after due) host .stopped none) :=
        .record (h.ordered hf) (h.mem_hosts hf hhosts) _ _
      have hturn := StopTurn.stopped hstops hn hanswers
      rw [← (h.alike hf hhosts).entry, ← find?_record] at hturn
      have hnext := Stopping.next hf hhosts h hk hturn
      rwa [isStopped_of_find? (find?_record ..)] at hnext
    | error e =>
      rcases Nat.lt_or_ge n 2 with hlt | hge
      · simp only [AgentWork.resume, stopReplied, Except.toOption, next_stopCourse hlt]
        exact .resting hhosts h (.failed hstops hanswers) (Nat.succ_lt_succ hlt)
      · obtain rfl : n = 2 := by omega
        have hturn := StopTurn.givenUp hstops hanswers
        rw [← (h.alike hf hhosts).find?] at hturn
        have hnext := Stopping.next hf hhosts h (.refl g) hturn
        rwa [h.isStopped hf hhosts] at hnext
  | resting => cases hmove
  | complete => cases hmove

theorem Stopping.rests (h : Stopping f begun log x) {d : Span} {work : AgentWork}
    (hmove : x.move = .pause d work) :
    Stopping f begun log
      ⟨d.after x.now, (work.resume (d.after x.now) x.fleet .rested).1,
        (work.resume (d.after x.now) x.fleet .rested).2⟩ := by
  cases h with
  | calling => cases hmove
  | complete => cases hmove
  | @resting done todo host log turn since now d' g n hhosts h hstops hn =>
    cases hmove
    have hcalling := Stopping.calling hhosts h hstops hn
    rwa [← stopCall_of_manner h.manner] at hcalling

theorem stopping_of_reached (hf : Ordered f.agents) {log : List (Contact AgentWork)}
    (h : Undertaking.Reached AgentWork.rules Eq ⟨begun, f, f.stopAll⟩ log x) :
    Stopping f begun log x := by
  induction h with
  | start => exact .of_nextStop (List.nil_append _).symm (.start f)
  | hears took _ r _ hfound hnext ih =>
    cases hfound
    cases hnext
    exact ih.hears hf rfl _ took r
  | rests _ _ hfound hnext ih =>
    cases hfound
    cases hnext
    exact ih.rests rfl

theorem Stopping.progress (h : Stopping f begun log x) (hf : Ordered f.agents) :
    Progress (StopTurn f) f begun log x := by
  have hsame : ∀ {done todo log since g host}, f.activeHosts = done ++ host :: todo →
      Dealt (ω := ω) (StopTurn f) f begun done log since g →
      g.find? = Function.update g.find? host (f.find? host) := by
    intro done todo log since g host hhosts h
    rw [← (h.alike hf hhosts).find?, Function.update_eq_self]
  cases h with
  | calling hhosts h hstops hn | resting hhosts h hstops hn =>
    exact .underWay hhosts h.turns (.stopping hstops hn) rfl (hsame hhosts h)
  | complete h => exact .complete h.turns rfl fun hbroken ↦ by cases hbroken

theorem Stopping.hosts (h : Stopping f begun log x) :
    x.fleet.agents.map Agent.host = f.agents.map Agent.host := by
  cases h with
  | calling _ h | resting _ h | complete h => exact h.hosts

theorem Stopping.count (h : Stopping f begun log x) {answer : AgentAnswer}
    (hanswer : x.outcome = some answer) :
    answer = .count (f.activeHosts.countP x.fleet.isStopped) := by
  cases h with
  | calling | resting => cases hanswer
  | complete => exact (Option.some.inj hanswer).symm

theorem Stops.host_eq {n : Nat} {due : Span} (h : Stops f host begun n log due) :
    ∀ c ∈ log, c.call.host = host := by
  induction h with
  | none => exact List.forall_mem_nil _
  | failed _ hp ih => exact hp.host_eq ih

theorem StopTurn.host_eq {entry : Option Agent} {state : TurnState}
    (h : StopTurn f host begun log entry state) : ∀ c ∈ log, c.call.host = host := by
  cases h with
  | stopping hstops => exact hstops.host_eq
  | stopped hstops _ hp | givenUp hstops hp => exact hp.host_eq hstops.host_eq

theorem activeHosts_of_round {y : Undertaking AgentWork AgentAnswer}
    (h : Round (StopTurn f) f begun log y) (hf : Ordered f.agents) :
    y.fleet.activeHosts = f.activeHosts.filter fun host ↦ !y.fleet.isStopped host := by
  rw [activeHosts_eq (ordered_of_hosts h.hosts hf), activeHosts_eq hf, h.hosts, List.filter_filter]
  refine List.filter_congr fun host _ ↦ ?_
  cases hstopped : f.isStopped host with
  | false => simp
  | true =>
    have hhost : host ∉ f.activeHosts := by
      rw [activeHosts_eq hf, List.mem_filter, hstopped]
      exact fun hand ↦ Bool.false_ne_true hand.2
    rw [isStopped, h.spared host hhost, ← isStopped, hstopped]
    rfl

end Steps

section Halting

open Undertaking

variable {others : Fleet → Fleet → Prop} {mayTake : Span → Prop}

theorem halts_stop {host : String} {todo : List String} {stopped : Nat}
    (hnext : ∀ now g n, Halts AgentWork.rules others mayTake ⟨now, g, g.nextStop n todo⟩)
    (course : Tolerant) (now : Span) (g : Fleet) (c : Call) :
    Halts AgentWork.rules others mayTake
      ⟨now, g, .call c none (.stopAll host course todo stopped)⟩ := by
  induction hleft : course.left using Nat.strongRecOn generalizing course now g c with
  | ind left ih =>
    subst hleft
    refine .call fun took found r next _ _ hresult ↦ ?_
    cases hresult
    cases r with
    | ok out => exact hnext _ _ _
    | error e =>
      by_cases hlast : course.left ≤ 1
      · simp only [AgentWork.resume, stopReplied, Except.toOption, Tolerant.next, hlast, if_true]
        exact hnext _ _ _
      · simp only [AgentWork.resume, stopReplied, Except.toOption, Tolerant.next, hlast, if_false]
        refine .pause fun found' next' _ hresult' ↦ ?_
        cases hresult'
        exact ih (course.left - 1) (by omega) _ _ _ _ rfl

theorem halts_nextStop (todo : List String) (now : Span) (g : Fleet) (n : Nat) :
    Halts AgentWork.rules others mayTake ⟨now, g, g.nextStop n todo⟩ := by
  induction todo generalizing now g n with
  | nil => exact .done _ _ _
  | cons host todo ih => exact halts_stop ih _ _ _ _

end Halting

/-- What may be seen when all agents are stopped and nothing interferes. -/
structure TornDown (f : Fleet) (begun : Span) (log : List (Contact AgentWork))
    (y : Undertaking AgentWork AgentAnswer) : Prop where
  round : Round (StopTurn f) f begun log y
  /-- The agents are counted that were not stopped before and are now. -/
  count : ∀ answer, y.outcome = some answer →
    answer = .count (f.activeHosts.countP y.fleet.isStopped)
  /-- Another time only the others are contacted. -/
  again : ∀ later log' z,
    Undertaking.Reached AgentWork.rules Eq ⟨later, y.fleet, y.fleet.stopAll⟩ log' z →
    Round (StopTurn y.fleet) y.fleet later log' z ∧
      ∀ c ∈ log', c.call.host ∈ f.activeHosts ∧ y.fleet.isStopped c.call.host = false
  left : y.fleet.activeHosts = f.activeHosts.filter fun host ↦ !y.fleet.isStopped host

section StopAll

variable {f : Fleet} {begun : Span} {log : List (Contact AgentWork)}
  {y : Undertaking AgentWork AgentAnswer}

theorem round_stopAll (hf : Ordered f.agents)
    (h : Undertaking.Reached AgentWork.rules Eq ⟨begun, f, f.stopAll⟩ log y) :
    Round (StopTurn f) f begun log y :=
  have hstopping := stopping_of_reached hf h
  (hstopping.progress hf).round hf (fun _ _ _ _ _ hturn ↦ hturn.host_eq) hstopping.hosts

theorem tornDown (hf : Ordered f.agents) (begun : Span) :
    (∀ log y, Undertaking.Reached AgentWork.rules Eq ⟨begun, f, f.stopAll⟩ log y →
      TornDown f begun log y) ∧
    Undertaking.Halts AgentWork.rules Eq (fun _ ↦ True) ⟨begun, f, f.stopAll⟩ := by
  refine ⟨fun log y h ↦ ?_, halts_nextStop _ _ _ _⟩
  have hround := round_stopAll hf h
  have hy : Ordered y.fleet.agents := ordered_of_hosts hround.hosts hf
  refine ⟨hround, fun answer ↦ (stopping_of_reached hf h).count, fun later log' z h' ↦ ?_,
    activeHosts_of_round hround hf⟩
  have hagain := round_stopAll hy h'
  refine ⟨hagain, fun c hc ↦ ?_⟩
  have hactive := hagain.contacted c hc
  rw [activeHosts_of_round hround hf, List.mem_filter] at hactive
  exact ⟨hactive.1, by simpa using hactive.2⟩

end StopAll

/-- The first agent is stopped at the second attempt, the third not at all. -/
theorem tornDown_trio :
    Ordered trio.agents ∧
    ∃ log y, Undertaking.Reached AgentWork.rules Eq ⟨.zero, trio, trio.stopAll⟩ log y ∧
      log.map (fun c ↦ (c.call.host, c.asked)) =
        [("a", .zero), ("a", ⟨100000001⟩), ("c", ⟨100000002⟩), ("c", ⟨200000003⟩),
          ("c", ⟨400000004⟩)] ∧
      y.outcome = some (.count 1) ∧ y.fleet.activeHosts = ["c"] ∧ TornDown trio .zero log y := by
  have hf : Ordered trio.agents := by decide
  let refused : Fault := .connect "a" "refused"
  have hfirst : Undertaking.Reached AgentWork.rules Eq ⟨.zero, trio, trio.stopAll⟩ []
      ⟨.zero, trio, .call (trio.stopCall "a") none (.stopAll "a" (.new 3) ["c"] 0)⟩ := .start
  have hpause := hfirst.hears ⟨1⟩ _ (.error refused) rfl rfl
  have hsecond := hpause.rests _ rfl rfl
  have hnext := hsecond.hears ⟨1⟩ _ (.ok {}) rfl rfl
  have hpause₁ := hnext.hears ⟨1⟩ _ (.error refused) rfl rfl
  have hagain₁ := hpause₁.rests _ rfl rfl
  have hpause₂ := hagain₁.hears ⟨1⟩ _ (.error refused) rfl rfl
  have hagain₂ := hpause₂.rests _ rfl rfl
  have hover := hagain₂.hears ⟨1⟩ _ (.error refused) rfl rfl
  exact ⟨hf, _, _, hover, rfl, rfl, rfl, (tornDown hf .zero).1 _ _ hover⟩

end Fleet

end Rollout
