import Rollout.Proofs.Agents.Rounds
import Rollout.Proofs.Agents.Started

namespace Rollout

variable {ω : Type}

namespace Fleet

def turnState : Option (Span × StartEnd) → TurnState
  | none => .underWay
  | some (ended, .result _) => .over ended
  | some (_, .brokenOff) => .brokenOff

/-- The contacts in the turn of a host in a pass, what is known of its agent after them, and where the
turn stands. -/
inductive Visit (f : Fleet) (host : String) (begun : Span) :
    List (Contact ω) → Option Agent → TurnState → Prop
  | checking : Visit f host begun [] (f.find? host) .underWay
  | answered {c : Contact ω} {out : CommandOutput} :
      c.Answers (f.healthCall host) begun (.ok out) →
      Visit f host begun [c] (some (observed c.heard .healthy none (f.entry host))) (.over c.heard)
  | unreachable {c : Contact ω} {e : Fault} :
      c.Answers (f.healthCall host) begun (.error e) → e.isExec = false →
      Visit f host begun [c] (f.find? host) (.over c.heard)
  | restarted {c : Contact ω} {e : Fault} {starts : List (Contact ω)} {entry : Option Agent}
      {ending : Option (Span × StartEnd)} :
      c.Answers (f.healthCall host) begun (.error e) → e.isExec = true →
      Launch (f.unwell c.heard host e) host c.heard starts entry ending →
      Visit f host begun (c :: starts) entry (turnState ending)

/-- A pass between two turns, or in a turn whose agent is started again or has broken it off. -/
inductive Passing (f : Fleet) (begun : Span) :
    List (Contact ω) → Undertaking AgentWork AgentAnswer → Prop
  | between {done todo : List String} {log : List (Contact ω)} {now : Span} {g : Fleet} :
      f.activeHosts = done ++ todo → Dealt (Visit f) f begun done log now g →
      Passing f begun log ⟨now, g, g.nextCheck todo⟩
  | starting {done todo : List String} {host : String} {log starts : List (Contact ω)}
      {since : Span} {g : Fleet} {c : Contact ω} {e : Fault}
      {x : Undertaking StartStage StartEnd} :
      f.activeHosts = done ++ host :: todo → Dealt (Visit f) f begun done log since g →
      c.Answers (f.healthCall host) since (.error e) → e.isExec = true →
      Launching (f.unwell c.heard host e) host c.heard starts x →
      (∀ r, x.outcome ≠ some (.result r)) → ChangesOnly host g x.fleet →
      Passing f begun (log ++ c :: starts)
        ⟨x.now, x.fleet, x.fleet.superviseMove host todo x.move⟩

section Passes

variable {f g k : Fleet} {begun now since : Span} {host : String} {done todo : List String}
  {log starts : List (Contact ω)}

theorem nextCheck_cons (h : g.isStopped host = false) :
    g.nextCheck (host :: todo) =
      .call (g.healthCall host) none (.superviseCheck host todo) := by
  rw [nextCheck, h, if_neg Bool.false_ne_true]

theorem not_brokenOff_nextCheck (todo : List String) :
    (Undertaking.mk now g (g.nextCheck todo)).outcome ≠ some .brokenOff := by
  induction todo with
  | nil => exact fun h ↦ by cases h
  | cons host todo ih =>
    rw [nextCheck]
    split
    · exact ih
    · exact fun h ↦ by cases h

theorem outcome_cases {x : Undertaking StartStage StartEnd}
    (h : ∀ r, x.outcome ≠ some (.result r)) :
    (∃ c within stage, x.move = .call c within stage) ∨ (∃ d stage, x.move = .pause d stage) ∨
      x.move = .done .brokenOff := by
  obtain ⟨now, g, m⟩ := x
  cases m with
  | call c within stage => exact .inl ⟨c, within, stage, rfl⟩
  | pause d stage => exact .inr (.inl ⟨d, stage, rfl⟩)
  | done e =>
    cases e with
    | result r => exact absurd rfl (h r)
    | brokenOff => exact .inr (.inr rfl)

theorem Passing.of_launching {c : Contact ω} {e : Fault}
    {x : Undertaking StartStage StartEnd} (hhosts : f.activeHosts = done ++ host :: todo)
    (h : Dealt (Visit f) f begun done log since g)
    (hc : c.Answers (f.healthCall host) since (.error e)) (he : e.isExec = true)
    (hx : Launching (f.unwell c.heard host e) host c.heard starts x)
    (honly : ChangesOnly host g x.fleet) :
    Passing f begun (log ++ c :: starts)
      ⟨x.now, x.fleet, x.fleet.superviseMove host todo x.move⟩ := by
  obtain ⟨now, k, m⟩ := x
  cases m with
  | call d within stage => exact .starting hhosts h hc he hx (fun _ hr ↦ by cases hr) honly
  | pause d stage => exact .starting hhosts h hc he hx (fun _ hr ↦ by cases hr) honly
  | done e' =>
    cases e' with
    | brokenOff => exact .starting hhosts h hc he hx (fun _ hr ↦ by cases hr) honly
    | result r =>
      have hdealt := h.next honly (.restarted hc he hx.launch)
      exact .between (hhosts.trans (List.append_cons ..)) hdealt

theorem Passing.progress {y : Undertaking AgentWork AgentAnswer} (h : Passing f begun log y)
    (hf : Ordered f.agents) : Progress (Visit f) f begun log y := by
  cases h with
  | @between done todo _ now g hhosts h =>
    cases todo with
    | nil =>
      rw [List.append_nil] at hhosts
      exact .complete (hhosts ▸ h.turns) rfl fun hbroken ↦ by cases hbroken
    | cons host todo =>
      have hsame : g.find? = Function.update g.find? host (f.find? host) := by
        rw [← (h.alike hf hhosts).find?, Function.update_eq_self]
      have hprogress := Progress.underWay (y := ⟨now, g, g.nextCheck (host :: todo)⟩) hhosts
        h.turns .checking (by rw [nextCheck_cons (h.isStopped hf hhosts)]; rfl) hsame
      rwa [List.append_nil] at hprogress
  | @starting done todo host log starts since g c e x hhosts h hc he hx hout honly =>
    have hvisit := Visit.restarted hc he hx.launch
    have hcases := outcome_cases hout
    obtain ⟨now, k, m⟩ := x
    obtain ⟨c', within, stage, rfl⟩ | ⟨d, stage, rfl⟩ | rfl := hcases
    · exact .underWay hhosts h.turns hvisit rfl honly.find?_eq
    · exact .underWay hhosts h.turns hvisit rfl honly.find?_eq
    · exact .brokenOff hhosts h.turns hvisit rfl honly.find?_eq

theorem Passing.restart (h : Dealt (Visit f) f begun done log since g) (hf : Ordered f.agents)
    (hhosts : f.activeHosts = done ++ host :: todo) {c : Contact ω} {e : Fault}
    (hc : c.Answers (f.healthCall host) since (.error e)) (he : e.isExec = true) :
    Passing f begun (log ++ [c])
      ⟨c.heard, g.unwell c.heard host e, (g.unwell c.heard host e).superviseMove host todo
        ((g.unwell c.heard host e).beginStart host)⟩ := by
  have hmem := h.mem_hosts hf hhosts
  have hrecord : ChangesOnly host g (g.record c.heard host .unhealthy (some e.message)) :=
    .record (h.ordered hf) hmem _ _
  have honly := hrecord.trans
    (.countRestart (hrecord.ordered (h.ordered hf)) (hrecord.hosts ▸ hmem))
  have halike : Alike host (f.unwell c.heard host e) (g.unwell c.heard host e) :=
    ((h.alike hf hhosts).record .unhealthy _).countRestart
  have hbegin : (g.unwell c.heard host e).beginStart host =
      (f.unwell c.heard host e).beginStart host := by
    rw [beginStart, beginStart, startCall_of_manner halike.manner]
  rw [hbegin]
  exact .of_launching hhosts h hc he (.commanding halike) honly

theorem Passing.checked (h : Dealt (Visit f) f begun done log now g) (hf : Ordered f.agents)
    (hhosts : f.activeHosts = done ++ host :: todo) (work : ω) (took : Span) (r : Reply) :
    Passing f begun (log ++ [⟨g.healthCall host, work, now, took.after now, r⟩])
      ⟨took.after now, ((AgentWork.superviseCheck host todo).resume (took.after now) g (.reply r)).1,
        ((AgentWork.superviseCheck host todo).resume (took.after now) g (.reply r)).2⟩ := by
  have halike := h.alike hf hhosts
  have hrest : f.activeHosts = done ++ [host] ++ todo := hhosts.trans (List.append_cons ..)
  have hanswers : (Contact.mk (g.healthCall host) work now (took.after now) r).Answers
      (f.healthCall host) now r := by
    rw [healthCall_of_manner halike.manner]
    exact Contact.answers_mk ..
  cases r with
  | ok out =>
    have hvisit := Visit.answered hanswers
    rw [← halike.entry, ← find?_record] at hvisit
    exact .between hrest (h.next (.record (h.ordered hf) (h.mem_hosts hf hhosts) _ _) hvisit)
  | error e =>
    cases he : e.isExec with
    | true =>
      rw [resume_superviseCheck_of_exec he]
      exact .restart h hf hhosts hanswers he
    | false =>
      rw [resume_superviseCheck_of_not_exec he]
      refine .between hrest (h.next (.refl g) ?_)
      rw [halike.find?]
      exact .unreachable hanswers he

variable {x : Undertaking AgentWork AgentAnswer}

theorem Passing.hears (h : Passing f begun log x) (hf : Ordered f.agents) {c : Call}
    {work : AgentWork} (hmove : x.move = .call c none work) (work' : ω) (took : Span) (r : Reply) :
    Passing f begun (log ++ [⟨c, work', x.now, took.after x.now, r⟩])
      ⟨took.after x.now, (work.resume (took.after x.now) x.fleet (.reply r)).1,
        (work.resume (took.after x.now) x.fleet (.reply r)).2⟩ := by
  cases h with
  | @between done todo _ now g hhosts h =>
    cases todo with
    | nil => cases hmove
    | cons host todo =>
      rw [nextCheck_cons (h.isStopped hf hhosts)] at hmove
      cases hmove
      exact .checked h hf hhosts work' took r
  | @starting done todo host log starts since g c' e x hhosts h hc he hx hout honly =>
    have hcases := outcome_cases hout
    obtain ⟨now, k, m⟩ := x
    obtain ⟨d, within, stage, rfl⟩ | ⟨d, stage, rfl⟩ | rfl := hcases
    · cases hmove
      rw [List.append_assoc, List.cons_append]
      refine .of_launching hhosts h hc he (hx.hears (.refl k) work' took r) (honly.trans ?_)
      exact .continueStart (honly.ordered (h.ordered hf))
        (honly.hosts ▸ h.mem_hosts hf hhosts) stage _
    · cases hmove
    · cases hmove

theorem Passing.rests (h : Passing f begun log x) (hf : Ordered f.agents) {d : Span}
    {work : AgentWork} (hmove : x.move = .pause d work) :
    Passing f begun log
      ⟨d.after x.now, (work.resume (d.after x.now) x.fleet .rested).1,
        (work.resume (d.after x.now) x.fleet .rested).2⟩ := by
  cases h with
  | @between done todo _ now g hhosts h =>
    cases todo with
    | nil => cases hmove
    | cons host todo =>
      rw [nextCheck_cons (h.isStopped hf hhosts)] at hmove
      cases hmove
  | @starting done todo host log starts since g c' e x hhosts h hc he hx hout honly =>
    have hcases := outcome_cases hout
    obtain ⟨now, k, m⟩ := x
    obtain ⟨d', within, stage, rfl⟩ | ⟨d', stage, rfl⟩ | rfl := hcases
    · cases hmove
    · cases hmove
      refine .of_launching hhosts h hc he (hx.rests (.refl k)) (honly.trans ?_)
      exact .continueStart (honly.ordered (h.ordered hf))
        (honly.hosts ▸ h.mem_hosts hf hhosts) stage _
    · cases hmove

theorem passing_of_reached (hf : Ordered f.agents) {log : List (Contact AgentWork)}
    (h : Undertaking.Reached AgentWork.rules Eq ⟨begun, f, f.supervise⟩ log x) :
    Passing f begun log x := by
  induction h with
  | start => exact .between (List.nil_append _).symm (.start f)
  | hears took _ r _ hfound hnext ih =>
    cases hfound
    cases hnext
    exact ih.hears hf rfl _ took r
  | rests _ _ hfound hnext ih =>
    cases hfound
    cases hnext
    exact ih.rests hf rfl

theorem Passing.not_inSight (h : Passing f begun log x) (hbroken : x.outcome = some .brokenOff) :
    ¬f.InSight x.now := by
  cases h with
  | @between done todo _ now g _ _ =>
    exact absurd hbroken (not_brokenOff_nextCheck todo)
  | @starting done todo host log starts since g c e x hhosts h hc he hx hout honly =>
    have hcases := outcome_cases hout
    obtain ⟨now, k, m⟩ := x
    obtain ⟨d, within, stage, rfl⟩ | ⟨d, stage, rfl⟩ | rfl := hcases
    · cases hbroken
    · cases hbroken
    · have hmanner : (f.unwell c.heard host e).manner = f.manner := manner_countRestart
      exact fun hsight ↦ hx.launch.not_inSight (hsight.of_manner hmanner)

theorem hosts_of_passing (h : Passing f begun log x) :
    x.fleet.agents.map Agent.host = f.agents.map Agent.host := by
  cases h with
  | between _ h => exact h.hosts
  | starting _ h _ _ _ _ honly => exact honly.hosts.trans h.hosts

end Passes

section Fates

variable {f : Fleet} {begun : Span} {host : String} {log turn : List (Contact ω)}
  {entry : Option Agent} {ending : Option (Span × StartEnd)} {state : TurnState}

/-- What has become of an agent whose check was answered in a pass. -/
def Fate (a a' : Agent) : Reply → Prop
  | .ok _ => a'.health = .healthy ∧ a'.restarts = a.restarts
  | .error e =>
    if e.isExec then
      (a'.health = .healthy ∨ a'.health = .unhealthy) ∧ a'.restarts = a.restarts + 1
    else a' = a

theorem Launch.fate (h : Launch f host begun log entry ending) (hended : ending.isSome) {b : Agent}
    (hb : f.find? host = some b) (hdown : b.health = .unhealthy) :
    ∃ a, entry = some a ∧ (a.health = .healthy ∨ a.health = .unhealthy) ∧
      a.restarts = b.restarts := by
  have hentry := congrArg Agent.restarts (entry_of_find? hb)
  cases h with
  | commanding | polling => cases hended
  | refused | late => exact ⟨_, rfl, .inr rfl, hentry⟩
  | healthy => exact ⟨_, rfl, .inl rfl, hentry⟩
  | unready | lost => exact ⟨b, hb, .inr hdown, rfl⟩

theorem find?_unwell {a : Agent} (h : f.find? host = some a) (now : Span) (e : Fault) :
    (f.unwell now host e).find? host =
      some { observed now .unhealthy (some e.message) a with restarts := a.restarts + 1 } := by
  have hrecord : (f.record now host .unhealthy (some e.message)).find? host = _ := find?_record ..
  rw [entry_of_find? h] at hrecord
  exact find?_countRestart hrecord

theorem Visit.fate (h : Visit f host begun turn entry state) (hstate : state ≠ .underWay) {a : Agent}
    (ha : f.find? host = some a) :
    ∃ c a', c ∈ turn ∧ c.call = f.healthCall host ∧ entry = some a' ∧ Fate a a' c.reply := by
  cases h with
  | checking => exact absurd rfl hstate
  | @answered c out hc =>
    refine ⟨c, _, List.mem_singleton_self c, hc.call_eq, rfl, ?_⟩
    rw [hc.reply_eq, entry_of_find? ha]
    exact ⟨rfl, rfl⟩
  | @unreachable c e hc he =>
    refine ⟨c, a, List.mem_singleton_self c, hc.call_eq, ha, ?_⟩
    rw [hc.reply_eq, Fate, he, if_neg Bool.false_ne_true]
  | @restarted c e starts _ ending hc he hlaunch =>
    have hended : ending.isSome := by
      cases ending with
      | none => exact absurd rfl hstate
      | some _ => rfl
    obtain ⟨a', hentry, hhealth, hrestarts⟩ :=
      hlaunch.fate hended (find?_unwell ha c.heard e) rfl
    refine ⟨c, a', List.mem_cons_self, hc.call_eq, hentry, ?_⟩
    rw [hc.reply_eq, Fate, if_pos he]
    exact ⟨hhealth, hrestarts⟩

theorem Polled.host_eq {ready due : Span} {n : Nat} (h : Polled f host begun ready n log due) :
    ∀ c ∈ log, c.call.host = host := by
  induction h with
  | commanded hc _ => exact hc.host_eq (List.forall_mem_nil _)
  | failed _ hp _ ih => exact hp.host_eq ih

theorem Launch.host_eq (h : Launch f host begun log entry ending) :
    ∀ c ∈ log, c.call.host = host := by
  cases h with
  | commanding => exact List.forall_mem_nil _
  | refused hc | unready hc => exact hc.host_eq (List.forall_mem_nil _)
  | polling hpolled => exact hpolled.host_eq
  | healthy hpolled hp | late hpolled hp | lost hpolled hp => exact hp.host_eq hpolled.host_eq

theorem Visit.host_eq (h : Visit f host begun turn entry state) : ∀ c ∈ turn, c.call.host = host := by
  cases h with
  | checking => exact List.forall_mem_nil _
  | answered hc | unreachable hc => exact hc.host_eq (List.forall_mem_nil _)
  | restarted hc _ hlaunch =>
    exact List.forall_mem_cons.mpr ⟨congrArg Call.host hc.call_eq, hlaunch.host_eq⟩

def Checked (f g : Fleet) (log : List (Contact ω)) (host : String) : Prop :=
  ∃ a a' c, f.find? host = some a ∧ g.find? host = some a' ∧ c ∈ log ∧
    c.call = f.healthCall host ∧ Fate a a' c.reply

theorem Visit.checked {g : Fleet} (h : Visit f host begun turn (g.find? host) state)
    (hstate : state ≠ .underWay) (hf : Ordered f.agents) (hhost : host ∈ f.activeHosts)
    (hsubset : turn ⊆ log) : Checked f g log host := by
  obtain ⟨a, ha, -⟩ := (mem_activeHosts_iff hf).mp hhost
  obtain ⟨c, a', hc, hcall, hentry, hfate⟩ := h.fate hstate ha
  exact ⟨a, a', c, ha, hentry, hsubset hc, hcall, hfate⟩

variable {y : Undertaking AgentWork AgentAnswer}

theorem Progress.checked (h : Progress (Visit f) f begun log y) (hf : Ordered f.agents)
    (hover : y.outcome.isSome) (hwhole : y.outcome ≠ some .brokenOff) :
    ∀ host ∈ f.activeHosts, Checked f y.fleet log host := by
  intro host hhost
  obtain ⟨since, turn, ended, hturn, hsubset⟩ := h.exists_turn hf hover hwhole hhost
  exact hturn.checked (fun hstate ↦ by cases hstate) hf hhost hsubset

/-- A pass that has broken off has dealt with the agents up to the one that broke it off. -/
theorem Progress.checked_of_brokenOff (h : Progress (Visit f) f begun log y) (hf : Ordered f.agents)
    (hbroken : y.outcome = some .brokenOff) :
    ∃ done host todo, f.activeHosts = done ++ host :: todo ∧
      (∀ h ∈ done ++ [host], Checked f y.fleet log h) ∧
      ∀ h ∈ todo, y.fleet.find? h = f.find? h ∧ ∀ c ∈ log, c.call.host ≠ h := by
  obtain ⟨done, host, todo, hhosts, hdone, htodo⟩ :=
    h.exists_turns_of_brokenOff hf (fun _ _ _ _ _ hvisit ↦ hvisit.host_eq) hbroken
  refine ⟨done, host, todo, hhosts, fun h hh ↦ ?_, htodo⟩
  obtain ⟨since, turn, state, hturn, hstate, hsubset⟩ := hdone h hh
  have hactive : h ∈ f.activeHosts := by
    rw [hhosts, List.append_cons]
    exact List.mem_append_left todo hh
  exact hturn.checked hstate hf hactive hsubset

end Fates

section Halting

open Undertaking

variable {others : Fleet → Fleet → Prop} {mayTake : Span → Prop} {f : Fleet}

theorem superviseMove_eq {host : String} {rest : List String} {m : Move StartStage StartEnd} :
    f.superviseMove host rest m =
      m.followedBy (fun stage ↦ .superviseStart host stage rest) (f.afterStart rest) := by
  cases m <;> rfl

theorem eq_of_rules_superviseStart {host : String} {rest : List String} {now : Span} {g : Fleet}
    {stage : StartStage} {w : Wake} {result : Fleet × Move AgentWork AgentAnswer}
    (h : AgentWork.rules now g (.superviseStart host stage rest) w result) :
    result = ((g.continueStart now host stage w).1,
      (g.continueStart now host stage w).2.followedBy (fun stage ↦ .superviseStart host stage rest)
        ((g.continueStart now host stage w).1.afterStart rest)) := by
  obtain rfl := h
  exact congrArg (Prod.mk _) superviseMove_eq

theorem halts_nextCheck (hothers : ∀ g k, others g k → k.manner = g.manner)
    (hprogress : (∀ n, 0 < (f.probeBackoff.nth n).nanos) ∨ ∀ took, mayTake took → 0 < took.nanos)
    (todo : List String) (now : Span) {g : Fleet} (hg : g.manner = f.manner) :
    Halts AgentWork.rules others mayTake ⟨now, g, g.nextCheck todo⟩ := by
  induction todo generalizing now g with
  | nil => exact .done _ _ _
  | cons host todo ih =>
    rw [nextCheck]
    split
    · exact ih now hg
    · refine .call fun took found r next _ hfound hnext ↦ ?_
      cases hnext
      have hmanner : found.manner = f.manner := (hothers g found hfound).trans hg
      cases r with
      | ok out => exact ih _ hmanner
      | error e =>
        cases he : e.isExec with
        | false =>
          rw [resume_superviseCheck_of_not_exec he]
          exact ih _ hmanner
        | true =>
          have hunwell : (found.unwell (took.after now) host e).manner = f.manner :=
            manner_countRestart.trans hmanner
          rw [resume_superviseCheck_of_exec he, superviseMove_eq]
          refine halts_beginStart (fun k ↦ k.afterStart todo)
            (fun _ _ _ _ _ ↦ eq_of_rules_superviseStart) hothers (fun now k e hk ↦ ?_) hprogress _
            hunwell
          cases e with
          | result r => exact ih now hk
          | brokenOff => exact .done _ _ _

end Halting

end Fleet

end Rollout
