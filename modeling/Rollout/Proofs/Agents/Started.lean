import Rollout.Proofs.Agents.Undertaking
import Rollout.Proofs.Retry.Backoff

namespace Rollout

variable {ω : Type}

structure Contact.Answers (c : Contact ω) (call : Call) (t : Span) (r : Reply) : Prop where
  call_eq : c.call = call
  asked_eq : c.asked = t
  asked_le : c.asked ≤ c.heard
  reply_eq : c.reply = r

theorem Contact.answers_mk (call : Call) (work : ω) (t took : Span) (r : Reply) :
    (Contact.mk call work t (took.after t) r).Answers call t r :=
  ⟨rfl, rfl, Nat.le_add_right .., rfl⟩

theorem Contact.Answers.host_eq {log : List (Contact ω)} {p : Contact ω} {call : Call} {t : Span}
    {r : Reply} (hp : p.Answers call t r) (hlog : ∀ c ∈ log, c.call.host = call.host) :
    ∀ c ∈ log ++ [p], c.call.host = call.host :=
  List.forall_mem_append.mpr
    ⟨hlog, List.forall_mem_singleton.mpr (congrArg Call.host hp.call_eq)⟩

namespace Fleet

/-- The first `n` probes of a start, after a start command that has succeeded at `ready`: they have
failed, each with time for another. The next one is due. -/
inductive Polled (f : Fleet) (host : String) (begun : Span) :
    (ready : Span) → (n : Nat) → List (Contact ω) → (due : Span) → Prop
  | commanded {c : Contact ω} {out : CommandOutput} :
      c.Answers (f.startCall host) begun (.ok out) → f.clock.Shows (f.deadline c.heard) →
      Polled f host begun c.heard 0 [c] c.heard
  | failed {ready due : Span} {n : Nat} {log : List (Contact ω)} {p : Contact ω} {e : Fault} :
      Polled f host begun ready n log due → p.Answers (f.healthCall host) due (.error e) →
      (f.probeBackoff.nth n).after p.heard ≤ f.deadline ready →
      Polled f host begun ready (n + 1) (log ++ [p]) ((f.probeBackoff.nth n).after p.heard)

/-- The contacts in the start of an agent, what is known of the agent after them, and when and how
the start has ended. -/
inductive Launch (f : Fleet) (host : String) (begun : Span) :
    List (Contact ω) → Option Agent → Option (Span × StartEnd) → Prop
  | commanding : Launch f host begun [] (f.find? host) none
  | refused {c : Contact ω} {e : Fault} :
      c.Answers (f.startCall host) begun (.error e) →
      Launch f host begun [c]
        (some (observed c.heard .unhealthy (some ("start command failed: " ++ e.message))
          (f.entry host)))
        (some (c.heard, .result (.error
          (.agentStart host ("start command failed: " ++ e.message)))))
  | unready {c : Contact ω} {out : CommandOutput} :
      c.Answers (f.startCall host) begun (.ok out) → ¬f.clock.Shows (f.deadline c.heard) →
      Launch f host begun [c] (f.find? host) (some (c.heard, .brokenOff))
  | polling {ready due : Span} {n : Nat} {log : List (Contact ω)} :
      Polled f host begun ready n log due → Launch f host begun log (f.find? host) none
  | healthy {ready due : Span} {n : Nat} {log : List (Contact ω)} {p : Contact ω}
      {out : CommandOutput} :
      Polled f host begun ready n log due → p.Answers (f.healthCall host) due (.ok out) →
      Launch f host begun (log ++ [p]) (some (observed p.heard .healthy none (f.entry host)))
        (some (p.heard, .result (.ok (observed p.heard .healthy none (f.entry host)))))
  | late {ready due : Span} {n : Nat} {log : List (Contact ω)} {p : Contact ω} {e : Fault}
      {message : String} :
      Polled f host begun ready n log due → p.Answers (f.healthCall host) due (.error e) →
      f.clock.Shows ((f.probeBackoff.nth n).after p.heard) →
      f.deadline ready < (f.probeBackoff.nth n).after p.heard →
      message = "not healthy after " ++ f.settings.startTimeout.text ++ ": " ++ e.message →
      Launch f host begun (log ++ [p])
        (some (observed p.heard .unhealthy (some message) (f.entry host)))
        (some (p.heard, .result (.error (.agentStart host message))))
  | lost {ready due : Span} {n : Nat} {log : List (Contact ω)} {p : Contact ω} {e : Fault} :
      Polled f host begun ready n log due → p.Answers (f.healthCall host) due (.error e) →
      ¬f.clock.Shows ((f.probeBackoff.nth n).after p.heard) →
      Launch f host begun (log ++ [p]) (f.find? host) (some (p.heard, .brokenOff))

/-- A start under way, as far as it has come. -/
inductive Launching (f : Fleet) (host : String) (begun : Span) :
    List (Contact ω) → Undertaking StartStage StartEnd → Prop
  | commanding {g : Fleet} :
      Alike host f g → Launching f host begun [] ⟨begun, g, f.beginStart host⟩
  | probing {ready due : Span} {n : Nat} {log : List (Contact ω)} {g : Fleet} :
      Alike host f g → Polled f host begun ready n log due →
      Launching f host begun log ⟨due, g, .call (f.healthCall host) none
        (.probe (f.deadline ready) (Backoff.advance^[n] f.probeBackoff))⟩
  | resting {ready now d : Span} {n : Nat} {log : List (Contact ω)} {g : Fleet} :
      Alike host f g → Polled f host begun ready n log (d.after now) →
      Launching f host begun log ⟨now, g, .pause d
        (.rest (f.deadline ready) (Backoff.advance^[n] f.probeBackoff))⟩
  | ended {now : Span} {e : StartEnd} {log : List (Contact ω)} {g : Fleet} :
      g.manner = f.manner → Launch f host begun log (g.find? host) (some (now, e)) →
      Launching f host begun log ⟨now, g, .done e⟩

section Steps

variable {f g found : Fleet} {host : String} {begun now : Span} {log : List (Contact ω)}

theorem Alike.continueStart (h : Alike host f g) (now : Span) (stage : StartStage) (w : Wake) :
    Alike host (f.continueStart now host stage w).1 (g.continueStart now host stage w).1 ∧
      (g.continueStart now host stage w).2 = (f.continueStart now host stage w).2 := by
  have hsettings := settings_of_manner h.manner
  have hcall : g.healthCall host = f.healthCall host := healthCall_of_manner h.manner
  cases stage with
  | command =>
    cases w with
    | rested =>
      simp only [Fleet.continueStart, beginStart]
      rw [startCall_of_manner h.manner]
      exact ⟨h, rfl⟩
    | reply r =>
      cases r with
      | error e => exact ⟨h.record .unhealthy _, rfl⟩
      | ok out =>
        simp only [Fleet.continueStart, deadline_of_manner h.manner, clock_of_manner h.manner,
          probeBackoff_of_manner h.manner, hcall]
        split <;> exact ⟨h, rfl⟩
  | rest deadline backoff =>
    simp only [Fleet.continueStart]
    rw [hcall]
    exact ⟨h, rfl⟩
  | probe deadline backoff =>
    cases w with
    | rested =>
      simp only [Fleet.continueStart]
      rw [hcall]
      exact ⟨h, rfl⟩
    | reply r =>
      cases r with
      | ok out =>
        have hrecord : Alike host (f.record now host .healthy none)
            (g.record now host .healthy none) := h.record ..
        simp only [Fleet.continueStart]
        exact ⟨hrecord, congrArg (Move.done ∘ StartEnd.result ∘ Except.ok) hrecord.entry⟩
      | error e =>
        simp only [Fleet.continueStart, hsettings, clock_of_manner h.manner]
        split
        · exact ⟨h, rfl⟩
        · split
          · exact ⟨h.record .unhealthy _, rfl⟩
          · exact ⟨h, rfl⟩

theorem Launching.hears {c : Call} {stage : StartStage}
    (h : Launching f host begun log ⟨now, g, .call c none stage⟩) (hfound : Alike host g found)
    (work : ω) (took : Span) (r : Reply) :
    Launching f host begun (log ++ [⟨c, work, now, took.after now, r⟩])
      ⟨took.after now, (found.continueStart (took.after now) host stage (.reply r)).1,
        (found.continueStart (took.after now) host stage (.reply r)).2⟩ := by
  cases h with
  | commanding hf =>
    obtain ⟨halike, hmove⟩ := (hf.trans hfound).continueStart (took.after begun) .command (.reply r)
    have hanswers := Contact.answers_mk (f.startCall host) work begun took r
    rw [hmove]
    cases r with
    | ok out =>
      by_cases hshown : f.clock.Shows (f.deadline (took.after begun))
      · rw [continueStart_ready hshown] at halike ⊢
        exact .probing halike (.commanded hanswers hshown)
      · rw [continueStart_unready hshown] at halike ⊢
        exact .ended halike.manner (halike.find? ▸ .unready hanswers hshown)
    | error e =>
      refine .ended halike.manner ?_
      rw [halike.find?.trans (find?_record ..)]
      exact .refused hanswers
  | @probing ready _ n _ _ hf hpolled =>
    obtain ⟨halike, hmove⟩ := (hf.trans hfound).continueStart (took.after now)
      (.probe (f.deadline ready) (Backoff.advance^[n] f.probeBackoff)) (.reply r)
    have hanswers := Contact.answers_mk (f.healthCall host) work now took r
    rw [hmove]
    cases r with
    | ok out =>
      have hfind : (f.record (took.after now) host .healthy none).find? host = _ := find?_record ..
      refine .ended halike.manner ?_
      rw [halike.find?.trans hfind,
        show healthyAgent _ host = _ from entry_of_find? hfind]
      exact .healthy hpolled hanswers
    | error e =>
      by_cases hshown : f.clock.Shows ((f.probeBackoff.nth n).after (took.after now))
      · by_cases hlate : f.deadline ready < (f.probeBackoff.nth n).after (took.after now)
        · rw [continueStart_late hshown hlate] at halike ⊢
          refine .ended halike.manner ?_
          rw [halike.find?.trans (find?_record ..)]
          exact .late hpolled hanswers hshown hlate rfl
        · rw [continueStart_again hshown hlate, ← Function.iterate_succ_apply' Backoff.advance]
            at halike ⊢
          exact .resting halike (.failed hpolled hanswers (Nat.le_of_not_lt hlate))
      · rw [continueStart_lost hshown] at halike ⊢
        exact .ended halike.manner (halike.find? ▸ .lost hpolled hanswers hshown)

theorem Launching.rests {d : Span} {stage : StartStage}
    (h : Launching f host begun log ⟨now, g, .pause d stage⟩) (hfound : Alike host g found) :
    Launching f host begun log
      ⟨d.after now, (found.continueStart (d.after now) host stage .rested).1,
        (found.continueStart (d.after now) host stage .rested).2⟩ := by
  cases h with
  | @resting ready _ _ n _ _ hf hpolled =>
    obtain ⟨halike, hmove⟩ := (hf.trans hfound).continueStart (d.after now)
      (.rest (f.deadline ready) (Backoff.advance^[n] f.probeBackoff)) .rested
    rw [hmove]
    exact .probing halike hpolled

end Steps

section Seen

variable {f : Fleet} {host : String} {begun ready due : Span} {n : Nat} {log : List (Contact ω)}
  {entry : Option Agent} {ending : Option (Span × StartEnd)}

theorem Launching.launch {x : Undertaking StartStage StartEnd}
    (h : Launching f host begun log x) :
    Launch f host begun log (x.fleet.find? host) (x.outcome.map (x.now, ·)) := by
  cases h with
  | commanding hf => exact hf.find? ▸ .commanding
  | probing hf hpolled => exact hf.find? ▸ .polling hpolled
  | resting hf hpolled => exact hf.find? ▸ .polling hpolled
  | ended _ hlaunch => exact hlaunch

theorem Polled.length (h : Polled f host begun ready n log due) : log.length = n + 1 := by
  induction h with
  | commanded => rfl
  | failed _ _ _ ih => rw [List.length_append, ih, List.length_singleton]

theorem Polled.inTime (h : Polled f host begun ready n log due) :
    log.head?.map Contact.heard = some ready ∧ due ≤ f.deadline ready ∧
      ∀ p ∈ log.tail, p.asked ≤ f.deadline ready := by
  induction h with
  | commanded => exact ⟨rfl, Nat.le_add_right .., fun _ hp ↦ absurd hp List.not_mem_nil⟩
  | @failed ready due n log p e hpolled hanswers hle ih =>
    obtain ⟨hhead, hdue, hasked⟩ := ih
    obtain ⟨c, rest, rfl⟩ := List.exists_cons_of_length_eq_add_one hpolled.length
    refine ⟨hhead, hle, fun q hq ↦ ?_⟩
    rw [List.cons_append, List.tail_cons, List.mem_append, List.mem_singleton] at hq
    rcases hq with hq | rfl
    · exact hasked q hq
    · exact hanswers.asked_eq ▸ hdue

theorem Polled.mul_le (h : Polled f host begun ready n log due) {m : Nat}
    (hm : ∀ i, m ≤ (f.probeBackoff.nth i).nanos) : n * m + ready.nanos ≤ due.nanos := by
  induction h with
  | commanded => rw [Nat.zero_mul, Nat.zero_add]
  | @failed ready due n log p e _ hanswers _ ih =>
    have hasked : due.nanos ≤ p.heard.nanos := hanswers.asked_eq ▸ hanswers.asked_le
    have hdelay := hm n
    calc (n + 1) * m + ready.nanos = n * m + ready.nanos + m := by ring
      _ ≤ due.nanos + m := Nat.add_le_add_right ih m
      _ ≤ p.heard.nanos + (f.probeBackoff.nth n).nanos := Nat.add_le_add hasked hdelay

theorem Launch.exists_polled (h : Launch f host begun log entry ending) :
    log.tail = [] ∨ ∃ ready n polled due last, Polled f host begun ready n polled due ∧
      log = polled ++ last ∧ last.length ≤ 1 ∧ ∀ p ∈ last, p.asked = due := by
  cases h with
  | commanding => exact .inl rfl
  | refused | unready => exact .inl rfl
  | polling hpolled =>
    exact .inr ⟨_, _, _, _, [], hpolled, (List.append_nil _).symm, Nat.zero_le 1,
      fun p hp ↦ absurd hp List.not_mem_nil⟩
  | healthy hpolled hanswers | late hpolled hanswers | lost hpolled hanswers =>
    exact .inr ⟨_, _, _, _, [_], hpolled, rfl, le_rfl,
      List.forall_mem_singleton.mpr hanswers.asked_eq⟩

theorem Launch.inTime (h : Launch f host begun log entry ending) :
    ∀ c ∈ log.head?, ∀ p ∈ log.tail, p.asked ≤ f.deadline c.heard := by
  rcases h.exists_polled with hnil | ⟨ready, n, polled, due, last, hpolled, rfl, -, hlast⟩
  · intro c _ p hp
    rw [hnil] at hp
    cases hp
  · obtain ⟨hhead, hdue, hasked⟩ := hpolled.inTime
    obtain ⟨s, rest, rfl⟩ := List.exists_cons_of_length_eq_add_one hpolled.length
    intro c hc p hp
    obtain rfl : s = c := by simpa using hc
    obtain rfl : s.heard = ready := by simpa using hhead
    rcases List.mem_append.mp hp with hp | hp
    · exact hasked p hp
    · exact hlast p hp ▸ hdue

end Seen

end Fleet

/-- Delays between probes from one to `2 ^ 32` milliseconds. -/
structure AgentSettings.Patient (s : AgentSettings) : Prop where
  initial_pos : 1 ≤ s.pollInitialBackoff
  initial_le : s.pollInitialBackoff ≤ 2 ^ 32
  max_pos : 1 ≤ s.pollMaxBackoff
  max_le : s.pollMaxBackoff ≤ 2 ^ 32

theorem AgentSettings.Patient.initial_lt {s : AgentSettings} (h : s.Patient) :
    (Span.ofMillis s.pollInitialBackoff).nanos < 2 ^ 52 := by
  have := h.initial_le
  simp only [Span.ofMillis]
  omega

theorem AgentSettings.Patient.max_lt {s : AgentSettings} (h : s.Patient) :
    (Span.ofMillis s.pollMaxBackoff).nanos < 2 ^ 52 := by
  have := h.max_le
  simp only [Span.ofMillis]
  omega

namespace Fleet

section Delays

variable {f : Fleet} {host : String} {begun ready due : Span} {n : Nat} {log : List (Contact ω)}
  {entry : Option Agent} {ending : Option (Span × StartEnd)}

theorem nth_probeBackoff (hf : f.settings.Patient) (n : Nat) :
    f.probeBackoff.nth n =
      .ofMillis (Nat.min (f.settings.pollInitialBackoff * 2 ^ n) f.settings.pollMaxBackoff) :=
  Backoff.nth_new_ofMillis hf.initial_lt hf.max_lt n

theorem le_nth_probeBackoff (hf : f.settings.Patient) (n : Nat) :
    Nat.min f.settings.pollInitialBackoff f.settings.pollMaxBackoff * 1000000 ≤
      (f.probeBackoff.nth n).nanos :=
  (Nat.mul_min_mul_right ..).symm.trans_le (Backoff.le_nth_new hf.initial_lt hf.max_lt n)

theorem probeBackoff_pos
    (hpos : 0 < f.settings.pollInitialBackoff ∧ 0 < f.settings.pollMaxBackoff) (n : Nat) :
    0 < (f.probeBackoff.nth n).nanos :=
  Backoff.nth_new_pos (Nat.mul_pos hpos.1 (by decide)) (Nat.mul_pos hpos.2 (by decide)) n

theorem Launch.few (h : Launch f host begun log entry ending) (hf : f.settings.Patient) :
    log.tail.length ≤ 1 + f.settings.startTimeout.millis /
      Nat.min f.settings.pollInitialBackoff f.settings.pollMaxBackoff := by
  rcases h.exists_polled with hnil | ⟨ready, n, polled, due, last, hpolled, rfl, hlast, -⟩
  · rw [hnil]
    exact Nat.zero_le _
  · have hmin : 0 < Nat.min f.settings.pollInitialBackoff f.settings.pollMaxBackoff :=
      Nat.lt_min.mpr ⟨hf.initial_pos, hf.max_pos⟩
    have hspent := hpolled.mul_le (le_nth_probeBackoff hf)
    have hdue : due.nanos ≤ ready.nanos + f.settings.startTimeout.nanos := hpolled.inTime.2.1
    have hn : n ≤ f.settings.startTimeout.millis /
        Nat.min f.settings.pollInitialBackoff f.settings.pollMaxBackoff := by
      rw [Span.millis, Nat.div_div_eq_div_mul, Nat.le_div_iff_mul_le (by omega),
        Nat.mul_comm 1000000]
      omega
    rw [List.length_tail, List.length_append, hpolled.length]
    omega

end Delays

section Halting

open Undertaking

variable {α : Type} {rules : Rules ω α} {others : Fleet → Fleet → Prop} {mayTake : Span → Prop}
  {f : Fleet} {host : String} {wrap : StartStage → ω} (next : Fleet → StartEnd → Move ω α)

variable
  (hrules : ∀ now g stage w result, rules now g (wrap stage) w result →
    result = ((g.continueStart now host stage w).1,
      (g.continueStart now host stage w).2.followedBy wrap
        (next (g.continueStart now host stage w).1)))
  (hothers : ∀ g k, others g k → k.manner = g.manner)
  (hnext : ∀ now g e, g.manner = f.manner → Halts rules others mayTake ⟨now, g, next g e⟩)
  (hprogress : (∀ n, 0 < (f.probeBackoff.nth n).nanos) ∨ ∀ took, mayTake took → 0 < took.nanos)

include hrules hothers hnext hprogress

theorem halts_probe (deadline : Span) (k : Nat) (now : Span) (hk : deadline.nanos - now.nanos < k)
    (n : Nat) {g : Fleet} (hg : g.manner = f.manner) (c : Call) :
    Halts rules others mayTake
      ⟨now, g, .call c none (wrap (.probe deadline (Backoff.advance^[n] f.probeBackoff)))⟩ := by
  induction k generalizing now n g c with
  | zero => exact absurd hk (Nat.not_lt_zero _)
  | succ k ih =>
    refine .call fun took found r result htook hfound hresult ↦ ?_
    obtain rfl := hrules _ _ _ _ _ hresult
    have hmanner : found.manner = f.manner := (hothers g found hfound).trans hg
    cases r with
    | ok out => exact hnext _ _ _ hmanner
    | error e =>
      by_cases hshown : found.clock.Shows ((f.probeBackoff.nth n).after (took.after now))
      · by_cases hlate : deadline < (f.probeBackoff.nth n).after (took.after now)
        · rw [continueStart_late hshown hlate]
          exact hnext _ _ _ hmanner
        · rw [continueStart_again hshown hlate, ← Function.iterate_succ_apply' Backoff.advance,
            show (Backoff.advance^[n] f.probeBackoff).delay = f.probeBackoff.nth n from rfl]
          refine .pause fun found' result' hfound' hresult' ↦ ?_
          obtain rfl := hrules _ _ _ _ _ hresult'
          have htime : now.nanos < now.nanos + took.nanos + (f.probeBackoff.nth n).nanos := by
            rcases hprogress with hdelay | htakes
            · have := hdelay n
              omega
            · have := htakes took htook
              omega
          have hbefore : now.nanos + took.nanos + (f.probeBackoff.nth n).nanos ≤ deadline.nanos :=
            Nat.le_of_not_lt hlate
          refine ih _ ?_ (n + 1) ((hothers _ _ hfound').trans hmanner) _
          simp only [Span.after]
          omega
      · rw [continueStart_lost hshown]
        exact hnext _ _ _ hmanner

theorem halts_beginStart (now : Span) {g : Fleet} (hg : g.manner = f.manner) :
    Halts rules others mayTake ⟨now, g, (g.beginStart host).followedBy wrap (next g)⟩ := by
  refine .call fun took found r result htook hfound hresult ↦ ?_
  obtain rfl := hrules _ _ _ _ _ hresult
  have hmanner : found.manner = f.manner := (hothers g found hfound).trans hg
  cases r with
  | error e => exact hnext _ _ _ hmanner
  | ok out =>
    by_cases hshown : found.clock.Shows (found.deadline (took.after now))
    · have hprobe := halts_probe next hrules hothers hnext hprogress
        (found.deadline (took.after now)) _ (took.after now) (Nat.lt_succ_self _) 0 hmanner
        (found.healthCall host)
      rw [continueStart_ready hshown, probeBackoff_of_manner hmanner]
      exact hprobe
    · rw [continueStart_unready hshown]
      exact hnext _ _ _ hmanner

end Halting

/-- The clock can show all that a start has to reckon with at a time. -/
structure InSight (f : Fleet) (now : Span) : Prop where
  deadline : f.clock.Shows (f.deadline now)
  probe : ∀ n, f.clock.Shows ((f.probeBackoff.nth n).after now)

theorem InSight.of_manner {f g : Fleet} {now : Span} (h : f.InSight now)
    (hm : g.manner = f.manner) : g.InSight now := by
  refine ⟨?_, fun n ↦ ?_⟩
  · rw [clock_of_manner hm, deadline_of_manner hm]
    exact h.deadline
  · rw [clock_of_manner hm, probeBackoff_of_manner hm]
    exact h.probe n

theorem Launch.not_inSight {f : Fleet} {host : String} {begun now : Span} {log : List (Contact ω)}
    {entry : Option Agent} (h : Launch f host begun log entry (some (now, .brokenOff))) :
    ¬f.InSight now := by
  cases h with
  | unready _ hshown => exact fun hsight ↦ hshown hsight.deadline
  | lost _ _ hshown => exact fun hsight ↦ hshown (hsight.probe _)

/-- What is known of the agent on a host agrees with how its start has ended. -/
def Settled (f : Fleet) (host : String) (entry : Option Agent) : StartEnd → Prop
  | .result (.ok a) => entry = some a ∧ a.health = .healthy ∧ a.lastError = none
  | .result (.error e) => ∃ message a, e = .agentStart host message ∧ entry = some a ∧
      a.health = .unhealthy ∧ a.lastError = some message
  | .brokenOff => entry = f.find? host

theorem Launch.settled {f : Fleet} {host : String} {begun now : Span} {log : List (Contact ω)}
    {entry : Option Agent} {e : StartEnd}
    (h : Launch f host begun log entry (some (now, e))) : Settled f host entry e := by
  cases h with
  | refused | late => exact ⟨_, _, rfl, rfl, rfl, rfl⟩
  | healthy => exact ⟨rfl, rfl, rfl⟩
  | unready | lost => rfl

/-- What may be seen when an agent is to run on a host whose installation has a state. -/
structure Ensured (f : Fleet) (host : String) (state : Status) (others : Fleet → Fleet → Prop)
    (begun : Span) (log : List (Contact AgentWork)) (y : Undertaking AgentWork AgentAnswer) :
    Prop where
  premature : state ≠ .succeeded → log = [] ∧ y = ⟨begun, f, .done (.agent
    (.error (.agentStart host ("host is " ++ state.name ++ ", not succeeded"))))⟩
  running : state = .succeeded → ∀ a, f.find? host = some a → a.health = .healthy →
    log = [] ∧ y = ⟨begun, f, .done (.agent (.ok a))⟩
  launch : state = .succeeded → (∀ a, f.find? host = some a → a.health ≠ .healthy) →
    ∃ e : Option StartEnd, Launch f host begun log (y.fleet.find? host) (e.map (y.now, ·)) ∧
      y.outcome = e.map StartEnd.answer ∧ ∀ e' ∈ e, Settled f host (y.fleet.find? host) e'
  /-- A start breaks off only where the clock comes to its end. -/
  intact : f.InSight y.now → y.outcome ≠ some .brokenOff
  delays : ∀ n, f.probeBackoff.nth n =
    .ofMillis (Nat.min (f.settings.pollInitialBackoff * 2 ^ n) f.settings.pollMaxBackoff)
  inTime : ∀ c ∈ log.head?, ∀ p ∈ log.tail, p.asked ≤ f.deadline c.heard
  few : log.tail.length ≤ 1 + f.settings.startTimeout.millis /
    Nat.min f.settings.pollInitialBackoff f.settings.pollMaxBackoff
  elsewhere : ∀ h ≠ host, (∀ g k, others g k → k.find? h = g.find? h) →
    y.fleet.find? h = f.find? h

section Ensure

variable {f : Fleet} {host : String} {others : Fleet → Fleet → Prop} {begun : Span}
  {log : List (Contact AgentWork)} {y : Undertaking AgentWork AgentAnswer}

theorem find?_continueStart_of_ne {g : Fleet} {now : Span} {stage : StartStage} {w : Wake}
    {h : String} (hne : h ≠ host) :
    (g.continueStart now host stage w).1.find? h = g.find? h := by
  rcases continueStart_fst g now host stage w with heq | ⟨health, error, heq⟩
  · rw [heq]
  · rw [heq, find?_record_of_ne hne.symm]

theorem launching_of_reached (hothers : ∀ g k, others g k → Alike host g k)
    (h : Undertaking.Reached AgentWork.rules others
      ⟨begun, f, ((f.beginStart host).mapRest (.start host)).map StartEnd.answer⟩ log y) :
    ∃ x : Undertaking StartStage StartEnd, Launching f host begun log x ∧
      y = ⟨x.now, x.fleet, (x.move.mapRest (.start host)).map StartEnd.answer⟩ ∧
      ∀ h ≠ host, (∀ g k, others g k → k.find? h = g.find? h) → x.fleet.find? h = f.find? h := by
  induction h with
  | start => exact ⟨_, .commanding (.refl f), rfl, fun _ _ _ ↦ rfl⟩
  | hears took _ r _ hfound hnext ih =>
    obtain ⟨⟨now, g, m⟩, hlaunching, hy, helse⟩ := ih
    cases m with
    | call c within stage =>
      cases hy
      cases hnext
      refine ⟨_, hlaunching.hears (hothers _ _ hfound) _ took r, rfl, fun h hne hkeep ↦ ?_⟩
      exact (find?_continueStart_of_ne hne).trans ((hkeep _ _ hfound).trans (helse h hne hkeep))
    | _ => cases hy
  | rests _ _ hfound hnext ih =>
    obtain ⟨⟨now, g, m⟩, hlaunching, hy, helse⟩ := ih
    cases m with
    | pause d stage =>
      cases hy
      cases hnext
      refine ⟨_, hlaunching.rests (hothers _ _ hfound), rfl, fun h hne hkeep ↦ ?_⟩
      exact (find?_continueStart_of_ne hne).trans ((hkeep _ _ hfound).trans (helse h hne hkeep))
    | _ => cases hy

theorem ensure_of_ne {state : Status} (h : state ≠ .succeeded) :
    f.ensure host state =
      .done (.agent (.error (.agentStart host ("host is " ++ state.name ++ ", not succeeded")))) :=
  if_pos h

theorem ensure_of_healthy {a : Agent} (h : f.find? host = some a) (ha : a.health = .healthy) :
    f.ensure host .succeeded = .done (.agent (.ok a)) := by
  simp only [ensure, h, Agent.isHealthy, ha, ne_eq, not_true_eq_false, if_false, beq_self_eq_true,
    if_true]

theorem ensure_of_not_healthy (h : ∀ a, f.find? host = some a → a.health ≠ .healthy) :
    f.ensure host .succeeded = ((f.beginStart host).mapRest (.start host)).map StartEnd.answer := by
  simp only [ensure, ne_eq, not_true_eq_false, if_false]
  split
  · rename_i a ha
    exact if_neg (by simpa [Agent.isHealthy] using h a ha)
  · rfl

theorem not_brokenOff_ensure {state : Status} :
    (Undertaking.mk begun f (f.ensure host state)).outcome ≠ some .brokenOff := by
  intro h
  revert h
  fun_cases ensure f host state <;> rintro ⟨⟩

theorem Ensured.start (hf : f.settings.Patient) (state : Status) :
    Ensured f host state others begun [] ⟨begun, f, f.ensure host state⟩ where
  premature hstate := ⟨rfl, by rw [ensure_of_ne hstate]⟩
  running hstate _ hfind ha := ⟨rfl, by rw [hstate, ensure_of_healthy hfind ha]⟩
  launch hstate hnot :=
    ⟨none, .commanding, by rw [hstate, ensure_of_not_healthy hnot]; rfl, fun _ he ↦ by cases he⟩
  intact _ := not_brokenOff_ensure
  delays := nth_probeBackoff hf
  inTime _ hc := by cases hc
  few := Nat.zero_le _
  elsewhere _ _ _ := rfl

theorem outcome_answer {x : Undertaking StartStage StartEnd} :
    (Undertaking.mk x.now x.fleet ((x.move.mapRest (.start host)).map StartEnd.answer) :
      Undertaking AgentWork AgentAnswer).outcome = x.outcome.map StartEnd.answer := by
  obtain ⟨now, g, m⟩ := x
  cases m <;> rfl

theorem brokenOff_of_answer {e : Option StartEnd} (h : e.map StartEnd.answer = some .brokenOff) :
    e = some .brokenOff := by
  cases e with
  | none => cases h
  | some e =>
    cases e with
    | result r => cases h
    | brokenOff => rfl

theorem Launching.ensures {x : Undertaking StartStage StartEnd}
    (h : Launching f host begun log x) (hf : f.settings.Patient)
    (hnot : ∀ a, f.find? host = some a → a.health ≠ .healthy)
    (helse : ∀ h ≠ host, (∀ g k, others g k → k.find? h = g.find? h) →
      x.fleet.find? h = f.find? h) :
    Ensured f host .succeeded others begun log
      ⟨x.now, x.fleet, (x.move.mapRest (.start host)).map StartEnd.answer⟩ where
  premature hne := absurd rfl hne
  running _ a hfind ha := absurd ha (hnot a hfind)
  launch _ _ := by
    refine ⟨x.outcome, h.launch, outcome_answer, fun e he ↦ ?_⟩
    have hlaunch := h.launch
    rw [Option.mem_def] at he
    rw [he] at hlaunch
    exact hlaunch.settled
  intact hsight hbroken := by
    have hlaunch := h.launch
    rw [brokenOff_of_answer (outcome_answer.symm.trans hbroken)] at hlaunch
    exact hlaunch.not_inSight hsight
  delays := nth_probeBackoff hf
  inTime := h.launch.inTime
  few := h.launch.few hf
  elsewhere := helse

/-- Whatever is heard, and whatever happens to the agents on other hosts meanwhile. -/
theorem ensured (hf : f.settings.Patient) (hothers : ∀ g k, others g k → Alike host g k)
    (state : Status) (begun : Span) :
    (∀ log y, Undertaking.Reached AgentWork.rules others ⟨begun, f, f.ensure host state⟩ log y →
      Ensured f host state others begun log y) ∧
    Undertaking.Halts AgentWork.rules others (fun _ ↦ True) ⟨begun, f, f.ensure host state⟩ := by
  have hover : ∀ answer, f.ensure host state = .done answer →
      (∀ log y, Undertaking.Reached AgentWork.rules others ⟨begun, f, f.ensure host state⟩ log y →
        Ensured f host state others begun log y) ∧
      Undertaking.Halts AgentWork.rules others (fun _ ↦ True)
        ⟨begun, f, f.ensure host state⟩ := by
    intro answer hdone
    have hstart : Ensured f host state others begun [] ⟨begun, f, f.ensure host state⟩ :=
      .start hf state
    rw [hdone] at hstart ⊢
    refine ⟨fun log y h ↦ ?_, .done _ _ _⟩
    obtain ⟨rfl, rfl⟩ := h.of_done
    exact hstart
  by_cases hstate : state = .succeeded
  · subst hstate
    by_cases hrunning : ∃ a, f.find? host = some a ∧ a.health = .healthy
    · obtain ⟨a, hfind, ha⟩ := hrunning
      exact hover _ (ensure_of_healthy hfind ha)
    · have hnot : ∀ a, f.find? host = some a → a.health ≠ .healthy :=
        fun a hfind ha ↦ hrunning ⟨a, hfind, ha⟩
      rw [ensure_of_not_healthy hnot]
      refine ⟨fun log y h ↦ ?_, ?_⟩
      · obtain ⟨x, hlaunching, rfl, helse⟩ := launching_of_reached hothers h
        exact hlaunching.ensures hf hnot helse
      · rw [← Move.followedBy_done]
        refine halts_beginStart (fun _ e ↦ .done e.answer) (f := f) ?_
          (fun g k hgk ↦ (hothers g k hgk).manner) (fun _ _ _ _ ↦ .done _ _ _)
          (.inl (probeBackoff_pos ⟨hf.initial_pos, hf.max_pos⟩)) begun rfl
        rintro now g stage w _ rfl
        rw [Move.followedBy_done]
        rfl
  · exact hover _ (ensure_of_ne hstate)

end Ensure

def pair : Fleet where
  settings := {}
  sink := ""
  agents :=
    [{ host := "a", interval := .zero, sink := "", health := .unhealthy, lastError := some "gone" },
     { host := "b", interval := .zero, sink := "" }]

/-- The first agent is up at its second probe. In the meantime the second turns out to be healthy. -/
theorem ensured_pair :
    pair.settings.Patient ∧
    ∃ log y, Undertaking.Reached AgentWork.rules (Alike "a")
        ⟨.zero, pair, pair.ensure "a" .succeeded⟩ log y ∧
      log.map Contact.asked = [.zero, ⟨1⟩, ⟨500000003⟩] ∧
      (y.fleet.find? "a").map (fun a ↦ (a.health, a.lastError)) = some (.healthy, none) ∧
      (y.fleet.find? "b").map Agent.health = some .healthy ∧
      Ensured pair "a" .succeeded (Alike "a") .zero log y := by
  have hf : pair.settings.Patient := ⟨by decide, by decide, by decide, by decide⟩
  have hcommand : Undertaking.Reached AgentWork.rules (Alike "a")
      ⟨.zero, pair, pair.ensure "a" .succeeded⟩ []
      ⟨.zero, pair, .call (pair.startCall "a") none (.start "a" .command)⟩ := .start
  have hprobe := hcommand.hears ⟨1⟩ (pair.record ⟨1⟩ "b" .healthy none) (.ok {})
    ⟨rfl, find?_record_of_ne (by decide) _ _⟩ rfl
  have hrest := hprobe.hears ⟨2⟩ _ (.error (.exec "a" 1 "")) (Alike.refl _) rfl
  have hagain := hrest.rests _ (Alike.refl _) rfl
  have hend := hagain.hears ⟨3⟩ _ (.ok {}) (Alike.refl _) rfl
  exact ⟨hf, _, _, hend, rfl, rfl, rfl, (ensured hf (fun _ _ h ↦ h) .succeeded .zero).1 _ _ hend⟩

/-- An agent is given more time than the clock can show. -/
def endless : Fleet where
  settings := { startTimeoutSeconds := word63 - 1 }
  sink := ""

/-- The start command has succeeded, but no probe follows it, and nothing is noted or answered. -/
theorem brokenOff_endless :
    endless.settings.Patient ∧
    ∃ log y, Undertaking.Reached AgentWork.rules Eq
        ⟨.zero, endless, endless.ensure "a" .succeeded⟩ log y ∧
      log.map (fun c ↦ (c.call, c.reply)) = [(endless.startCall "a", .ok {})] ∧
      y.outcome = some .brokenOff ∧ y.fleet = endless := by
  have hcommand : Undertaking.Reached AgentWork.rules Eq
      ⟨.zero, endless, endless.ensure "a" .succeeded⟩ []
      ⟨.zero, endless, .call (endless.startCall "a") none (.start "a" .command)⟩ := .start
  have hend := hcommand.hears .zero _ (.ok {}) rfl rfl
  exact ⟨⟨by decide, by decide, by decide, by decide⟩, _, _, hend, rfl, rfl, rfl⟩

end Fleet

end Rollout
