import Rollout.Agents.Supervisor
import Rollout.Proofs.Agents.Passes

namespace Rollout

namespace Fleet

def restarts (f : Fleet) (host : String) : UInt32 := ((f.find? host).map Agent.restarts).getD 0

structure KeepsRestarts (f g : Fleet) : Prop where
  manner : g.manner = f.manner
  restarts : ∀ host, g.restarts host = f.restarts host

theorem KeepsRestarts.refl (f : Fleet) : KeepsRestarts f f := ⟨rfl, fun _ ↦ rfl⟩

section Counting

variable {f g : Fleet} {now : Span} {host other : String}

theorem restarts_of_find? {a : Agent} (h : f.find? host = some a) :
    f.restarts host = a.restarts := by
  rw [restarts, h]
  rfl

theorem restarts_entry : (f.entry host).restarts = f.restarts host := by
  rw [entry, restarts]
  cases f.find? host <;> rfl

theorem keepsRestarts_record (health : AgentHealth) (error : Option String) :
    KeepsRestarts f (f.record now host health error) := by
  refine ⟨rfl, fun other ↦ ?_⟩
  by_cases heq : host = other
  · subst heq
    rw [restarts_of_find? (find?_record health error), ← restarts_entry]
    rfl
  · rw [restarts, find?_record_of_ne heq, restarts]

theorem restarts_countRestart {a : Agent} (h : f.find? host = some a) :
    (f.countRestart host).restarts other = f.restarts other + if host = other then 1 else 0 := by
  by_cases heq : host = other
  · subst heq
    rw [restarts_of_find? (find?_countRestart h), restarts_of_find? h, if_pos rfl]
  · rw [restarts, find?_countRestart_of_ne heq, ← restarts, if_neg heq, UInt32.add_zero]

theorem keepsRestarts_continueStart (stage : StartStage) (w : Wake) :
    KeepsRestarts f (f.continueStart now host stage w).1 := by
  rcases continueStart_fst f now host stage w with heq | ⟨health, error, heq⟩
  · rw [heq]
    exact .refl f
  · rw [heq]
    exact keepsRestarts_record health error

end Counting

end Fleet

theorem Fleet.keepsRestarts_resume {f : Fleet} {now : Span} {work : AgentWork}
    (hwork : ∀ host todo, work ≠ .superviseCheck host todo) (w : Wake) :
    KeepsRestarts f (work.resume now f w).1 := by
  have hnoted := noted_resume f now work w
  generalize (work.resume now f w).1 = g at hnoted ⊢
  cases hnoted with
  | nothing => exact .refl f
  | health => exact keepsRestarts_record _ _
  | restart host todo e => exact absurd rfl (hwork host todo)

def AgentWork.awaited (f : Fleet) : AgentWork → Option Call
  | .superviseCheck host _ => some (f.healthCall host)
  | .superviseStart host .command _ => some (f.startCall host)
  | .superviseStart host (.probe ..) _ => some (f.healthCall host)
  | _ => none

def AgentWork.starts (host : String) : AgentWork → Bool
  | .superviseStart h .command _ => h == host
  | _ => false

def AgentWork.isResting : AgentWork → Bool
  | .superviseStart _ (.rest ..) _ => true
  | _ => false

def Move.OfPass (f : Fleet) : Move AgentWork AgentAnswer → Prop
  | .call c within work => within = none ∧ work.awaited f = some c
  | .pause _ work => work.isResting = true
  | .done _ => True

namespace Fleet

variable {f g found : Fleet} {now : Span} {host : String} {todo : List String}

/-- The start commands in a move of a pass have been counted. -/
structure Counted (f g : Fleet) (m : Move AgentWork AgentAnswer) : Prop where
  manner : g.manner = f.manner
  ofPass : m.OfPass f
  restarts : ∀ host,
    g.restarts host = f.restarts host + .ofNat (m.asked.countP fun p ↦ p.2.starts host)

theorem KeepsRestarts.counted (h : KeepsRestarts f g) {m : Move AgentWork AgentAnswer}
    (hm : m.OfPass f) (hnone : ∀ host, (m.asked.countP fun p ↦ p.2.starts host) = 0) :
    Counted f g m :=
  ⟨h.manner, hm, fun host ↦ by rw [h.restarts, hnone]; exact (UInt32.add_zero _).symm⟩

theorem counted_nextCheck (h : KeepsRestarts f g) : Counted f g (g.nextCheck todo) := by
  induction todo with
  | nil => exact h.counted trivial fun _ ↦ rfl
  | cons host todo ih =>
    rw [nextCheck]
    split
    · exact ih
    · exact h.counted ⟨rfl, congrArg some (healthCall_of_manner h.manner).symm⟩ fun _ ↦ rfl

def AfterCommand (f : Fleet) (host : String) : Move StartStage StartEnd → Prop
  | .call c within (.probe ..) => within = none ∧ c = f.healthCall host
  | .pause _ (.rest ..) => True
  | .done _ => True
  | _ => False

theorem afterCommand_continueStart {stage : StartStage} {w : Wake}
    (h : stage = .command → w ≠ .rested) :
    AfterCommand f host (f.continueStart now host stage w).2 := by
  fun_cases continueStart f now host stage w with
  | case1 | case8 | case10 => exact ⟨rfl, rfl⟩
  | case2 | case3 | case4 | case5 | case6 | case7 => trivial
  | case9 => exact absurd rfl (h rfl)

theorem counted_superviseMove (h : KeepsRestarts f g) {m : Move StartStage StartEnd}
    (hm : AfterCommand f host m) : Counted f g (g.superviseMove host todo m) := by
  cases m with
  | call c within stage =>
    cases stage with
    | probe deadline backoff => exact h.counted ⟨hm.1, congrArg some hm.2.symm⟩ fun _ ↦ rfl
    | _ => cases hm
  | pause d stage =>
    cases stage with
    | rest deadline backoff => exact h.counted rfl fun _ ↦ rfl
    | _ => cases hm
  | done e =>
    cases e with
    | result r => exact counted_nextCheck h
    | brokenOff => exact h.counted trivial fun _ ↦ rfl

theorem counted_unwell (now : Span) (e : Fault) :
    Counted f (f.unwell now host e)
      ((f.unwell now host e).superviseMove host todo ((f.unwell now host e).beginStart host)) := by
  have hrecord : KeepsRestarts f (f.record now host .unhealthy (some e.message)) :=
    keepsRestarts_record ..
  have hmanner : (f.unwell now host e).manner = f.manner := manner_countRestart
  refine ⟨hmanner, ⟨rfl, congrArg some (startCall_of_manner hmanner).symm⟩, fun other ↦ ?_⟩
  rw [unwell, restarts_countRestart (find?_record ..), hrecord.restarts]
  simp only [beginStart, superviseMove, Move.asked, List.countP_singleton, AgentWork.starts,
    beq_iff_eq, apply_ite UInt32.ofNat]
  rfl

theorem counted_reply {work : AgentWork} {c : Call} (hwork : work.awaited f = some c) (r : Reply) :
    Counted f (work.resume now f (.reply r)).1 (work.resume now f (.reply r)).2 := by
  cases work with
  | superviseCheck host todo =>
    cases r with
    | ok out => exact counted_nextCheck (keepsRestarts_record _ _)
    | error e =>
      cases he : e.isExec with
      | true =>
        rw [resume_superviseCheck_of_exec he]
        exact counted_unwell now e
      | false =>
        rw [resume_superviseCheck_of_not_exec he]
        exact counted_nextCheck (.refl f)
  | superviseStart host stage todo =>
    exact counted_superviseMove (keepsRestarts_continueStart stage _)
      (afterCommand_continueStart fun _ h ↦ by cases h)
  | _ => cases hwork

theorem counted_rested {work : AgentWork} (hwork : work.isResting = true) :
    Counted f (work.resume now f .rested).1 (work.resume now f .rested).2 := by
  cases work with
  | superviseStart host stage todo =>
    refine counted_superviseMove (keepsRestarts_continueStart stage _)
      (afterCommand_continueStart fun h ↦ ?_)
    subst h
    cases hwork
  | _ => cases hwork

theorem awaited_of_manner (hm : g.manner = f.manner) (work : AgentWork) :
    work.awaited g = work.awaited f := (congrArg work.awaited hm :)

theorem ofPass_of_manner (hm : g.manner = f.manner) (m : Move AgentWork AgentAnswer) :
    m.OfPass g = m.OfPass f := (congrArg m.OfPass hm :)

end Fleet

namespace Supervisor

def starts (host : String) (s : Supervisor) : Bool := s.pass.any (·.starts host)

/-- The supervisor goes on, and may be told to stop at any time. -/
def rules : Undertaking.Rules Supervisor SupervisorEnd := fun now f s w next ↦
  ∃ stopping, s.resume now f stopping w = next

def OfSupervisor (f : Fleet) : Move Supervisor SupervisorEnd → Prop
  | .call c within s => within = none ∧ ∃ work, s.pass = some work ∧ work.awaited f = some c
  | .pause _ s => ∀ work ∈ s.pass, work.isResting = true
  | .done _ => True

variable {f g found : Fleet} {now interval : Span} {stopping : Bool} {host : String}
  {s : Supervisor} {m : Move AgentWork AgentAnswer}

theorem ofSupervisor_await : OfSupervisor f (s.await now interval stopping) := by
  rw [await]
  split
  · trivial
  · intro work hwork
    cases hwork

theorem begin_of_ne (h : interval ≠ .zero) :
    s.begin now interval stopping = s.await now interval stopping := if_neg h

theorem ofSupervisor_begin : OfSupervisor f (s.begin now interval stopping) := by
  rw [begin]
  split
  · trivial
  · exact ofSupervisor_await

theorem ofSupervisor_afterPass (a : AgentAnswer) :
    OfSupervisor f (s.afterPass now interval stopping a) := by
  cases a with
  | brokenOff => trivial
  | _ => exact ofSupervisor_await

theorem ofSupervisor_passMove (hm : m.OfPass f) :
    OfSupervisor f (s.passMove now interval stopping m) := by
  cases m with
  | call c within work => exact ⟨hm.1, work, rfl, hm.2⟩
  | pause d work => exact fun work' hwork' ↦ Option.some.inj hwork' ▸ hm
  | done a => exact ofSupervisor_afterPass a

theorem asked_await : (s.await now interval stopping).asked = [] := by
  rw [await]
  split <;> rfl

theorem asked_begin : (s.begin now interval stopping).asked = [] := by
  rw [begin]
  split
  · rfl
  · exact asked_await

theorem asked_afterPass (a : AgentAnswer) : (s.afterPass now interval stopping a).asked = [] := by
  cases a with
  | brokenOff => rfl
  | _ => exact asked_await

theorem countP_asked_passMove :
    (s.passMove now interval stopping m).asked.countP (fun p ↦ p.2.starts host) =
      m.asked.countP fun p ↦ p.2.starts host := by
  cases m with
  | call c within work => rfl
  | pause d work => rfl
  | done a => rw [passMove, asked_afterPass]; rfl

/-- What the supervisor has called: its calls are those of passes, and every start command among them
was counted, in words of 32 bits. -/
structure Accounted (f : Fleet) (log : List (Contact Supervisor))
    (y : Undertaking Supervisor SupervisorEnd) : Prop where
  calls : ∀ p ∈ y.asked log, ∃ work, p.2.pass = some work ∧ work.awaited f = some p.1
  restarts : ∀ host, (y.fleet.restarts host).toNat =
    ((f.restarts host).toNat + (y.asked log).countP fun p ↦ p.2.starts host) % word32

namespace Accounted

variable {x y : Undertaking Supervisor SupervisorEnd} {log log' : List (Contact Supervisor)}

theorem start (hm : y.move.asked = []) (hf : y.fleet = f) : Accounted f [] y := by
  have hasked : y.asked [] = [] := hm
  refine ⟨fun p hp ↦ ?_, fun host ↦ ?_⟩
  · rw [hasked] at hp
    cases hp
  · rw [hasked, hf]
    exact (Nat.mod_eq_of_lt (f.restarts host).toNat_lt).symm

theorem next (h : Accounted f log x)
    (hlog : log'.map (fun c ↦ (c.call, c.work)) = x.asked log) (hy : OfSupervisor f y.move)
    (hrestarts : ∀ host, y.fleet.restarts host =
      x.fleet.restarts host + .ofNat (y.move.asked.countP fun p ↦ p.2.starts host)) :
    Accounted f log' y := by
  have hasked : y.asked log' = x.asked log ++ y.move.asked := by rw [Undertaking.asked, hlog]
  refine ⟨fun p hp ↦ ?_, fun host ↦ ?_⟩
  · rw [hasked, List.mem_append] at hp
    rcases hp with hp | hp
    · exact h.calls p hp
    · generalize y.move = m at hy hp
      cases m with
      | call c within s =>
        obtain rfl := List.mem_singleton.mp hp
        exact hy.2
      | _ => cases hp
  · have hsum := UInt32.toNat_add (x.fleet.restarts host)
      (.ofNat (y.move.asked.countP fun p ↦ p.2.starts host))
    rw [UInt32.toNat_ofNat', h.restarts, Nat.add_mod_mod] at hsum
    rw [hasked, List.countP_append, hrestarts, hsum, ← Nat.add_assoc]
    exact Nat.mod_add_mod ..

end Accounted

theorem resume_of_pass {work : AgentWork} (h : s.pass = some work) (w : Wake) :
    s.resume now f stopping w = ((work.resume now f w).1,
      s.passMove now f.settings.superviseInterval stopping (work.resume now f w).2) := by
  rw [resume, h]

structure Sound (f : Fleet) (log : List (Contact Supervisor))
    (x : Undertaking Supervisor SupervisorEnd) : Prop where
  manner : x.fleet.manner = f.manner
  move : OfSupervisor f x.move
  accounted : Accounted f log x

theorem Sound.pass {x : Undertaking Supervisor SupervisorEnd} {log log' : List (Contact Supervisor)}
    (h : Sound f log x) (hfound : Fleet.KeepsRestarts x.fleet found)
    (hm : Fleet.Counted found g m)
    (hlog : log'.map (fun c ↦ (c.call, c.work)) = x.asked log) (t : Span) :
    Sound f log' ⟨t, g, s.passMove now interval stopping m⟩ := by
  have hmanner : found.manner = f.manner := hfound.manner.trans h.manner
  have hmove : OfSupervisor f (s.passMove now interval stopping m) :=
    ofSupervisor_passMove (Fleet.ofPass_of_manner hmanner m ▸ hm.ofPass)
  refine ⟨hm.manner.trans hmanner, hmove, h.accounted.next hlog hmove fun host ↦ ?_⟩
  rw [hm.restarts, hfound.restarts, countP_asked_passMove]

theorem sound_of_reached {others : Fleet → Fleet → Prop}
    (hothers : ∀ g k, others g k → Fleet.KeepsRestarts g k) {begun : Span}
    {log : List (Contact Supervisor)} {y : Undertaking Supervisor SupervisorEnd}
    (h : Undertaking.Reached rules others
      ⟨begun, f, s.begin begun f.settings.superviseInterval stopping⟩ log y) :
    Sound f log y := by
  induction h with
  | start => exact ⟨rfl, ofSupervisor_begin, .start asked_begin rfl⟩
  | @hears log now g c s took found r _ _ hfound hnext ih =>
    obtain ⟨-, work, hpass, hawaited⟩ := ih.move
    obtain ⟨stopping, rfl⟩ := hnext
    have hkept := hothers g found hfound
    rw [← Fleet.awaited_of_manner (hkept.manner.trans ih.manner)] at hawaited
    rw [resume_of_pass hpass]
    refine ih.pass hkept (Fleet.counted_reply hawaited r) ?_ _
    rw [List.map_append]
    rfl
  | @rests log now g d s found _ _ hfound hnext ih =>
    obtain ⟨stopping, rfl⟩ := hnext
    have hkept := hothers g found hfound
    have hlog : log.map (fun c ↦ (c.call, c.work)) =
        Undertaking.asked (α := SupervisorEnd) log ⟨now, g, .pause d s⟩ := (List.append_nil _).symm
    cases hpass : s.pass with
    | some work =>
      rw [resume_of_pass hpass]
      exact ih.pass hkept (Fleet.counted_rested (ih.move work hpass)) hlog _
    | none =>
      rw [resume, hpass]
      cases stopping with
      | true =>
        refine ⟨hkept.manner.trans ih.manner, trivial, ih.accounted.next hlog trivial fun host ↦ ?_⟩
        exact (hkept.restarts host).trans (UInt32.add_zero _).symm
      | false => exact ih.pass hkept (Fleet.counted_nextCheck (.refl found)) hlog _

end Supervisor

namespace Fleet

/-- What may be seen of a pass with which nothing interferes. -/
structure Overseen (f : Fleet) (begun : Span) (log : List (Contact AgentWork))
    (y : Undertaking AgentWork AgentAnswer) : Prop where
  round : Round (Visit f) f begun log y
  checked : y.outcome.isSome → y.outcome ≠ some .brokenOff →
    ∀ host ∈ f.activeHosts, Checked f y.fleet log host
  /-- A pass that breaks off in the turn of a host does not come to those after it. -/
  checked_of_brokenOff : y.outcome = some .brokenOff →
    ∃ done host todo, f.activeHosts = done ++ host :: todo ∧
      (∀ h ∈ done ++ [host], Checked f y.fleet log h) ∧
      ∀ h ∈ todo, y.fleet.find? h = f.find? h ∧ ∀ c ∈ log, c.call.host ≠ h
  intact : f.InSight y.now → y.outcome ≠ some .brokenOff

/-- One pass of the supervisor, and all that it does while anything else goes on. -/
theorem supervised {f : Fleet} (hf : Ordered f.agents) (begun : Span) :
    (∀ log y, Undertaking.Reached AgentWork.rules Eq ⟨begun, f, f.supervise⟩ log y →
      Overseen f begun log y) ∧
    (∀ mayTake, (0 < f.settings.pollInitialBackoff ∧ 0 < f.settings.pollMaxBackoff ∨
        ∀ took, mayTake took → 0 < took.nanos) →
      Undertaking.Halts AgentWork.rules Eq mayTake ⟨begun, f, f.supervise⟩) ∧
    ∀ (s : Supervisor) stopping log y, Undertaking.Reached Supervisor.rules KeepsRestarts
        ⟨begun, f, s.begin begun f.settings.superviseInterval stopping⟩ log y →
      Supervisor.Accounted f log y := by
  refine ⟨fun log y h ↦ ?_, fun mayTake hprogress ↦ ?_, fun s stopping log y h ↦ ?_⟩
  · have hpassing := passing_of_reached hf h
    have hprogress := hpassing.progress hf
    exact ⟨hprogress.round hf (fun _ _ _ _ _ hvisit ↦ hvisit.host_eq) (hosts_of_passing hpassing),
      hprogress.checked hf, hprogress.checked_of_brokenOff hf,
      fun hsight hbroken ↦ hpassing.not_inSight hbroken hsight⟩
  · have hothers : ∀ g k : Fleet, g = k → k.manner = g.manner := fun g k hgk ↦ hgk ▸ rfl
    exact halts_nextCheck hothers (hprogress.imp_left probeBackoff_pos) _ begun rfl
  · exact (Supervisor.sound_of_reached (fun _ _ h ↦ h) h).accounted

/-- The first agent is down and started again; the third cannot be reached, or is stopped by somebody
else while the supervisor asks after the first. -/
theorem supervised_trio :
    Ordered trio.agents ∧
    (∃ log y, Undertaking.Reached AgentWork.rules Eq ⟨.zero, trio, trio.supervise⟩ log y ∧
      y.fleet.agents.map (fun a ↦ (a.health, a.restarts)) =
        [(.healthy, 1), (.stopped, 0), (.unknown, 0)] ∧ Overseen trio .zero log y) ∧
    ∃ log y, Undertaking.Reached Supervisor.rules KeepsRestarts
        ⟨.zero, trio, Supervisor.begin .zero trio.settings.superviseInterval false ⟨.zero, 0, none⟩⟩
        log y ∧
      y.fleet.restarts "a" = 1 ∧ Supervisor.Accounted trio log y := by
  have hf : Ordered trio.agents := by decide
  obtain ⟨hpass, -, hruns⟩ := supervised hf .zero
  have hcheck : Undertaking.Reached AgentWork.rules Eq ⟨.zero, trio, trio.supervise⟩ []
      ⟨.zero, trio, .call (trio.healthCall "a") none (.superviseCheck "a" ["c"])⟩ := .start
  have hcommand := hcheck.hears ⟨1⟩ _ (.error (.exec "a" 1 "")) rfl rfl
  have hprobe := hcommand.hears ⟨1⟩ _ (.ok {}) rfl rfl
  have hnext := hprobe.hears ⟨1⟩ _ (.ok {}) rfl rfl
  have hover := hnext.hears ⟨1⟩ _ (.error (.connect "c" "refused")) rfl rfl
  have hawait : Undertaking.Reached Supervisor.rules KeepsRestarts
      ⟨.zero, trio, Supervisor.begin .zero trio.settings.superviseInterval false ⟨.zero, 0, none⟩⟩ []
      ⟨.zero, trio, .pause .zero ⟨.zero, 0, none⟩⟩ := by
    rw [Supervisor.begin_of_ne (by decide)]
    exact .start
  have hbegun := hawait.rests _ (.refl trio) ⟨false, rfl⟩
  have hstopped : KeepsRestarts trio ((AgentWork.stop "c").resume .zero trio (.reply (.ok {}))).1 :=
    keepsRestarts_resume (fun _ _ h ↦ by cases h) _
  have hstart := hbegun.hears ⟨1⟩ _ (.error (.exec "a" 1 "")) hstopped ⟨false, rfl⟩
  exact ⟨hf, ⟨_, _, hover, rfl, hpass _ _ hover⟩, _, _, hstart, rfl, hruns _ _ _ _ hstart⟩

def endlessTrio : Fleet := { trio with settings := { startTimeoutSeconds := word63 - 1 } }

def worn : Fleet :=
  { trio with agents := [{ host := "a", interval := .zero, sink := "", restarts := 4294967295 }] }

/-- The first agent is down and started again, but the pass breaks off before the third; and the
count of restarts comes to zero. -/
theorem brokenOff_trio :
    (∃ log y, Undertaking.Reached AgentWork.rules Eq ⟨.zero, endlessTrio, endlessTrio.supervise⟩ log y ∧
      log.map (fun c ↦ c.call) = [endlessTrio.healthCall "a", endlessTrio.startCall "a"] ∧
      "c" ∈ endlessTrio.activeHosts ∧ y.outcome = some .brokenOff) ∧
    ∃ log y, Undertaking.Reached AgentWork.rules Eq ⟨.zero, worn, worn.supervise⟩ log y ∧
      (y.asked log).map Prod.fst = [worn.healthCall "a", worn.startCall "a"] ∧
      (worn.restarts "a").toNat = 4294967295 ∧ (y.fleet.restarts "a").toNat = 0 := by
  have hcheck : Undertaking.Reached AgentWork.rules Eq ⟨.zero, endlessTrio, endlessTrio.supervise⟩ []
      ⟨.zero, endlessTrio, .call (endlessTrio.healthCall "a") none (.superviseCheck "a" ["c"])⟩ :=
    .start
  have hcommand := hcheck.hears .zero _ (.error (.exec "a" 1 "")) rfl rfl
  have hend := hcommand.hears .zero _ (.ok {}) rfl rfl
  have hworn : Undertaking.Reached AgentWork.rules Eq ⟨.zero, worn, worn.supervise⟩ []
      ⟨.zero, worn, .call (worn.healthCall "a") none (.superviseCheck "a" [])⟩ := .start
  have hagain := hworn.hears .zero _ (.error (.exec "a" 1 "")) rfl rfl
  exact ⟨⟨_, _, hend, rfl, by decide, rfl⟩, _, _, hagain, rfl, rfl, rfl⟩

end Fleet

end Rollout
