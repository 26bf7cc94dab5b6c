import Mathlib.Data.List.Nodup
import Mathlib.Logic.Function.Basic
import Rollout.Agents.Work
import Rollout.Proofs.Text.Pieces

namespace Rollout

namespace Fleet

variable {f g : Fleet} {now : Span} {host h : String}

section Agents

theorem find?_insertAgent (a : Agent) (bs : List Agent) :
    (insertAgent a bs).find? (fun b ↦ b.host == a.host) = some a := by
  induction bs with
  | nil => simp [insertAgent]
  | cons b bs ih =>
    rw [insertAgent]
    split
    · simp
    · rename_i hne
      split
      · simp
      · have hne' : ¬ b.host = a.host := fun heq ↦ hne (by simp [heq])
        rw [List.find?_cons_of_neg (by simpa using hne'), ih]

theorem find?_insertAgent_of_ne {a : Agent} (hne : a.host ≠ host) (bs : List Agent) :
    (insertAgent a bs).find? (fun b ↦ b.host == host) = bs.find? fun b ↦ b.host == host := by
  have hskip : ∀ (c : Agent) (cs : List Agent), c.host = a.host →
      (c :: cs).find? (fun b ↦ b.host == host) = cs.find? fun b ↦ b.host == host :=
    fun c cs hc ↦ List.find?_cons_of_neg (by simpa [hc] using hne)
  induction bs with
  | nil => exact hskip a [] rfl
  | cons b bs ih =>
    rw [insertAgent]
    split
    · rename_i heq
      rw [hskip a bs rfl, hskip b bs (beq_iff_eq.mp heq).symm]
    · split
      · exact hskip a (b :: bs) rfl
      · rw [List.find?_cons, List.find?_cons, ih]

/-- A list of agents in the order of their hosts, each of which has one agent. -/
def Ordered (as : List Agent) : Prop := (as.map Agent.host).Pairwise (· < ·)

instance (as : List Agent) : Decidable (Ordered as) :=
  inferInstanceAs (Decidable ((as.map Agent.host).Pairwise (· < ·)))

theorem Ordered.nodup {as : List Agent} (h : Ordered as) : (as.map Agent.host).Nodup :=
  h.imp ne_of_lt

theorem Ordered.lt_head {b : Agent} {bs : List Agent} (h : Ordered (b :: bs)) :
    ∀ host ∈ bs.map Agent.host, b.host < host := fun _ ↦ List.rel_of_pairwise_cons h

theorem Ordered.tail {b : Agent} {bs : List Agent} (h : Ordered (b :: bs)) : Ordered bs :=
  List.Pairwise.of_cons h

theorem mem_map_host_insertAgent {a : Agent} {bs : List Agent} :
    host ∈ (insertAgent a bs).map Agent.host ↔ host = a.host ∨ host ∈ bs.map Agent.host := by
  induction bs with
  | nil => simp [insertAgent]
  | cons b bs ih =>
    rw [insertAgent]
    split
    · rename_i heq
      simp [beq_iff_eq.mp heq]
    · split
      · simp
      · rw [List.map_cons, List.mem_cons, ih, List.map_cons, List.mem_cons]
        tauto

theorem Ordered.insertAgent {bs : List Agent} (h : Ordered bs) (a : Agent) :
    Ordered (insertAgent a bs) := by
  induction bs with
  | nil => exact List.pairwise_singleton ..
  | cons b bs ih =>
    rw [Fleet.insertAgent]
    split
    · rename_i heq
      rw [Ordered, List.map_cons, beq_iff_eq.mp heq]
      exact h
    · rename_i hne
      split
      · rename_i hlt
        rw [Text.lt_iff] at hlt
        refine List.Pairwise.cons (fun host hhost ↦ ?_) h
        rcases List.mem_cons.mp hhost with rfl | hmem
        · exact hlt
        · exact hlt.trans (h.lt_head host hmem)
      · rename_i hnlt
        rw [Text.lt_iff] at hnlt
        refine List.Pairwise.cons (fun host hhost ↦ ?_) (ih h.tail)
        rcases mem_map_host_insertAgent.mp hhost with rfl | hmem
        · exact lt_of_le_of_ne (not_lt.mp hnlt) fun heq ↦ hne (beq_iff_eq.mpr heq.symm)
        · exact h.lt_head host hmem

theorem map_host_insertAgent {a : Agent} {bs : List Agent} (h : Ordered bs)
    (ha : a.host ∈ bs.map Agent.host) :
    (Fleet.insertAgent a bs).map Agent.host = bs.map Agent.host := by
  induction bs with
  | nil => cases ha
  | cons b bs ih =>
    rw [Fleet.insertAgent]
    split
    · rename_i heq
      rw [List.map_cons, List.map_cons, beq_iff_eq.mp heq]
    · rename_i hne
      have hmem : a.host ∈ bs.map Agent.host :=
        (List.mem_cons.mp ha).resolve_left fun heq ↦ hne (beq_iff_eq.mpr heq)
      rw [if_neg (fun hlt ↦ lt_asymm ((Text.lt_iff ..).mp hlt) (h.lt_head _ hmem)), List.map_cons,
        ih h.tail hmem, List.map_cons]

theorem find?_of_mem {a : Agent} {as : List Agent} (h : Ordered as) (ha : a ∈ as) :
    (as.find? fun b ↦ b.host == a.host) = some a := by
  cases hfind : as.find? fun b ↦ b.host == a.host with
  | none => exact absurd (beq_self_eq_true _) (List.find?_eq_none.mp hfind a ha)
  | some b =>
    have hhost : b.host = a.host := by simpa using List.find?_some hfind
    rw [List.inj_on_of_nodup_map h.nodup (List.mem_of_find?_eq_some hfind) ha hhost]

end Agents

def entry (f : Fleet) (host : String) : Agent := (f.find? host).getD (f.unknownAgent host)

theorem host_of_find? {a : Agent} (h : f.find? host = some a) : a.host = host := by
  simpa using List.find?_some h

theorem host_entry : (f.entry host).host = host := by
  cases hfind : f.find? host with
  | none => rw [entry, hfind]; rfl
  | some a => rw [entry, hfind]; exact host_of_find? hfind

theorem entry_of_find? {a : Agent} (h : f.find? host = some a) : f.entry host = a := by
  rw [entry, h, Option.getD_some]

theorem find?_put_of_ne {a : Agent} (hne : a.host ≠ host) : (f.put a).find? host = f.find? host :=
  find?_insertAgent_of_ne hne f.agents

theorem find?_record (health : AgentHealth) (error : Option String) :
    (f.record now host health error).find? host =
      some (observed now health error (f.entry host)) := by
  have hfind := find?_insertAgent (observed now health error (f.entry host)) f.agents
  have hobserved : (observed now health error (f.entry host)).host = host := host_entry
  rwa [hobserved] at hfind

theorem find?_record_of_ne (hne : h ≠ host) (health : AgentHealth) (error : Option String) :
    (f.record now h health error).find? host = f.find? host :=
  find?_put_of_ne (a := observed now health error (f.entry h)) (host_entry.trans_ne hne)

theorem find?_countRestart {a : Agent} (h : f.find? host = some a) :
    (f.countRestart host).find? host = some { a with restarts := a.restarts + 1 } := by
  obtain rfl : a.host = host := host_of_find? h
  rw [countRestart, h]
  exact find?_insertAgent { a with restarts := a.restarts + 1 } f.agents

theorem find?_countRestart_of_ne (hne : h ≠ host) :
    (f.countRestart h).find? host = f.find? host := by
  cases hfind : f.find? h with
  | none => rw [countRestart, hfind]
  | some a =>
    rw [countRestart, hfind]
    exact find?_put_of_ne ((host_of_find? hfind).trans_ne hne)

theorem settings_countRestart : (f.countRestart h).settings = f.settings := by
  fun_cases countRestart f h <;> rfl

theorem command_countRestart (template : String) :
    (f.countRestart h).command template host = f.command template host := by
  fun_cases countRestart f h <;> rfl

/-- How the agents are dealt with, without the agents themselves. -/
def manner (f : Fleet) : Fleet := { f with agents := [] }

theorem manner_countRestart : (f.countRestart h).manner = f.manner := by
  fun_cases countRestart f h <;> rfl

theorem settings_of_manner (hm : g.manner = f.manner) : g.settings = f.settings :=
  (congrArg settings hm :)

theorem startCall_of_manner (hm : g.manner = f.manner) : g.startCall host = f.startCall host :=
  (congrArg (fun f ↦ f.startCall host) hm :)

theorem healthCall_of_manner (hm : g.manner = f.manner) : g.healthCall host = f.healthCall host :=
  (congrArg (fun f ↦ f.healthCall host) hm :)

theorem stopCall_of_manner (hm : g.manner = f.manner) : g.stopCall host = f.stopCall host :=
  (congrArg (fun f ↦ f.stopCall host) hm :)

theorem clock_of_manner (hm : g.manner = f.manner) : g.clock = f.clock := (congrArg clock hm :)

theorem deadline_of_manner (hm : g.manner = f.manner) : g.deadline now = f.deadline now :=
  (congrArg (fun f ↦ f.deadline now) hm :)

theorem probeBackoff_of_manner (hm : g.manner = f.manner) : g.probeBackoff = f.probeBackoff :=
  (congrArg probeBackoff hm :)

theorem unknownAgent_of_manner (hm : g.manner = f.manner) :
    g.unknownAgent host = f.unknownAgent host :=
  (congrArg (fun f ↦ f.unknownAgent host) hm :)

section Start

variable {deadline : Span} {backoff : Backoff} {e : Fault}

theorem continueStart_ready (h : f.clock.Shows (f.deadline now)) (out : CommandOutput) :
    f.continueStart now host .command (.reply (.ok out)) =
      (f, .call (f.healthCall host) none (.probe (f.deadline now) f.probeBackoff)) := if_pos h

theorem continueStart_unready (h : ¬f.clock.Shows (f.deadline now)) (out : CommandOutput) :
    f.continueStart now host .command (.reply (.ok out)) = (f, .done .brokenOff) := if_neg h

theorem continueStart_lost (h : ¬f.clock.Shows (backoff.delay.after now)) :
    f.continueStart now host (.probe deadline backoff) (.reply (.error e)) =
      (f, .done .brokenOff) := if_pos h

theorem continueStart_late (h : f.clock.Shows (backoff.delay.after now))
    (hlate : deadline < backoff.delay.after now) :
    f.continueStart now host (.probe deadline backoff) (.reply (.error e)) =
      f.failStart now host
        ("not healthy after " ++ f.settings.startTimeout.text ++ ": " ++ e.message) :=
  (if_neg (not_not.mpr h)).trans (if_pos hlate)

theorem continueStart_again (h : f.clock.Shows (backoff.delay.after now))
    (htime : ¬deadline < backoff.delay.after now) :
    f.continueStart now host (.probe deadline backoff) (.reply (.error e)) =
      (f, .pause backoff.delay (.rest deadline backoff.advance)) :=
  (if_neg (not_not.mpr h)).trans (if_neg htime)

end Start

theorem continueStart_fst (f : Fleet) (now : Span) (host : String) (stage : StartStage) (w : Wake) :
    (f.continueStart now host stage w).1 = f ∨
      ∃ health error, (f.continueStart now host stage w).1 = f.record now host health error := by
  fun_cases continueStart f now host stage w with
  | case3 | case4 | case6 => exact .inr ⟨_, _, rfl⟩
  | case1 | case2 | case5 | case7 | case8 | case9 | case10 => exact .inl rfl

theorem ordered_put (hf : Ordered f.agents) (a : Agent) : Ordered (f.put a).agents :=
  hf.insertAgent a

theorem ordered_record (hf : Ordered f.agents) (health : AgentHealth) (error : Option String) :
    Ordered (f.record now host health error).agents := ordered_put hf _

theorem ordered_countRestart (hf : Ordered f.agents) : Ordered (f.countRestart host).agents := by
  fun_cases countRestart f host with
  | case1 a _ => exact ordered_put hf _
  | case2 => exact hf

theorem ordered_adopt (hf : Ordered f.agents) : Ordered (f.adopt host).agents := by
  rw [adopt]
  split
  · exact hf
  · exact ordered_put hf _

theorem ordered_foldl_adopt (hf : Ordered f.agents) (hosts : List String) :
    Ordered (hosts.foldl adopt f).agents := by
  induction hosts generalizing f with
  | nil => exact hf
  | cons host hosts ih => exact ih (ordered_adopt hf)

def unwell (f : Fleet) (now : Span) (host : String) (e : Fault) : Fleet :=
  (f.record now host .unhealthy (some e.message)).countRestart host

section Checked

variable {todo : List String} {e : Fault}

theorem resume_superviseCheck_of_exec (he : e.isExec = true) :
    (AgentWork.superviseCheck host todo).resume now f (.reply (.error e)) =
      (f.unwell now host e, (f.unwell now host e).superviseMove host todo
        ((f.unwell now host e).beginStart host)) := by
  have hprobed : f.probed now host (.error e) =
      (f.record now host .unhealthy (some e.message), .ok .unhealthy) := if_pos he
  simp only [AgentWork.resume, hprobed]
  rfl

theorem resume_superviseCheck_of_not_exec (he : e.isExec = false) :
    (AgentWork.superviseCheck host todo).resume now f (.reply (.error e)) =
      (f, f.nextCheck todo) := by
  have hprobed : f.probed now host (.error e) = (f, .error e) :=
    if_neg (by rw [he]; exact Bool.false_ne_true)
  simp only [AgentWork.resume, hprobed]

end Checked

/-- What an activity does to the agents: it notes the health of one at most, and only a pass counts
the restart of an agent. -/
inductive Noted (f : Fleet) (now : Span) : AgentWork → Fleet → Prop
  | nothing (work : AgentWork) : Noted f now work f
  | health (work : AgentWork) (host : String) (health : AgentHealth) (error : Option String) :
      Noted f now work (f.record now host health error)
  | restart (host : String) (rest : List String) (e : Fault) :
      Noted f now (.superviseCheck host rest) (f.unwell now host e)

theorem noted_continueStart (work : AgentWork) (stage : StartStage) (w : Wake) :
    Noted f now work (f.continueStart now host stage w).1 := by
  rcases continueStart_fst f now host stage w with heq | ⟨health, error, heq⟩
  · rw [heq]
    exact .nothing work
  · rw [heq]
    exact .health work host health error

theorem noted_stopReplied (work : AgentWork) (r : Reply) :
    Noted f now work (f.stopReplied now host r).1 := by
  cases r with
  | ok out => exact .health work host .stopped none
  | error e => exact .nothing work

theorem noted_resume (f : Fleet) (now : Span) (work : AgentWork) (w : Wake) :
    Noted f now work (work.resume now f w).1 := by
  cases work with
  | start host stage | superviseStart host stage rest => exact noted_continueStart _ stage w
  | check host =>
    cases w with
    | rested => exact .nothing _
    | reply r =>
      simp only [AgentWork.resume]
      fun_cases probed f now host r with
      | case1 | case2 => exact .health _ host _ _
      | case3 => exact .nothing _
  | stop host =>
    cases w with
    | rested => exact .nothing _
    | reply r => exact noted_stopReplied _ r
  | stopAll host course rest stopped =>
    cases w with
    | rested => exact .nothing _
    | reply r =>
      simp only [AgentWork.resume]
      split <;> exact noted_stopReplied _ r
  | superviseCheck host rest =>
    cases w with
    | rested => exact .nothing _
    | reply r =>
      cases r with
      | ok out => exact .health _ host .healthy none
      | error e =>
        cases he : e.isExec with
        | true =>
          rw [resume_superviseCheck_of_exec he]
          exact .restart host rest e
        | false =>
          rw [resume_superviseCheck_of_not_exec he]
          exact .nothing _

theorem Noted.ordered {work : AgentWork} (h : Noted f now work g) (hf : Ordered f.agents) :
    Ordered g.agents := by
  cases h with
  | nothing => exact hf
  | health => exact ordered_record hf _ _
  | restart => exact ordered_countRestart (ordered_record hf _ _)

theorem ordered_of_hosts (h : g.agents.map Agent.host = f.agents.map Agent.host)
    (hf : Ordered f.agents) : Ordered g.agents := by
  rw [Ordered, h]
  exact hf

theorem hosts_put {a : Agent} (hf : Ordered f.agents) (ha : a.host ∈ f.agents.map Agent.host) :
    (f.put a).agents.map Agent.host = f.agents.map Agent.host := map_host_insertAgent hf ha

theorem mem_hosts {a : Agent} (h : f.find? host = some a) : host ∈ f.agents.map Agent.host :=
  host_of_find? h ▸ List.mem_map_of_mem (List.mem_of_find?_eq_some h)

theorem exists_find?_of_mem (h : host ∈ f.agents.map Agent.host) : ∃ a, f.find? host = some a := by
  obtain ⟨a, ha, rfl⟩ := List.mem_map.mp h
  exact Option.ne_none_iff_exists'.mp fun hnone ↦
    absurd (beq_self_eq_true _) (List.find?_eq_none.mp hnone a ha)

theorem isStopped_of_find? {a : Agent} (h : f.find? host = some a) :
    f.isStopped host = (a.health == .stopped) := by
  rw [isStopped, h]
  rfl

theorem activeHosts_eq (hf : Ordered f.agents) :
    f.activeHosts = (f.agents.map Agent.host).filter fun host ↦ !f.isStopped host := by
  rw [List.filter_map, activeHosts]
  refine congrArg (List.map Agent.host) (List.filter_congr fun a ha ↦ ?_)
  rw [Function.comp_apply, isStopped_of_find? (find?_of_mem hf ha)]
  rfl

theorem pairwise_activeHosts (hf : Ordered f.agents) : f.activeHosts.Pairwise (· < ·) := by
  rw [activeHosts_eq hf]
  exact List.Pairwise.filter _ hf

theorem mem_activeHosts_iff (hf : Ordered f.agents) :
    host ∈ f.activeHosts ↔ ∃ a, f.find? host = some a ∧ a.health ≠ .stopped := by
  rw [activeHosts_eq hf, List.mem_filter]
  constructor
  · rintro ⟨hmem, hgoing⟩
    obtain ⟨a, ha⟩ := exists_find?_of_mem hmem
    rw [isStopped_of_find? ha] at hgoing
    exact ⟨a, ha, by simpa using hgoing⟩
  · rintro ⟨a, ha, hgoing⟩
    refine ⟨mem_hosts ha, ?_⟩
    rw [isStopped_of_find? ha]
    simpa using hgoing

/-- The same is known of the agent on a host, and it is dealt with in the same way. -/
structure Alike (host : String) (f g : Fleet) : Prop where
  manner : g.manner = f.manner
  find? : g.find? host = f.find? host

namespace Alike

variable {f g k : Fleet} {host : String} {now : Span}

theorem refl (f : Fleet) : Alike host f f := ⟨rfl, rfl⟩

theorem trans (h : Alike host f g) (h' : Alike host g k) : Alike host f k :=
  ⟨h'.manner.trans h.manner, h'.find?.trans h.find?⟩

theorem entry (h : Alike host f g) : g.entry host = f.entry host := by
  rw [Fleet.entry, Fleet.entry, h.find?, unknownAgent_of_manner h.manner]

theorem record (h : Alike host f g) (health : AgentHealth) (error : Option String) :
    Alike host (f.record now host health error) (g.record now host health error) := by
  refine ⟨h.manner, ?_⟩
  rw [find?_record, find?_record, h.entry]

theorem countRestart (h : Alike host f g) :
    Alike host (f.countRestart host) (g.countRestart host) := by
  refine ⟨by rw [manner_countRestart, manner_countRestart, h.manner], ?_⟩
  cases hfind : f.find? host with
  | none => rw [Fleet.countRestart, Fleet.countRestart, h.find?, hfind, h.find?]
  | some a => rw [find?_countRestart hfind, find?_countRestart (h.find?.trans hfind)]

end Alike

/-- Nothing has changed but what is known of the agent on a host. -/
structure ChangesOnly (host : String) (f g : Fleet) : Prop where
  manner : g.manner = f.manner
  hosts : g.agents.map Agent.host = f.agents.map Agent.host
  find? : ∀ other ≠ host, g.find? other = f.find? other

namespace ChangesOnly

variable {f g k : Fleet} {host : String} {now : Span}

theorem refl (f : Fleet) : ChangesOnly host f f := ⟨rfl, rfl, fun _ _ ↦ rfl⟩

theorem trans (h : ChangesOnly host f g) (h' : ChangesOnly host g k) : ChangesOnly host f k :=
  ⟨h'.manner.trans h.manner, h'.hosts.trans h.hosts,
    fun other hne ↦ (h'.find? other hne).trans (h.find? other hne)⟩

theorem record (hf : Ordered f.agents) (hhost : host ∈ f.agents.map Agent.host)
    (health : AgentHealth) (error : Option String) :
    ChangesOnly host f (f.record now host health error) := by
  have hentry : (f.entry host).host ∈ f.agents.map Agent.host := by rwa [host_entry]
  exact ⟨rfl, hosts_put (a := observed now health error (f.entry host)) hf hentry,
    fun other hne ↦ find?_record_of_ne hne.symm health error⟩

theorem countRestart (hf : Ordered f.agents) (hhost : host ∈ f.agents.map Agent.host) :
    ChangesOnly host f (f.countRestart host) := by
  refine ⟨manner_countRestart, ?_, fun other hne ↦ find?_countRestart_of_ne hne.symm⟩
  obtain ⟨a, ha⟩ := exists_find?_of_mem hhost
  obtain rfl := host_of_find? ha
  rw [Fleet.countRestart, ha]
  exact hosts_put (a := { a with restarts := a.restarts + 1 }) hf hhost

theorem ordered (h : ChangesOnly host f g) (hf : Ordered f.agents) : Ordered g.agents :=
  ordered_of_hosts h.hosts hf

theorem continueStart (hf : Ordered f.agents) (hhost : host ∈ f.agents.map Agent.host)
    (stage : StartStage) (w : Wake) : ChangesOnly host f (f.continueStart now host stage w).1 := by
  rcases continueStart_fst f now host stage w with heq | ⟨health, error, heq⟩
  · rw [heq]
    exact refl f
  · rw [heq]
    exact record hf hhost health error

theorem find?_eq (h : ChangesOnly host f g) :
    g.find? = Function.update f.find? host (g.find? host) := by
  funext other
  by_cases heq : other = host
  · rw [heq, Function.update_self]
  · rw [Function.update_of_ne heq, h.find? other heq]

end ChangesOnly

end Fleet

end Rollout
