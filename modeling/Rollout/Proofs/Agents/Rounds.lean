import Rollout.Proofs.Agents.Undertaking

namespace Rollout

variable {ω : Type}

inductive TurnState
  | underWay
  | over (ended : Span)
  | brokenOff

/-- What may be seen of the turn of a host: the contacts since it has begun, what is known of the
agent after them, and where it stands. -/
abbrev Turn (ω : Type) : Type :=
  (host : String) → (begun : Span) → List (Contact ω) → Option Agent → TurnState → Prop

/-- Nothing but its host is contacted in a turn. -/
def Turn.KeepsToHost (T : Turn ω) : Prop :=
  ∀ host since turn entry state, T host since turn entry state → ∀ c ∈ turn, c.call.host = host

/-- Hosts that have had their turns one after the other, each from the end of the one before: the
contacts, what is known of the agents afterwards, and when the last turn has ended. -/
inductive Turns (T : Turn ω) (known : String → Option Agent) (begun : Span) :
    List String → List (Contact ω) → (String → Option Agent) → Span → Prop
  | none : Turns T known begun [] [] known begun
  | next {hosts : List String} {log turn : List (Contact ω)} {entries : String → Option Agent}
      {now ended : Span} {host : String} {entry : Option Agent} :
      Turns T known begun hosts log entries now → T host now turn entry (.over ended) →
      Turns T known begun (hosts ++ [host]) (log ++ turn) (Function.update entries host entry)
        ended

namespace Turns

variable {T : Turn ω} {known entries : String → Option Agent} {begun now : Span}
  {hosts : List String} {log : List (Contact ω)} {host : String}

theorem known_of_notMem (h : Turns T known begun hosts log entries now) (hhost : host ∉ hosts) :
    entries host = known host := by
  induction h with
  | none => rfl
  | next _ _ ih =>
    rw [List.mem_append, List.mem_singleton, not_or] at hhost
    rw [Function.update_of_ne hhost.2, ih hhost.1]

theorem exists_turn (h : Turns T known begun hosts log entries now) (hnodup : hosts.Nodup)
    (hhost : host ∈ hosts) :
    ∃ since turn ended, T host since turn (entries host) (.over ended) ∧ turn ⊆ log := by
  induction h with
  | none => cases hhost
  | @next _ log turn _ since ended last _ _ hturn ih =>
    rw [List.nodup_append] at hnodup
    rcases List.mem_append.mp hhost with hmem | hlast
    · obtain ⟨since', turn', ended', hturn', hsubset⟩ := ih hnodup.1 hmem
      have hne : host ≠ last := fun heq ↦ hnodup.2.2 host hmem last (List.mem_singleton_self _) heq
      rw [Function.update_of_ne hne]
      exact ⟨since', turn', ended', hturn', fun c hc ↦ List.mem_append_left turn (hsubset hc)⟩
    · obtain rfl := List.mem_singleton.mp hlast
      rw [Function.update_self]
      exact ⟨since, turn, ended, hturn, List.subset_append_right log turn⟩

theorem mem_of_contact (h : Turns T known begun hosts log entries now)
    (hturn : T.KeepsToHost) {c : Contact ω} (hc : c ∈ log) : c.call.host ∈ hosts := by
  induction h with
  | none => cases hc
  | next _ hlast ih =>
    rcases List.mem_append.mp hc with hmem | hmem
    · exact List.mem_append_left _ (ih hmem)
    · exact List.mem_append_right _ (List.mem_singleton.mpr (hturn _ _ _ _ _ hlast c hmem))

end Turns

namespace Fleet

variable {f g k : Fleet} {begun now ended : Span} {done todo : List String} {host : String}
  {log turn : List (Contact ω)} {T : Turn ω} {y : Undertaking AgentWork AgentAnswer}

theorem notMem_of_activeHosts (hf : Ordered f.agents)
    (hhosts : f.activeHosts = done ++ host :: todo) : host ∉ done := by
  have hpairwise := pairwise_activeHosts hf
  rw [hhosts, List.pairwise_append] at hpairwise
  exact fun hmem ↦ lt_irrefl host (hpairwise.2.2 host hmem host List.mem_cons_self)

/-- These hosts have had their turns, and nothing else has changed. -/
structure Dealt (T : Turn ω) (f : Fleet) (begun : Span) (done : List String)
    (log : List (Contact ω)) (now : Span) (g : Fleet) : Prop where
  turns : Turns T f.find? begun done log g.find? now
  manner : g.manner = f.manner
  hosts : g.agents.map Agent.host = f.agents.map Agent.host

namespace Dealt

theorem start (f : Fleet) : Dealt T f begun [] [] begun f := ⟨.none, rfl, rfl⟩

theorem next (h : Dealt T f begun done log now g) (hk : ChangesOnly host g k)
    (hturn : T host now turn (k.find? host) (.over ended)) :
    Dealt T f begun (done ++ [host]) (log ++ turn) ended k := by
  refine ⟨?_, hk.manner.trans h.manner, hk.hosts.trans h.hosts⟩
  rw [hk.find?_eq]
  exact .next h.turns hturn

theorem ordered (h : Dealt T f begun done log now g) (hf : Ordered f.agents) :
    Ordered g.agents := ordered_of_hosts h.hosts hf

section NextTurn

variable (h : Dealt T f begun done log now g) (hf : Ordered f.agents)
  (hhosts : f.activeHosts = done ++ host :: todo)

include h hf hhosts

theorem alike : Alike host f g :=
  ⟨h.manner, h.turns.known_of_notMem (notMem_of_activeHosts hf hhosts)⟩

theorem exists_agent : ∃ a, g.find? host = some a ∧ a.health ≠ .stopped := by
  have hactive : host ∈ f.activeHosts := hhosts ▸ List.mem_append_right _ List.mem_cons_self
  obtain ⟨a, ha, hgoing⟩ := (mem_activeHosts_iff hf).mp hactive
  exact ⟨a, (h.alike hf hhosts).find?.trans ha, hgoing⟩

theorem mem_hosts : host ∈ g.agents.map Agent.host := by
  obtain ⟨a, ha, -⟩ := h.exists_agent hf hhosts
  exact Fleet.mem_hosts ha

theorem isStopped : g.isStopped host = false := by
  obtain ⟨a, ha, hgoing⟩ := h.exists_agent hf hhosts
  rw [isStopped_of_find? ha]
  exact beq_eq_false_iff_ne.mpr hgoing

end NextTurn

end Dealt

/-- How far an activity has come that deals with all agents that were not stopped. -/
inductive Progress (T : Turn ω) (f : Fleet) (begun : Span) :
    List (Contact ω) → Undertaking AgentWork AgentAnswer → Prop
  | underWay {done todo : List String} {host : String} {log turn : List (Contact ω)}
      {entries : String → Option Agent} {since : Span} {entry : Option Agent}
      {y : Undertaking AgentWork AgentAnswer} :
      f.activeHosts = done ++ host :: todo →
      Turns T f.find? begun done log entries since → T host since turn entry .underWay →
      y.outcome = none → y.fleet.find? = Function.update entries host entry →
      Progress T f begun (log ++ turn) y
  | brokenOff {done todo : List String} {host : String} {log turn : List (Contact ω)}
      {entries : String → Option Agent} {since : Span} {entry : Option Agent}
      {y : Undertaking AgentWork AgentAnswer} :
      f.activeHosts = done ++ host :: todo →
      Turns T f.find? begun done log entries since → T host since turn entry .brokenOff →
      y.outcome = some .brokenOff → y.fleet.find? = Function.update entries host entry →
      Progress T f begun (log ++ turn) y
  | complete {log : List (Contact ω)} {y : Undertaking AgentWork AgentAnswer} :
      Turns T f.find? begun f.activeHosts log y.fleet.find? y.now → y.outcome.isSome →
      y.outcome ≠ some .brokenOff → Progress T f begun log y

/-- What may be seen of such an activity: it contacts the hosts of these agents in order. -/
structure Round (T : Turn ω) (f : Fleet) (begun : Span) (log : List (Contact ω))
    (y : Undertaking AgentWork AgentAnswer) : Prop where
  active : ∀ host, host ∈ f.activeHosts ↔ ∃ a, f.find? host = some a ∧ a.health ≠ .stopped
  inOrder : f.activeHosts.Pairwise (· < ·)
  progress : Progress T f begun log y
  contacted : ∀ c ∈ log, c.call.host ∈ f.activeHosts
  spared : ∀ host ∉ f.activeHosts, y.fleet.find? host = f.find? host
  hosts : y.fleet.agents.map Agent.host = f.agents.map Agent.host

namespace Progress

theorem contacted (h : Progress T f begun log y)
    (hturn : T.KeepsToHost) : ∀ c ∈ log, c.call.host ∈ f.activeHosts := by
  intro c hc
  cases h with
  | underWay hhosts hturns hlast | brokenOff hhosts hturns hlast =>
    rw [hhosts]
    rcases List.mem_append.mp hc with hc | hc
    · exact List.mem_append_left _ (hturns.mem_of_contact hturn hc)
    · rw [hturn _ _ _ _ _ hlast c hc]
      exact List.mem_append_right _ List.mem_cons_self
  | complete hturns => exact hturns.mem_of_contact hturn hc

theorem spared (h : Progress T f begun log y) (hhost : host ∉ f.activeHosts) :
    y.fleet.find? host = f.find? host := by
  cases h with
  | underWay hhosts hturns _ _ hknown | brokenOff hhosts hturns _ _ hknown =>
    rw [hhosts, List.mem_append, List.mem_cons, not_or, not_or] at hhost
    rw [hknown, Function.update_of_ne hhost.2.1, hturns.known_of_notMem hhost.1]
  | complete hturns => exact hturns.known_of_notMem hhost

theorem round (h : Progress T f begun log y) (hf : Ordered f.agents)
    (hturn : T.KeepsToHost) (hhosts : y.fleet.agents.map Agent.host = f.agents.map Agent.host) :
    Round T f begun log y where
  active _ := mem_activeHosts_iff hf
  inOrder := pairwise_activeHosts hf
  progress := h
  contacted := h.contacted hturn
  spared _ := h.spared
  hosts := hhosts

theorem exists_turn (h : Progress T f begun log y) (hf : Ordered f.agents)
    (hover : y.outcome.isSome) (hwhole : y.outcome ≠ some .brokenOff)
    (hhost : host ∈ f.activeHosts) :
    ∃ since turn ended, T host since turn (y.fleet.find? host) (.over ended) ∧ turn ⊆ log := by
  cases h with
  | underWay _ _ _ hout =>
    rw [hout] at hover
    cases hover
  | brokenOff _ _ _ hout => exact absurd hout hwhole
  | complete hturns => exact hturns.exists_turn ((pairwise_activeHosts hf).imp ne_of_lt) hhost

/-- When all has broken off, the agents up to the last one have had their turns, and the others have
been left alone. -/
theorem exists_turns_of_brokenOff (h : Progress T f begun log y) (hf : Ordered f.agents)
    (hturn : T.KeepsToHost) (hbroken : y.outcome = some .brokenOff) :
    ∃ done host todo, f.activeHosts = done ++ host :: todo ∧
      (∀ h ∈ done ++ [host], ∃ since turn state, T h since turn (y.fleet.find? h) state ∧
        state ≠ .underWay ∧ turn ⊆ log) ∧
      ∀ h ∈ todo, y.fleet.find? h = f.find? h ∧ ∀ c ∈ log, c.call.host ≠ h := by
  cases h with
  | underWay _ _ _ hout =>
    rw [hout] at hbroken
    cases hbroken
  | complete _ _ hwhole => exact absurd hbroken hwhole
  | @brokenOff done todo host log turn entries since entry _ hhosts hturns hlast _ hknown =>
    have hnodup : (done ++ host :: todo).Nodup :=
      hhosts ▸ (pairwise_activeHosts hf).imp ne_of_lt
    rw [List.nodup_append, List.nodup_cons] at hnodup
    obtain ⟨hdone, ⟨hhost, -⟩, hapart⟩ := hnodup
    refine ⟨done, host, todo, hhosts, fun h hh ↦ ?_, fun h hh ↦ ⟨?_, fun c hc heq ↦ ?_⟩⟩
    · rcases List.mem_append.mp hh with hh | hh
      · obtain ⟨since', turn', ended, hturn', hsubset⟩ := hturns.exists_turn hdone hh
        have hne : h ≠ host := hapart h hh host List.mem_cons_self
        rw [hknown, Function.update_of_ne hne]
        exact ⟨since', turn', _, hturn', (fun heq ↦ by cases heq),
          List.subset_append_of_subset_left turn hsubset⟩
      · obtain rfl := List.mem_singleton.mp hh
        rw [hknown, Function.update_self]
        exact ⟨since, turn, _, hlast, (fun heq ↦ by cases heq), List.subset_append_right log turn⟩
    · have hne : h ≠ host := fun heq ↦ hhost (heq ▸ hh)
      have hnot : h ∉ done := fun hmem ↦ hapart h hmem h (List.mem_cons_of_mem host hh) rfl
      rw [hknown, Function.update_of_ne hne, hturns.known_of_notMem hnot]
    · subst heq
      rcases List.mem_append.mp hc with hc | hc
      · exact hapart _ (hturns.mem_of_contact hturn hc) _ (List.mem_cons_of_mem host hh) rfl
      · exact hhost (hturn _ _ _ _ _ hlast c hc ▸ hh)

end Progress

def trio : Fleet where
  settings := {}
  sink := ""
  agents :=
    [{ host := "a", interval := .zero, sink := "" },
     { host := "b", interval := .zero, sink := "", health := .stopped },
     { host := "c", interval := .zero, sink := "" }]

end Fleet

end Rollout
