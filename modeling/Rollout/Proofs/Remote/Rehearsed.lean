import Rollout.Proofs.Remote.Desk
import Rollout.Rehearsal.Calls

namespace Rollout

open Relation (ReflTransGen)

variable {τ ω σ ε π : Type}

/-- The call with which an activity is at the guard, and whether its operation is under way. -/
def Situation.calling? : Situation ω π → Option (Call × Bool)
  | .atGuard c _ _ => some (c, false)
  | .underWay c _ _ _ _ => some (c, true)
  | _ => none

def Play.Quiet (p : Play τ ω σ) : Prop :=
  ∀ now shared, ∀ o ∈ (p.direct now shared).2, ∃ t, o = .abort t

namespace Stage

variable [DecidableEq τ] {s s' : Stage τ ω σ ε π} {p : Play τ ω σ} {d d' : Desk τ} {t u : τ}
  {c : Call} {x : Situation ω π} {deadline : Option Deadline} {work : ω}

def calling? (s : Stage τ ω σ ε π) (t : τ) : Option (Call × Bool) :=
  (s.situation? t).bind Situation.calling?

theorem situation?_place :
    (s.place t x).situation? u = if u = t then some x else s.situation? u := by
  unfold place
  split
  · rename_i hany
    have hcomp : ((fun y : τ × Situation ω π ↦ decide (y.1 = u)) ∘
        fun y ↦ if y.1 = t then (t, x) else y) = fun y ↦ decide (y.1 = u) := by
      funext y
      by_cases hy : y.1 = t <;> simp [hy]
    rw [situation?, situation?, List.find?_map, hcomp, Option.map_map]
    by_cases hu : u = t
    · subst hu
      obtain ⟨y, hy, hname⟩ := List.any_eq_true.mp hany
      obtain ⟨z, hz⟩ := Option.isSome_iff_exists.mp
        (List.find?_isSome.mpr ⟨y, hy, by simpa using hname⟩ :
          (s.tasks.find? fun y ↦ decide (y.1 = u)).isSome)
      have hzname : z.1 = u := by simpa using List.find?_some hz
      simp [hz, hzname]
    · rw [if_neg hu]
      cases hz : s.tasks.find? fun y ↦ decide (y.1 = u) with
      | none => rfl
      | some z =>
        have hzname : z.1 = u := by simpa using List.find?_some hz
        simp [hzname, hu]
  · rename_i hnone
    rw [situation?, situation?, List.find?_append]
    by_cases hu : u = t
    · subst hu
      have hno : s.tasks.find? (fun y ↦ decide (y.1 = u)) = none :=
        List.find?_eq_none.mpr fun y hy hname ↦ hnone (List.any_eq_true.mpr ⟨y, hy, hname⟩)
      simp [hno]
    · simp [Ne.symm hu, hu]

theorem situation?_remove :
    (s.remove t).situation? u = if u = t then none else s.situation? u := by
  rw [situation?, remove, List.find?_filter]
  by_cases hu : u = t
  · rw [if_pos hu, Option.map_eq_none_iff, List.find?_eq_none]
    intro y _
    simp [hu]
  · rw [if_neg hu, situation?]
    congr 2
    funext y
    by_cases hy : y.1 = u
    · simp [hy, hu]
    · simp [hy]

/-- What is at the guard of a stage. -/
structure Shows (s : Stage τ ω σ ε π) (p : Play τ ω σ) (d : Desk τ) : Prop where
  play : s.play = p
  guard : s.guard = some d.guard
  calling : ∀ t, s.calling? t = d.calling t

namespace Shows

theorem of_eq (h : s.Shows p d) (hplay : s'.play = s.play) (hguard : s'.guard = s.guard)
    (htasks : s'.tasks = s.tasks) : s'.Shows p d := by
  refine ⟨hplay.trans h.play, hguard.trans h.guard, fun t ↦ ?_⟩
  rw [← h.calling t, calling?, calling?, situation?, situation?, htasks]

theorem wake (h : s.Shows p d) (who : Option τ) : (s.wake who).Shows p d := by
  refine h.of_eq ?_ ?_ ?_ <;> unfold Stage.wake <;> split <;> rfl

theorem goOn (h : s.Shows p d) (t : τ) : (s.goOn t).Shows p d := h.of_eq rfl rfl rfl

theorem setTimer (h : s.Shows p d) (span : Span) : (s.setTimer span).2.Shows p d :=
  h.of_eq rfl rfl rfl

theorem callDirector (h : s.Shows p d) : s.callDirector.Shows p d := by
  unfold Stage.callDirector
  split
  · exact h.wake none
  · exact h

theorem place (h : s.Shows p d) (t : τ) (x : Situation ω π) :
    (s.place t x).Shows p (d.put d.guard t x.calling?) := by
  have hplay : (s.place t x).play = s.play := by unfold Stage.place; split <;> rfl
  have hguard : (s.place t x).guard = s.guard := by unfold Stage.place; split <;> rfl
  refine ⟨hplay.trans h.play, hguard.trans h.guard, fun u ↦ ?_⟩
  rw [calling?, situation?_place]
  by_cases hu : u = t
  · subst hu
    rw [if_pos rfl, Desk.calling_put_self]
    rfl
  · rw [if_neg hu, Desk.calling_put_of_ne hu]
    exact h.calling u

theorem remove (h : s.Shows p d) (t : τ) : (s.remove t).Shows p (d.put d.guard t none) := by
  refine ⟨h.play, h.guard, fun u ↦ ?_⟩
  rw [calling?, situation?_remove]
  by_cases hu : u = t
  · subst hu
    rw [if_pos rfl, Desk.calling_put_self]
    rfl
  · rw [if_neg hu, Desk.calling_put_of_ne hu]
    exact h.calling u

theorem leaveGuard (h : s.Shows p d) (f : Guard τ → Guard τ × Option τ) :
    (s.leaveGuard f).Shows p { d with guard := (f d.guard).1 } := by
  have hleft : ({ s with guard := some (f d.guard).1 } : Stage τ ω σ ε π).Shows p
      { d with guard := (f d.guard).1 } := ⟨h.play, rfl, h.calling⟩
  simp only [Stage.leaveGuard, h.guard]
  cases (f d.guard).2 with
  | none => exact hleft
  | some t => exact hleft.wake (some t)

theorem answer (h : s.Shows p d) (t : τ) (w : Wake) (work : ω) :
    (s.answer t w work).Shows p (d.put d.guard t none) :=
  (h.place t (.woken w work)).goOn t

theorem place_of_none (h : s.Shows p d) (hfree : d.calling t = none) (hx : x.calling? = none) :
    (s.place t x).Shows p d := by
  have hplaced := h.place t x
  rwa [hx, Desk.put_eq_self hfree] at hplaced

theorem answer_of_none (h : s.Shows p d) (hfree : d.calling t = none) (w : Wake) (work : ω) :
    (s.answer t w work).Shows p d := (h.place_of_none hfree rfl).goOn t

theorem remove_of_none (h : s.Shows p d) (hfree : d.calling t = none) :
    (s.remove t).Shows p d := by
  have hremoved := h.remove t
  rwa [Desk.put_eq_self hfree] at hremoved

theorem finishCall (h : s.Shows p d) (t : τ) (c : Call) (r : Reply) (work : ω) :
    (s.finishCall t c r work).Shows p
      (d.put (d.guard.finish (s.clock s.now) t c.host r).1 t none) :=
  (h.leaveGuard _).answer t _ work

theorem timeOut (h : s.Shows p d) (t : τ) (c : Call) (deadline : Deadline) (work : ω) :
    (s.timeOut t c deadline work).Shows p (d.put (d.guard.abandon t).1 t none) :=
  (h.leaveGuard _).answer t _ work

theorem jump (h : s.Shows p d) (time : Nat) : (s.jump time).Shows p d := by
  have hwake : ∀ (due : List (Timer × τ)) {s : Stage τ ω σ ε π}, s.Shows p d →
      (due.foldl (fun s x ↦ s.wake (some x.2)) s).Shows p d := by
    intro due
    induction due with
    | nil => exact fun h ↦ h
    | cons x due ih => exact fun h ↦ ih (h.wake (some x.2))
  exact hwake _ (h.of_eq rfl rfl rfl)

end Shows

def ComesTo (s : Stage τ ω σ ε π) (p : Play τ ω σ) (d : Desk τ) : Prop :=
  ∃ d', ReflTransGen Desk.Step d d' ∧ s.Shows p d'

theorem Shows.comesTo (h : s.Shows p d) : s.ComesTo p d := ⟨d, .refl, h⟩

theorem ComesTo.bind (h : s.ComesTo p d) (hnext : ∀ d', s.Shows p d' → s'.ComesTo p d') :
    s'.ComesTo p d := by
  obtain ⟨d', hsteps, hshows⟩ := h
  obtain ⟨d'', hsteps', hshows'⟩ := hnext d' hshows
  exact ⟨d'', hsteps.trans hsteps', hshows'⟩

namespace Shows

theorem heedDeadline (h : s.Shows p d) : (s.heedDeadline t c deadline work).ComesTo p d := by
  unfold Stage.heedDeadline
  split
  · exact ⟨_, .single (.givesUp t), h.timeOut t c _ work⟩
  · exact h.comesTo

theorem progress (h : s.Shows p d) (stage : Progress π) :
    (s.progress t c deadline work stage).ComesTo p (d.put d.guard t (some (c, true))) := by
  cases stage with
  | done r =>
    have hstep : Desk.Step (d.put d.guard t (some (c, true)))
        ((d.put d.guard t (some (c, true))).put
          (d.guard.finish (s.clock s.now) t c.host r).1 t none) :=
      .ends (s.clock s.now) r Desk.calling_put_self
    rw [Desk.put_put] at hstep
    exact ⟨_, .single hstep, h.finishCall t c r work⟩
  | wait span rest =>
    -- The stage may end here, go on at once, or give the call up; the operation has begun in any case.
    have hplaced : ((s.setTimer span).2.place t (.underWay c (s.setTimer span).1 rest deadline
        work)).Shows p (d.put d.guard t (some (c, true))) := (h.setTimer span).place t _
    simp only [Stage.progress]
    split
    · exact (hplaced.goOn t).comesTo
    · exact hplaced.heedDeadline

theorem ask (h : s.Shows p d) (hfree : d.calling t = none) :
    (s.ask t c deadline work).ComesTo p d := by
  simp only [Stage.ask, h.guard, Guard.arrive]
  cases hrefusal : d.guard.refusal? (s.clock s.now) c.host with
  | some fault =>
    have hshows : ({ s with guard := some d.guard } : Stage τ ω σ ε π).Shows p d :=
      ⟨h.play, rfl, h.calling⟩
    exact ⟨d, .single (.refused hfree hrefusal), hshows.answer_of_none hfree _ work⟩
  | none =>
    have hshows : ({ s with guard := some (d.guard.enter t).1 } : Stage τ ω σ ε π).Shows p
        { d with guard := (d.guard.enter t).1 } := ⟨h.play, rfl, h.calling⟩
    have hplaced := (hshows.place t (.atGuard c deadline work)).goOn t
    refine ⟨_, .single (.arrives hfree hrefusal), ?_⟩
    -- The stage does the same whether the call has a place or waits; its next turn tells them apart.
    cases (d.guard.enter t).2 <;> exact hplaced

theorem arrive (h : s.Shows p d) (hfree : d.calling t = none) (within : Option Span) :
    (s.arrive t c within work).ComesTo p d := by
  cases within with
  | none => exact h.ask hfree
  | some span => exact (h.setTimer span).ask hfree

theorem carryOut (h : s.Shows p d) (hfree : d.calling t = none) (m : σ × Move ω Unit) :
    (s.carryOut t m).ComesTo p d := by
  have hshared : ({ s with shared := m.1 } : Stage τ ω σ ε π).Shows p d := h.of_eq rfl rfl rfl
  have hstage := hshared.callDirector
  unfold Stage.carryOut
  cases m.2 with
  | call c within work => exact hstage.arrive hfree within
  | pause span work =>
    simp only
    split
    · exact ((hstage.setTimer span).answer_of_none hfree .rested work).comesTo
    · exact ((hstage.setTimer span).place_of_none hfree rfl).comesTo
  | done _ => exact (hstage.remove_of_none hfree).comesTo

theorem calling_eq (h : s.Shows p d) (hx : s.situation? t = some x) :
    d.calling t = x.calling? := by
  rw [← h.calling t, Stage.calling?, hx]
  rfl

theorem takeTurn (h : s.Shows p d) (t : τ) : (s.takeTurn t).ComesTo p d := by
  unfold Stage.takeTurn
  cases hx : s.situation? t with
  | none => exact h.comesTo
  | some x =>
    cases x with
    | fresh work => exact h.carryOut (h.calling_eq hx) _
    | woken w work => exact h.carryOut (h.calling_eq hx) _
    | resting timer work =>
      simp only
      split
      · exact (h.answer_of_none (h.calling_eq hx) .rested work).comesTo
      · exact h.comesTo
    | atGuard c deadline work =>
      have hcalling : d.calling t = some (c, false) := h.calling_eq hx
      have hmay : s.mayBegin t = decide (t ∈ d.guard.running) := by
        simp only [mayBegin, h.guard, List.contains_eq_mem]
      simp only
      split
      · rename_i hyes
        rw [hmay, decide_eq_true_eq] at hyes
        have hbegun : ({ s with hosts := (s.executor.start s.time s.hosts c).1 } :
          Stage τ ω σ ε π).Shows p d := h.of_eq rfl rfl rfl
        obtain ⟨d', hsteps, hshows⟩ := hbegun.progress (s.executor.start s.time s.hosts c).2
        exact ⟨d', .head (.begins hcalling hyes) hsteps, hshows⟩
      · exact h.heedDeadline
    | underWay c timer stage deadline work =>
      have hsame : d.put d.guard t (some (c, true)) = d := Desk.put_eq_self (h.calling_eq hx)
      simp only
      split
      · have hon : ({ s with hosts := (s.executor.resume s.time s.hosts stage).1 } :
          Stage τ ω σ ε π).Shows p d := h.of_eq rfl rfl rfl
        obtain ⟨d', hsteps, hshows⟩ := hon.progress (s.executor.resume s.time s.hosts stage).2
        rw [hsame] at hsteps
        exact ⟨d', hsteps, hshows⟩
      · exact h.heedDeadline

theorem add (h : s.Shows p d) (hfree : d.calling t = none) (work : ω) :
    (s.add t work).Shows p d := (h.place_of_none hfree rfl).wake (some t)

theorem abort (h : s.Shows p d) (t : τ) : (s.obey (.abort t)).ComesTo p d :=
  ⟨_, .single (.givesUp t), (h.leaveGuard _).remove t⟩

theorem obeyAll (h : s.Shows p d) {orders : List (Order τ ω)}
    (haborts : ∀ o ∈ orders, ∃ t, o = .abort t) : (orders.foldl obey s).ComesTo p d := by
  induction orders generalizing s d with
  | nil => exact h.comesTo
  | cons o orders ih =>
    obtain ⟨⟨t, rfl⟩, hrest⟩ := List.forall_mem_cons.mp haborts
    exact (h.abort t).bind fun d' h' ↦ ih h' hrest

theorem directorTurn (h : s.Shows p d) (hquiet : p.Quiet) : s.directorTurn.ComesTo p d := by
  have hstage : ({ s with shared := (s.play.direct s.time s.shared).1 } :
    Stage τ ω σ ε π).Shows p d := h.of_eq rfl rfl rfl
  exact hstage.obeyAll (h.play ▸ hquiet s.time s.shared)

theorem run (h : s.Shows p d) (hquiet : p.Quiet) (limit : Option Nat) (fuel : Nat) :
    (s.run limit fuel).ComesTo p d := by
  induction fuel generalizing s d with
  | zero => exact h.comesTo
  | succ fuel ih =>
    unfold Stage.run
    cases hline : s.line with
    | nil =>
      cases s.nextDue? with
      | none => exact h.comesTo
      | some time =>
        simp only
        split
        · exact ih (h.jump time)
        · exact h.comesTo
    | cons who line =>
      have hturn : ({ s with line := line } : Stage τ ω σ ε π).Shows p d := h.of_eq rfl rfl rfl
      cases who with
      | none => exact (hturn.directorTurn hquiet).bind fun d' h' ↦ ih h'
      | some t => exact (hturn.takeTurn t).bind fun d' h' ↦ ih h'

end Shows

variable {g : Guard (Ticket τ)}

/-- The calls at the guard of a stage have come where calls can come at the guard `g`. -/
def Faithful (s : Stage τ ω σ ε π) (p : Play τ ω σ) (g : Guard (Ticket τ)) : Prop :=
  ∃ d x, s.Shows p d ∧ d.Mirrors x ∧ Traffic.Reached Ticket.call g x

namespace Faithful

theorem of_comesTo (hg : g.Serves [] [] [] []) (h : s.Faithful p g)
    (hnext : ∀ d, s.Shows p d → s'.ComesTo p d) : s'.Faithful p g := by
  obtain ⟨d, x, hshows, hmirrors, hreached⟩ := h
  obtain ⟨d', hsteps, hshows'⟩ := hnext d hshows
  obtain ⟨x', hreached', hmirrors'⟩ := hmirrors.steps hg hreached hsteps
  exact ⟨d', x', hshows', hmirrors', hreached'⟩

theorem start {maxInFlight : Nat} {threshold : UInt32} {cooldown : Span}
    (hguard : s.guard = some (.new maxInFlight threshold cooldown))
    (hfree : ∀ t, s.calling? t = none) :
    s.Faithful s.play (.new maxInFlight threshold cooldown) := by
  refine ⟨⟨.new maxInFlight threshold cooldown, fun _ ↦ none⟩, _, ⟨rfl, hguard, hfree⟩, ?_, .start⟩
  refine ⟨rfl, rfl, rfl, List.nodup_nil, fun k hk ↦ ?_, fun t ht ↦ absurd rfl ht⟩
  exact absurd hk List.not_mem_nil

theorem add (h : s.Faithful p g) (hfree : s.calling? t = none) (work : ω) :
    (s.add t work).Faithful p g := by
  obtain ⟨d, x, hshows, hrest⟩ := h
  exact ⟨d, x, hshows.add ((hshows.calling t).symm.trans hfree) work, hrest⟩

theorem abort (hg : g.Serves [] [] [] []) (h : s.Faithful p g) (t : τ) :
    (s.obey (.abort t)).Faithful p g := h.of_comesTo hg fun _ hshows ↦ hshows.abort t

theorem run (hg : g.Serves [] [] [] []) (hquiet : p.Quiet) (h : s.Faithful p g)
    (limit : Option Nat) (fuel : Nat) : (s.run limit fuel).Faithful p g :=
  h.of_comesTo hg fun _ hshows ↦ hshows.run hquiet limit fuel

/-- At no time are more operations under way than the guard allows. -/
theorem underWay_le (hg : g.Serves [] [] [] []) (h : s.Faithful p g) {ts : List τ} (hts : ts.Nodup)
    (hunder : ∀ t ∈ ts, ∃ c, s.calling? t = some (c, true)) : ts.length ≤ g.limit := by
  obtain ⟨d, x, hshows, hmirrors, hreached⟩ := h
  have hsub : ts ⊆ x.underWay.map Ticket.activity := by
    intro t ht
    obtain ⟨c, hc⟩ := hunder t ht
    obtain ⟨k, -, rfl, -, hk⟩ := hmirrors.exists_inside ((hshows.calling t).symm.trans hc)
    exact List.mem_map_of_mem (of_decide_eq_true hk)
  calc ts.length ≤ (x.underWay.map Ticket.activity).length :=
        (List.subperm_of_subset hts hsub).length_le
    _ = x.underWay.length := List.length_map _
    _ ≤ x.guard.limit := (hreached.sound hg).underWay_le
    _ = g.limit := hreached.limit_eq

end Faithful

end Stage

theorem quiet_callPlay : callPlay.Quiet := fun _ _ _ ho ↦ absurd ho List.not_mem_nil

namespace CallStage

variable {ε π : Type} {s : CallStage ε π} {g : Guard (Ticket Nat)}

theorem faithful_performAll (hg : g.Serves [] [] [] []) (h : s.Faithful callPlay g)
    (hfree : ∀ t, s.calling? t = none) (calls : List Call) :
    (s.performAll calls).1.Faithful callPlay g := by
  obtain ⟨d, x, hshows, hrest⟩ := h
  have hnone : ∀ t, d.calling t = none := fun t ↦ (hshows.calling t).symm.trans (hfree t)
  have hadd : ∀ (cs : List (Call × Nat)) {s : CallStage ε π}, s.Shows callPlay d →
      (cs.foldl (fun s c ↦ Stage.add c.2 c.1 s) s).Shows callPlay d := by
    intro cs
    induction cs with
    | nil => exact fun h ↦ h
    | cons c cs ih => exact fun h ↦ ih (h.add (hnone c.2) c.1)
  have hstart : ({ s with shared := [] } : CallStage ε π).Shows callPlay d :=
    hshows.of_eq rfl rfl rfl
  exact Stage.Faithful.run hg quiet_callPlay ⟨d, x, hadd calls.zipIdx hstart, hrest⟩ none
    Stage.longestPlay

end CallStage

end Rollout
