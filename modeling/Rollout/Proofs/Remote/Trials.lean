import Rollout.Proofs.Remote.Breakers
import Rollout.Proofs.Remote.Capacity

namespace Rollout

namespace Traffic

variable {τ : Type} [DecidableEq τ] {calls : τ → Call} {g : Guard τ} {x : Traffic τ}
  {now later : UInt64} {t : τ} {host : String}

def trial (now : UInt64) (t : τ) : List (Passage τ) := [.asks now t, .enters t, .begins now t]

theorem follow_append (ps qs : List (Passage τ)) :
    x.follow calls (ps ++ qs) = (x.follow calls ps).follow calls qs := List.foldl_append

theorem canFollow_append {ps qs : List (Passage τ)} (hps : x.CanFollow calls ps)
    (hqs : (x.follow calls ps).CanFollow calls qs) : x.CanFollow calls (ps ++ qs) := by
  induction ps generalizing x with
  | nil => exact hqs
  | cons p ps ih => exact ⟨hps.1, ih hps.2 hqs⟩

theorem breaker_follow_of_silent {ps : List (Passage τ)}
    (h : ∀ p ∈ ps, p.news? calls host = none) :
    (x.follow calls ps).guard.breaker host = x.guard.breaker host := by
  induction ps generalizing x with
  | nil => rfl
  | cons p ps ih =>
    rw [List.forall_mem_cons] at h
    exact (ih h.2).trans (breaker_step_of_silent h.1)

theorem follow_trial (hfree : x.guard.running.length < x.guard.limit)
    (h : x.guard.refusal? now (calls t).host = none) : x.follow calls (trial now t) = { x with
      guard := { x.guard with running := x.guard.running ++ [t] }
      asked := t :: x.asked, entries := x.entries ++ [t], placed := x.placed ++ [t]
      underWay := t :: x.underWay
      past := .begins now t :: .enters t :: .asks now t :: x.past } := by
  simp only [trial, follow, List.foldl_cons, List.foldl_nil, step, move, h, Guard.enter_of_lt hfree,
    List.erase_cons_head, if_true]

theorem canFollow_trial (hsound : x.Sound) (hfresh : t ∉ x.asked)
    (hfree : x.guard.running.length < x.guard.limit)
    (h : x.guard.refusal? now (calls t).host = none) : x.CanFollow calls (trial now t) := by
  have hidle := hsound.not_active hfresh
  rw [List.mem_append, not_or] at hidle
  refine ⟨hfresh, ?_, ?_, trivial⟩ <;>
    simp [CanStep, step, move, h, Guard.enter_of_lt hfree, hidle]

theorem trials_together (hg : g.Serves [] [] [] []) (h : Reached calls g x)
    (hhalf : (x.guard.breaker host).state now = .halfOpen) {ts : List τ} (hts : ts.Nodup)
    (hfresh : ∀ t ∈ ts, (calls t).host = host ∧ t ∉ x.asked)
    (hroom : x.guard.running.length + ts.length ≤ x.guard.limit) :
    x.CanFollow calls (ts.flatMap (trial now)) ∧
      (x.follow calls (ts.flatMap (trial now))).underWay = ts.reverse ++ x.underWay := by
  -- Each trial leaves the breaker as it was and takes one of the free places.
  induction ts generalizing x with
  | nil => exact ⟨trivial, rfl⟩
  | cons t ts ih =>
    obtain ⟨rfl, hnew⟩ := hfresh t List.mem_cons_self
    rw [List.nodup_cons] at hts
    rw [List.length_cons] at hroom
    have hfree : x.guard.running.length < x.guard.limit := by omega
    have hnone : x.guard.refusal? now (calls t).host = none := by
      rw [Guard.refusal?_eq_none_iff, hhalf]
      decide
    have hcan := canFollow_trial (h.sound hg) hnew hfree hnone
    have hnext := follow_trial hfree hnone
    have hstill : ((x.follow calls (trial now t)).guard.breaker (calls t).host).state now =
        .halfOpen := by
      rw [hnext]
      exact hhalf
    have hunasked : ∀ u ∈ ts, (calls u).host = (calls t).host ∧
        u ∉ (x.follow calls (trial now t)).asked := by
      intro u hu
      obtain ⟨hhost, hother⟩ := hfresh u (List.mem_cons_of_mem t hu)
      rw [hnext, List.mem_cons, not_or]
      exact ⟨hhost, fun heq ↦ hts.1 (heq ▸ hu), hother⟩
    have hleft : (x.follow calls (trial now t)).guard.running.length + ts.length ≤
        (x.follow calls (trial now t)).guard.limit := by
      rw [hnext, List.length_append, List.length_singleton]
      show x.guard.running.length + 1 + ts.length ≤ x.guard.limit
      omega
    obtain ⟨hrest, hunder⟩ := ih (h.follow hcan) hstill hts.2 hunasked hleft
    rw [List.flatMap_cons]
    refine ⟨canFollow_append hcan hrest, ?_⟩
    rw [follow_append, hunder, hnext, List.reverse_cons, List.append_assoc]
    rfl

/-- What becomes of the calls to a host whose cool-down is over. -/
structure OnTrial (calls : τ → Call) (x : Traffic τ) (host : String) (now : UInt64) : Prop where
  /-- Until a reply says something of the host, each call that arrives is let through, whatever is
  on trial already. -/
  admits : ∀ ps, (∀ p ∈ ps, p.news? calls host = none) → ∀ later, now ≤ later →
    (x.follow calls ps).guard.refusal? later host = none
  together : ∀ ts : List τ, ts.Nodup → (∀ t ∈ ts, (calls t).host = host ∧ t ∉ x.asked) →
    x.guard.running.length + ts.length ≤ x.guard.limit →
    x.CanFollow calls (ts.flatMap (trial now)) ∧
      (x.follow calls (ts.flatMap (trial now))).underWay = ts.reverse ++ x.underWay
  failing : ∀ failed t fault, (calls t).host = host → fault.isConnect = true →
    (x.guard.breaker host).failures.toNat + 1 < word32 → ∀ later : UInt64,
    later.toNat - failed.toNat < (x.guard.breaker host).cooldownMillis.toNat →
    ((x.step calls (.answered failed t (.error fault))).guard.breaker host).state later = .opened
  succeeding : ∀ ended t out, (calls t).host = host → ∀ later,
    ((x.step calls (.answered ended t (.ok out))).guard.breaker host).state later = .closed

theorem Reached.onTrial {maxInFlight : Nat} {threshold : UInt32} {cooldown : Span}
    (h : Reached calls (.new maxInFlight threshold cooldown) x)
    (hhalf : (x.guard.breaker host).state now = .halfOpen) : x.OnTrial calls host now := by
  refine ⟨fun ps hsilent later hle ↦ ?_, fun ts ↦ trials_together (.new ..) h hhalf, ?_, ?_⟩
  · rw [Guard.refusal?_eq_none_iff, breaker_follow_of_silent hsilent,
      Breaker.halfOpen_of_le hhalf hle]
    decide
  · rintro failed t fault rfl hfault hfew later hsoon
    rw [breaker_step, Passage.news?, if_pos rfl, Breaker.news?, if_pos hfault]
    exact Breaker.opened_recordFailure hhalf hfew hsoon
  · rintro ended t out rfl later
    rw [breaker_step, Passage.news?, if_pos rfl]
    exact Breaker.state_recordSuccess (h.threshold_pos _)

def unreached : List (Passage Nat) :=
  [.asks 0 0, .enters 0, .begins 0 0,
    .answered 10 0 (.error (.connect "oss02" "connection refused")),
    .leaves 0 (.error (.connect "oss02" "connection refused"))]

theorem onTrial_unreached :
    ((follow (toHost "oss02") { guard := .new 4 1 (.ofSeconds 60) } unreached).guard.breaker
      "oss02").state 60010 = .halfOpen ∧
    (follow (toHost "oss02") { guard := .new 4 1 (.ofSeconds 60) } unreached).OnTrial
      (toHost "oss02") "oss02" 60010 :=
  have hhalf : ((follow (toHost "oss02") { guard := .new 4 1 (.ofSeconds 60) }
    unreached).guard.breaker "oss02").state 60010 = .halfOpen := by decide
  ⟨hhalf, Reached.onTrial (Reached.start.follow (by decide)) hhalf⟩

/-- Two operations on the host are under way after its cool-down, and neither has an outcome. -/
theorem underWay_unreached :
    ((follow (toHost "oss02") { guard := .new 4 1 (.ofSeconds 60) } unreached).guard.breaker
      "oss02").state 60010 = .halfOpen ∧
    CanFollow (toHost "oss02") { guard := .new 4 1 (.ofSeconds 60) }
      (unreached ++ trial 60010 1 ++ trial 60010 2) ∧
    (follow (toHost "oss02") { guard := .new 4 1 (.ofSeconds 60) }
      (unreached ++ trial 60010 1 ++ trial 60010 2)).underWay = [2, 1] := by decide

end Traffic

end Rollout
