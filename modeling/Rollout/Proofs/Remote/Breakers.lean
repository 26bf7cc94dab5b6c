import Rollout.Number.Binary64
import Rollout.Proofs.Remote.Traffic

namespace Rollout

namespace Breaker

variable {b : Breaker} {now later : UInt64}

/-- What a reply says of its host: nothing, that it answered (`none`), or when it was not reached. -/
def news? (now : UInt64) : Reply → Option (Option UInt64)
  | .ok _ => some none
  | .error fault => if fault.isConnect then some (some now) else none

def hear (b : Breaker) : Option UInt64 → Breaker
  | none => b.recordSuccess
  | some now => b.recordFailure now

theorem threshold_hear (m : Option UInt64) : (b.hear m).threshold = b.threshold := by
  cases m <;> rfl

theorem cooldown_hear (m : Option UInt64) : (b.hear m).cooldown = b.cooldown := by
  cases m <;> rfl

theorem toNat_threshold_new (threshold : UInt32) (cooldown : Span) :
    (new threshold cooldown).threshold.toNat = max threshold.toNat 1 := by
  show (if threshold ≤ 1 then 1 else threshold).toNat = _
  split <;> rename_i h <;> rw [UInt32.le_iff_toNat_le] at h <;> simp at h ⊢ <;> omega

/-- The failures since the host last answered, of what was heard of it, the latest first. -/
def streak : List (Option UInt64) → List UInt64
  | some now :: ms => now :: streak ms
  | _ => []

def hearAll (b : Breaker) (ms : List (Option UInt64)) : Breaker := ms.foldr (fun m b ↦ b.hear m) b

theorem threshold_hearAll (b : Breaker) (ms : List (Option UInt64)) :
    (b.hearAll ms).threshold = b.threshold := by
  induction ms with
  | nil => rfl
  | cons m ms ih => exact (threshold_hear m).trans ih

theorem cooldown_hearAll (b : Breaker) (ms : List (Option UInt64)) :
    (b.hearAll ms).cooldown = b.cooldown := by
  induction ms with
  | nil => rfl
  | cons m ms ih => exact (cooldown_hear m).trans ih

theorem failures_hearAll (hnew : b.failures = 0) (ms : List (Option UInt64)) :
    (b.hearAll ms).failures.toNat = (streak ms).length % word32 := by
  induction ms with
  | nil =>
    rw [hearAll, List.foldr_nil, hnew]
    rfl
  | cons m ms ih =>
    cases m with
    | none => rfl
    | some now =>
      calc ((b.hearAll ms).failures + 1).toNat
          = ((b.hearAll ms).failures.toNat + 1) % word32 := UInt32.toNat_add ..
        _ = ((streak ms).length % word32 + 1) % word32 := by rw [ih]
        _ = ((streak ms).length + 1) % word32 := Nat.mod_add_mod ..

theorem lastFailure_hearAll {ms : List (Option UInt64)} {last : UInt64}
    (h : (streak ms).head? = some last) : (b.hearAll ms).lastFailure = last := by
  cases ms with
  | nil => cases h
  | cons m ms =>
    cases m with
    | none => cases h
    | some now => exact Option.some.inj h

theorem exists_lastFailure {ms : List (Option UInt64)} (h : 0 < (streak ms).length) :
    ∃ last, (streak ms).head? = some last ∧ (b.hearAll ms).lastFailure = last := by
  have hlast := List.head?_eq_some_head (List.length_pos_iff.mp h)
  exact ⟨_, hlast, lastFailure_hearAll hlast⟩

/-- No word of time is lost in the difference of two readings. -/
theorem toNat_elapsed : (b.elapsed now).toNat = now.toNat - b.lastFailure.toNat := by
  unfold elapsed
  split
  · rename_i h
    rw [Nat.sub_eq_zero_of_le (Nat.le_of_lt (UInt64.lt_iff_toNat_lt.mp h))]
    rfl
  · rename_i h
    exact UInt64.toNat_sub_of_le _ _ (UInt64.not_lt.mp h)

theorem toNat_cooldownMillis_hearAll (ms : List (Option UInt64)) :
    (b.hearAll ms).cooldownMillis.toNat = b.cooldown.millis % word64 := by
  rw [cooldownMillis, cooldown_hearAll]
  exact UInt64.toNat_ofNat'

theorem state_eq_opened_iff : b.state now = .opened ↔
    b.threshold.toNat ≤ b.failures.toNat ∧
      now.toNat - b.lastFailure.toNat < b.cooldownMillis.toNat := by
  unfold state
  rw [← toNat_elapsed, ← UInt32.le_iff_toNat_le, ← UInt64.lt_iff_toNat_lt]
  split
  · rename_i h
    simpa using fun hle ↦ absurd h (UInt32.not_lt.mpr hle)
  · rename_i h
    split
    · rename_i hover
      simpa using fun _ ↦ hover
    · rename_i hover
      simpa using ⟨UInt32.not_lt.mp h, UInt64.not_le.mp hover⟩

theorem state_eq_halfOpen_iff : b.state now = .halfOpen ↔
    b.threshold.toNat ≤ b.failures.toNat ∧
      b.cooldownMillis.toNat ≤ now.toNat - b.lastFailure.toNat := by
  unfold state
  rw [← toNat_elapsed, ← UInt32.le_iff_toNat_le, ← UInt64.le_iff_toNat_le]
  split
  · rename_i h
    simpa using fun hle ↦ absurd h (UInt32.not_lt.mpr hle)
  · rename_i h
    split
    · rename_i hover
      simpa using ⟨UInt32.not_lt.mp h, hover⟩
    · rename_i hover
      simpa using fun _ ↦ UInt64.not_le.mp hover

theorem toNat_untilRetry (h : b.state now = .opened) : (b.untilRetry now).toNat =
    b.cooldownMillis.toNat - (now.toNat - b.lastFailure.toNat) := by
  have hlt := (state_eq_opened_iff.mp h).2
  rw [← toNat_elapsed] at hlt ⊢
  rw [untilRetry, if_pos h]
  exact UInt64.toNat_sub_of_le _ _ (UInt64.le_iff_toNat_le.mpr (Nat.le_of_lt hlt))

theorem admits_iff : b.admits now = true ↔ b.state now ≠ .opened := by
  rw [admits, bne_iff_ne]

theorem not_opened_of_le (h : b.state now ≠ .opened) (hle : now ≤ later) :
    b.state later ≠ .opened := by
  rw [Ne, state_eq_opened_iff] at h ⊢
  have := UInt64.le_iff_toNat_le.mp hle
  omega

theorem halfOpen_of_le (h : b.state now = .halfOpen) (hle : now ≤ later) :
    b.state later = .halfOpen := by
  rw [state_eq_halfOpen_iff] at h ⊢
  have := UInt64.le_iff_toNat_le.mp hle
  omega

theorem state_recordSuccess (h : 0 < b.threshold) : b.recordSuccess.state now = .closed := if_pos h

theorem opened_recordFailure {failed : UInt64} (h : b.state now = .halfOpen)
    (hfew : b.failures.toNat + 1 < word32)
    (hsoon : later.toNat - failed.toNat < b.cooldownMillis.toNat) :
    (b.recordFailure failed).state later = .opened := by
  have hfailures : (b.recordFailure failed).failures.toNat = b.failures.toNat + 1 :=
    (UInt32.toNat_add ..).trans (Nat.mod_eq_of_lt hfew)
  rw [state_eq_opened_iff, hfailures]
  exact ⟨Nat.le_succ_of_le (state_eq_halfOpen_iff.mp h).1, hsoon⟩

end Breaker

namespace Guard

variable {τ : Type} {g : Guard τ} {now : UInt64} {host other : String} {r : Reply} {t : τ}

theorem breaker_setBreaker (b : Breaker) :
    (g.setBreaker host b).breaker other = if host = other then b else g.breaker other := by
  unfold breaker setBreaker
  by_cases h : host = other
  · simp [h]
  · rw [if_neg h, List.find?_cons_of_neg (by simpa using h), List.find?_filter]
    congr 3
    funext p
    by_cases hp : p.1 = other
    · simp [hp, Ne.symm h]
    · simp [hp]

theorem breaker_enter : (g.enter t).1.breaker host = g.breaker host := by
  unfold enter
  split <;> rfl

theorem breaker_record : (g.record now host r).breaker other =
    if host = other then (Breaker.news? now r).elim (g.breaker other) (g.breaker other).hear
    else g.breaker other := by
  cases r with
  | ok _ =>
    rw [record, breaker_setBreaker]
    by_cases h : host = other
    · subst h
      rfl
    · rw [if_neg h, if_neg h]
  | error fault =>
    simp only [record, Breaker.news?]
    by_cases hfault : fault.isConnect = true
    · rw [if_pos hfault, if_pos hfault, breaker_setBreaker]
      by_cases h : host = other
      · subst h
        rfl
      · rw [if_neg h, if_neg h]
    · rw [if_neg hfault, if_neg hfault]
      simp

theorem refusal?_congr {g g' : Guard τ} (h : g.breaker host = g'.breaker host) :
    g.refusal? now host = g'.refusal? now host := by
  simp only [refusal?, h]

theorem refusal?_eq_none_iff :
    g.refusal? now host = none ↔ (g.breaker host).state now ≠ .opened := by
  rw [← Breaker.admits_iff]
  simp [refusal?]

theorem refusal?_of_opened (h : (g.breaker host).state now = .opened) :
    g.refusal? now host = some (fencedFault host (g.breaker host) now) := by
  have hno : ¬(g.breaker host).admits now = true := fun hyes ↦ Breaker.admits_iff.mp hyes h
  exact if_neg hno

variable [DecidableEq τ]

theorem breaker_release : (g.release t).1.breaker host = g.breaker host := by
  cases h : g.waiting with
  | nil => rw [release_of_nil h]; rfl
  | cons u us => rw [release_of_cons h]; rfl

theorem breaker_abandon : (g.abandon t).1.breaker host = g.breaker host := by
  by_cases h : t ∈ g.running
  · rw [abandon_of_mem h, breaker_release]
  · rw [abandon_of_not_mem h]; rfl

end Guard

def Passage.news? {τ : Type} (calls : τ → Call) (host : String) :
    Passage τ → Option (Option UInt64)
  | .answered now t r => if (calls t).host = host then Breaker.news? now r else none
  | _ => none

theorem Passage.mem_news_iff {τ : Type} {calls : τ → Call} {host : String} {failed : UInt64}
    {ps : List (Passage τ)} :
    some failed ∈ ps.filterMap (Passage.news? calls host) ↔
      ∃ u fault, .answered failed u (.error fault) ∈ ps ∧ fault.isConnect = true ∧
        (calls u).host = host := by
  rw [List.mem_filterMap]
  constructor
  · rintro ⟨p, hp, hnews⟩
    cases p with
    | answered n u r =>
      cases r with
      | ok out => simp [Passage.news?, Breaker.news?] at hnews
      | error fault =>
        simp only [Passage.news?, Breaker.news?, Option.ite_none_right_eq_some] at hnews
        obtain ⟨hhost, hfault, heq⟩ := hnews
        cases heq
        exact ⟨u, fault, hp, hfault, hhost⟩
    | _ => cases hnews
  · rintro ⟨u, fault, hp, hfault, rfl⟩
    exact ⟨_, hp, by simp [Passage.news?, Breaker.news?, hfault]⟩

namespace Traffic

variable {τ : Type} [DecidableEq τ] {calls : τ → Call} {g : Guard τ} {x : Traffic τ}
  {host : String}

def news (calls : τ → Call) (host : String) (x : Traffic τ) : List (Option UInt64) :=
  x.past.filterMap (Passage.news? calls host)

theorem breaker_step (p : Passage τ) : (x.step calls p).guard.breaker host =
    (p.news? calls host).elim (x.guard.breaker host) (x.guard.breaker host).hear := by
  cases p with
  | asks now t => simp only [step, move]; split <;> rfl
  | enters t => exact Guard.breaker_enter
  | begins now t => rfl
  | answered now t r =>
    refine Guard.breaker_record.trans ?_
    simp only [Passage.news?]
    split <;> rfl
  | leaves t r => exact Guard.breaker_release
  | givesUp t => simp only [step, move]; split <;> exact Guard.breaker_abandon

theorem breaker_step_of_silent {p : Passage τ} (h : p.news? calls host = none) :
    (x.step calls p).guard.breaker host = x.guard.breaker host := by
  rw [breaker_step, h]
  rfl

theorem news_step (p : Passage τ) :
    (x.step calls p).news calls host = (p.news? calls host).toList ++ x.news calls host := by
  simp only [news, step, List.filterMap_cons]
  cases p.news? calls host <;> rfl

theorem breaker_of_step (h : x.guard.breaker host = (g.breaker host).hearAll (x.news calls host))
    (p : Passage τ) : (x.step calls p).guard.breaker host =
      (g.breaker host).hearAll ((x.step calls p).news calls host) := by
  rw [breaker_step, news_step, h]
  cases p.news? calls host <;> rfl

theorem Reached.breaker_eq (h : Reached calls g x) (host : String) :
    x.guard.breaker host = (g.breaker host).hearAll (x.news calls host) := by
  induction h with
  | start => rfl
  | step _ _ ih => exact breaker_of_step ih _

theorem Reached.threshold_pos {maxInFlight : Nat} {threshold : UInt32} {cooldown : Span}
    (h : Reached calls (.new maxInFlight threshold cooldown) x) (host : String) :
    0 < (x.guard.breaker host).threshold := by
  have hnew : (Breaker.new threshold cooldown).threshold.toNat = _ :=
    Breaker.toNat_threshold_new threshold cooldown
  rw [h.breaker_eq, Breaker.threshold_hearAll, UInt32.lt_iff_toNat_lt]
  exact hnew ▸ Nat.lt_of_lt_of_le Nat.zero_lt_one (Nat.le_max_right ..)

end Traffic

end Rollout
