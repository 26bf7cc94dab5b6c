import Rollout.Proofs.Remote.Breakers

namespace Rollout.Breaker

variable {b : Breaker} {now : UInt64} {threshold cooldown failures : Nat} {latest : Option UInt64}

/-- What a breaker says at a time that opens at `threshold` failures and stays open for `cooldown`
milliseconds, when there were `failures` since the last success and `latest` is the latest of them. -/
structure KeepsTime (b : Breaker) (threshold cooldown failures : Nat) (latest : Option UInt64)
    (now : UInt64) : Prop where
  closed : b.state now = .closed ↔ failures < threshold
  opened : b.state now = .opened ↔
    threshold ≤ failures ∧ ∃ last, latest = some last ∧ now.toNat < last.toNat + cooldown
  halfOpen : b.state now = .halfOpen ↔
    threshold ≤ failures ∧ ∃ last, latest = some last ∧ last.toNat + cooldown ≤ now.toNat
  waits : 0 < b.untilRetry now ↔ b.state now = .opened
  remaining : ∀ last, latest = some last → b.state now = .opened →
    now.toNat + (b.untilRetry now).toNat = last.toNat + cooldown

theorem state_eq_closed_iff : b.state now = .closed ↔ b.failures.toNat < b.threshold.toNat := by
  rw [← UInt32.lt_iff_toNat_lt]
  unfold state
  split
  · rename_i h
    exact iff_of_true rfl h
  · rename_i h
    split <;> simp [h]

theorem untilRetry_pos_iff : 0 < b.untilRetry now ↔ b.state now = .opened := by
  constructor
  · intro hpos
    by_contra h
    rw [untilRetry, if_neg h] at hpos
    exact absurd hpos (by decide)
  · intro h
    have hlt := (state_eq_opened_iff.mp h).2
    rw [UInt64.lt_iff_toNat_lt, toNat_untilRetry h, UInt64.toNat_zero]
    omega

theorem keepsTime (hlatest : b.threshold.toNat ≤ b.failures.toNat →
    latest = some b.lastFailure ∧ b.lastFailure ≤ now) :
    b.KeepsTime b.threshold.toNat b.cooldownMillis.toNat b.failures.toNat latest now := by
  have hle : b.threshold.toNat ≤ b.failures.toNat → b.lastFailure.toNat ≤ now.toNat :=
    fun h ↦ UInt64.le_iff_toNat_le.mp (hlatest h).2
  refine ⟨state_eq_closed_iff, ?_, ?_, untilRetry_pos_iff, ?_⟩
  · rw [state_eq_opened_iff]
    refine and_congr_right fun hmany ↦ ?_
    have := hle hmany
    simp only [(hlatest hmany).1, Option.some.injEq, exists_eq_left']
    omega
  · rw [state_eq_halfOpen_iff]
    refine and_congr_right fun hmany ↦ ?_
    have := hle hmany
    simp only [(hlatest hmany).1, Option.some.injEq, exists_eq_left']
    omega
  · intro last hlast hopened
    obtain ⟨hmany, hsoon⟩ := state_eq_opened_iff.mp hopened
    have := hle hmany
    obtain rfl := Option.some.inj ((hlatest hmany).1.symm.trans hlast)
    rw [toNat_untilRetry hopened]
    omega

theorem mem_of_head?_streak {ms : List (Option UInt64)} {last : UInt64}
    (h : (streak ms).head? = some last) : some last ∈ ms := by
  cases ms with
  | nil => cases h
  | cons m ms =>
    cases m with
    | none => cases h
    | some failed => exact Option.some.inj h ▸ List.mem_cons_self

theorem millis_ofSeconds (seconds : Nat) : (Span.ofSeconds seconds).millis = seconds * 1000 := by
  simp only [Span.ofSeconds, Span.millis]
  omega

section Words

variable (threshold : UInt32) (seconds : UInt64) {ms : List (Option UInt64)}
  (hclock : ∀ failed, some failed ∈ ms → failed ≤ now)

include hclock

/-- The breaker of a host keeps time by what is left of its failures and of its cool-down in words. -/
theorem keepsTime_hearAll :
    ((new threshold (.ofSeconds seconds.toNat)).hearAll ms).KeepsTime (max threshold.toNat 1)
      (seconds.toNat * 1000 % word64) ((streak ms).length % word32) (streak ms).head? now := by
  have hthreshold : ((new threshold (.ofSeconds seconds.toNat)).hearAll ms).threshold.toNat =
      max threshold.toNat 1 := by
    rw [threshold_hearAll, toNat_threshold_new]
  have hcooldown : ((new threshold (.ofSeconds seconds.toNat)).hearAll ms).cooldownMillis.toNat =
      seconds.toNat * 1000 % word64 := by
    rw [toNat_cooldownMillis_hearAll, ← millis_ofSeconds]
    rfl
  have hfailures := failures_hearAll (b := new threshold (.ofSeconds seconds.toNat)) rfl ms
  rw [← hthreshold, ← hfailures, ← hcooldown]
  refine keepsTime fun hmany ↦ ?_
  have hfailed : 0 < (streak ms).length := by
    have hcount := Nat.mod_le (streak ms).length word32
    omega
  obtain ⟨last, hlast, hlatest⟩ := exists_lastFailure hfailed
  rw [hlast, hlatest]
  exact ⟨rfl, hclock last (mem_of_head?_streak hlast)⟩

/-- A breaker keeps the time that it was made for as long as its words hold its failures and its
cool-down. Whatever they hold, it fences no host off that would not be by the full numbers. -/
theorem fences_in_time :
    ((new threshold (.ofSeconds seconds.toNat)).hearAll ms).KeepsTime (max threshold.toNat 1)
        (seconds.toNat * 1000 % word64) ((streak ms).length % word32) (streak ms).head? now ∧
      (seconds.toNat * 1000 < word64 → (streak ms).length < word32 →
        ((new threshold (.ofSeconds seconds.toNat)).hearAll ms).KeepsTime (max threshold.toNat 1)
          (seconds.toNat * 1000) (streak ms).length (streak ms).head? now) ∧
      (((new threshold (.ofSeconds seconds.toNat)).hearAll ms).state now = .opened →
        max threshold.toNat 1 ≤ (streak ms).length ∧ ∃ last, (streak ms).head? = some last ∧
          now.toNat < last.toNat + seconds.toNat * 1000) := by
  have hkeeps := keepsTime_hearAll threshold seconds hclock
  refine ⟨hkeeps, fun hcooldown hfew ↦ ?_, fun hopened ↦ ?_⟩
  · rwa [Nat.mod_eq_of_lt hcooldown, Nat.mod_eq_of_lt hfew] at hkeeps
  · -- what is left of a number in a word is not above it
    obtain ⟨hmany, last, hlast, hsoon⟩ := hkeeps.opened.mp hopened
    have hcount := Nat.mod_le (streak ms).length word32
    have hcooldown := Nat.mod_le (seconds.toNat * 1000) word64
    exact ⟨by omega, last, hlast, by omega⟩

end Words

/-- A host that failed twice since it last answered, at a breaker with the longest cool-down that a word
of milliseconds holds, is still fenced off at the last moment of the clock. -/
theorem fences_in_time_longest :
    (∀ failed, some failed ∈ [some 5000, some 3000, none, some 2000] →
        failed ≤ (18446744073709551615 : UInt64)) ∧
      ((new 2 (.ofSeconds 18446744073709551)).hearAll [some 5000, some 3000, none, some 2000]).state
          18446744073709551615 = .opened ∧
      ((new 2 (.ofSeconds 18446744073709551)).hearAll
          [some 5000, some 3000, none, some 2000]).KeepsTime 2 (18446744073709551 * 1000) 2
            (some 5000) 18446744073709551615 := by
  have hclock : ∀ failed, some failed ∈ [some 5000, some 3000, none, some 2000] →
      failed ≤ (18446744073709551615 : UInt64) :=
    fun failed _ ↦ UInt64.le_iff_toNat_le.mpr (Nat.le_of_lt_succ failed.toNat_lt)
  exact ⟨hclock, by decide,
    (fences_in_time 2 18446744073709551 hclock).2.1 (by decide) (by decide)⟩

/-- A cool-down of `2 ^ 61` seconds is a whole multiple of what a word of milliseconds holds, so that
nothing is left of it: the host is not fenced off at all. -/
theorem halfOpen_at_once :
    ((new 1 (.ofSeconds 2305843009213693952)).hearAll [some 1700000000000]).state 1700000000000 =
        .halfOpen ∧
      ¬ ((new 1 (.ofSeconds 2305843009213693952)).hearAll [some 1700000000000]).KeepsTime 1
        (2305843009213693952 * 1000) 1 (some 1700000000000) 1700000000000 := by
  have hstate : ((new 1 (.ofSeconds 2305843009213693952)).hearAll [some 1700000000000]).state
      1700000000000 = .halfOpen := by decide
  refine ⟨hstate, fun h ↦ ?_⟩
  have hopened := h.opened.mpr ⟨Nat.le_refl 1, 1700000000000, rfl, by decide⟩
  exact absurd (hstate.symm.trans hopened) (by decide)

end Rollout.Breaker
