import Mathlib.Data.Nat.Find
import Rollout.Proofs.Retry.Backoff
import Rollout.Retry.Backoff

namespace Rollout.Tolerant

variable {α : Type}

/-- When the attempts and the pauses of a course begin and end. -/
structure Paced (trial : Trial α) (begun : Span) (c : Course α) : Prop where
  first : ∀ s ∈ c.attempts.head?, s.since = begun
  takes : ∀ i s, c.attempts[i]? = some s → s.till = (trial.takes i).after s.since
  spaced : ∀ i s t, c.attempts[i]? = some s → c.attempts[i + 1]? = some t →
    t.since = (Span.ofMillis (min (100 * 2 ^ i) 5000)).after s.till
  /-- Pauses are made between two attempts and at no other time. -/
  pauses_eq : c.pauses = List.zipWith (fun s t ↦ ⟨s.till, t.since⟩) c.attempts c.attempts.tail
  endsAt_eq : c.endsAt = (c.attempts.getLast?.map Stretch.till).getD begun

/-- What may be seen of a course of side work that may be tried `allowed` times. -/
structure Tried (trial : Trial α) (allowed : Nat) (begun : Span) (c : Course α) : Prop where
  /-- If some attempt is the first that would succeed, the attempts up to it are made as far as they
  are allowed, and its value is given if it is among them. -/
  succeeds : ∀ k a, trial.outcome k = some a → (∀ i < k, trial.outcome i = none) →
    c.attempts.length = min (k + 1) allowed ∧ c.value = if k < allowed then some a else none
  fails : (∀ i, trial.outcome i = none) → c.attempts.length = allowed ∧ c.value = none
  paced : Paced trial begun c

def failed (allowed n : Nat) : Tolerant :=
  ⟨allowed - n, Backoff.advance^[n] (new allowed).backoff⟩

def delay (n : Nat) : Span := .ofMillis (min (100 * 2 ^ n) 5000)

theorem delay_failed (allowed n : Nat) : (failed allowed n).backoff.delay = delay n := by
  have hnew : (new allowed).backoff = .new (.ofMillis 100) (.ofMillis 5000) := rfl
  rw [failed, hnew]
  exact Backoff.nth_new_ofMillis (by decide) (by decide) n

theorem next_failed {allowed n : Nat} (h : n + 1 < allowed) :
    (failed allowed n).next (none : Option α) = .retry (delay n) (failed allowed (n + 1)) := by
  have hleft : ¬ (failed allowed n).left ≤ 1 := by
    simp only [failed]
    omega
  rw [next, if_neg hleft, delay_failed, failed, failed, Function.iterate_succ_apply', Nat.sub_sub]

theorem next_failed_of_le {allowed n : Nat} (h : allowed ≤ n + 1) :
    (failed allowed n).next (none : Option α) = .givenUp := by
  have hleft : (failed allowed n).left ≤ 1 := by
    simp only [failed]
    omega
  rw [next, if_pos hleft]

namespace Trial

variable (trial : Trial α) (begun : Span)

def since : Nat → Span
  | 0 => begun
  | n + 1 => (delay n).after ((trial.takes n).after (since n))

def attempt (n : Nat) : Stretch :=
  ⟨trial.since begun n, (trial.takes n).after (trial.since begun n)⟩

def pause (n : Nat) : Stretch := ⟨(trial.attempt begun n).till, trial.since begun (n + 1)⟩

def courseAfter (allowed n : Nat) : Course α :=
  courseFrom trial (allowed - n) (failed allowed n).backoff n (trial.since begun n)

theorem courseAfter_eq {allowed n : Nat} (h : n < allowed) : trial.courseAfter begun allowed n =
    courseFrom trial (allowed - (n + 1) + 1) (failed allowed n).backoff n (trial.since begun n) ∧
      failed allowed n = ⟨allowed - (n + 1) + 1, (failed allowed n).backoff⟩ := by
  have hleft : allowed - n = allowed - (n + 1) + 1 := by omega
  rw [← hleft]
  exact ⟨rfl, rfl⟩

def courseUpTo (m : Nat) : Course α where
  attempts := (List.range (m + 1)).map (trial.attempt begun)
  pauses := (List.range m).map (trial.pause begun)
  endsAt := (trial.attempt begun m).till
  value := trial.outcome m

variable {trial begun} {allowed m n : Nat}

theorem courseAfter_of_fails (h : n + 1 < allowed) (hfail : trial.outcome n = none) :
    trial.courseAfter begun allowed n =
      { trial.courseAfter begun allowed (n + 1) with
        attempts := trial.attempt begun n :: (trial.courseAfter begun allowed (n + 1)).attempts
        pauses := trial.pause begun n :: (trial.courseAfter begun allowed (n + 1)).pauses } := by
  obtain ⟨hcourse, hfailed⟩ := trial.courseAfter_eq begun (Nat.lt_of_succ_lt h)
  rw [hcourse, courseFrom, ← hfailed, hfail, next_failed h]
  rfl

theorem courseAfter_of_last (h : n < allowed)
    (hlast : (trial.outcome n).isSome ∨ n + 1 = allowed) :
    trial.courseAfter begun allowed n = ⟨[trial.attempt begun n], [],
      (trial.attempt begun n).till, trial.outcome n⟩ := by
  obtain ⟨hcourse, hfailed⟩ := trial.courseAfter_eq begun h
  rw [hcourse, courseFrom, ← hfailed]
  cases houtcome : trial.outcome n with
  | some a => rfl
  | none =>
    have hexhausted : n + 1 = allowed := by simpa [houtcome] using hlast
    rw [next_failed_of_le hexhausted.ge]
    rfl

theorem courseOf_of_fails (h : m < allowed) (hfails : ∀ i < m, trial.outcome i = none) :
    courseOf trial allowed begun =
      { trial.courseAfter begun allowed m with
        attempts := (List.range m).map (trial.attempt begun) ++
          (trial.courseAfter begun allowed m).attempts
        pauses := (List.range m).map (trial.pause begun) ++
          (trial.courseAfter begun allowed m).pauses } := by
  induction m with
  | zero => rfl
  | succ m ih =>
    rw [ih (by omega) fun i hi ↦ hfails i (by omega),
      courseAfter_of_fails h (hfails m (by omega)), List.range_succ, List.map_append,
      List.map_append, List.append_assoc, List.append_assoc]
    rfl

/-- The course goes up to the first success or the last allowed attempt. -/
theorem courseOf_eq_upTo (h : m < allowed) (hfails : ∀ i < m, trial.outcome i = none)
    (hlast : (trial.outcome m).isSome ∨ m + 1 = allowed) :
    courseOf trial allowed begun = trial.courseUpTo begun m := by
  rw [courseOf_of_fails h hfails, courseAfter_of_last h hlast, courseUpTo, List.range_succ,
    List.map_append, List.append_nil]
  rfl

theorem exists_last (trial : Trial α) (h : 0 < allowed) : ∃ m < allowed,
    (∀ i < m, trial.outcome i = none) ∧ ((trial.outcome m).isSome ∨ m + 1 = allowed) := by
  have hex : ∃ m, (trial.outcome m).isSome ∨ m + 1 = allowed := ⟨allowed - 1, .inr (by omega)⟩
  refine ⟨Nat.find hex, ?_, fun i hi ↦ ?_, Nat.find_spec hex⟩
  · have hle : Nat.find hex ≤ allowed - 1 := Nat.find_le (.inr (by omega))
    omega
  · have hnot := (not_or.mp (Nat.find_min hex hi)).1
    rwa [Option.not_isSome_iff_eq_none] at hnot

theorem getElem?_attempts {i : Nat} {s : Stretch} :
    (trial.courseUpTo begun m).attempts[i]? = some s ↔ i < m + 1 ∧ trial.attempt begun i = s := by
  simp [courseUpTo, List.getElem?_eq_some_iff]

theorem paced_courseUpTo (m : Nat) : Paced trial begun (trial.courseUpTo begun m) where
  first s hs := by
    rw [List.head?_eq_getElem?, Option.mem_def] at hs
    obtain ⟨-, rfl⟩ := getElem?_attempts.mp hs
    rfl
  takes i s hs := by
    obtain ⟨-, rfl⟩ := getElem?_attempts.mp hs
    rfl
  spaced i s t hs ht := by
    obtain ⟨-, rfl⟩ := getElem?_attempts.mp hs
    obtain ⟨-, rfl⟩ := getElem?_attempts.mp ht
    rfl
  pauses_eq := by
    refine List.ext_getElem (by simp [courseUpTo]) fun i _ _ ↦ ?_
    simp [courseUpTo, pause, attempt]
  endsAt_eq := by
    simp [courseUpTo, List.range_succ]

end Trial

theorem paced_nil (trial : Trial α) (begun : Span) : Paced trial begun ⟨[], [], begun, none⟩ where
  first := by simp
  takes := by simp
  spaced := by simp
  pauses_eq := rfl
  endsAt_eq := rfl

/-- Side work is tried up to its first success as often as is allowed, with pauses that double. -/
theorem tried_courseOf (trial : Trial α) (allowed : Nat) (begun : Span) :
    Tried trial allowed begun (courseOf trial allowed begun) := by
  rcases Nat.eq_zero_or_pos allowed with rfl | hpos
  · have hempty : courseOf trial 0 begun = ⟨[], [], begun, none⟩ := rfl
    rw [hempty]
    exact ⟨fun k a _ _ ↦ ⟨rfl, rfl⟩, fun _ ↦ ⟨rfl, rfl⟩, paced_nil trial begun⟩
  · obtain ⟨m, hm, hfails, hlast⟩ := trial.exists_last hpos
    have hlength : (trial.courseUpTo begun m).attempts.length = m + 1 := by
      simp [Trial.courseUpTo]
    have hvalue : (trial.courseUpTo begun m).value = trial.outcome m := rfl
    have hexhausted : trial.outcome m = none → m + 1 = allowed := by
      intro hnone
      simpa [hnone] using hlast
    rw [Trial.courseOf_eq_upTo hm hfails hlast]
    refine ⟨fun k a hk hbefore ↦ ?_, fun hnone ↦ ?_, Trial.paced_courseUpTo m⟩
    · rw [hlength, hvalue]
      rcases Nat.lt_trichotomy m k with hlt | rfl | hlt
      · have hall := hexhausted (hbefore m hlt)
        rw [hbefore m hlt, if_neg (by omega)]
        exact ⟨by omega, rfl⟩
      · rw [hk, if_pos hm]
        exact ⟨by omega, rfl⟩
      · cases (hfails k hlt).symm.trans hk
    · rw [hlength, hvalue]
      exact ⟨hexhausted (hnone m), hnone m⟩

example : (course (fun n ↦ if n = 8 then some "stopped" else none) 12).starts =
    [0, 100, 300, 700, 1500, 3100, 6300, 11300, 16300] := by
  decide

end Rollout.Tolerant
