import Rollout.Proofs.Retry.Backoff
import Rollout.Retry.Policy

namespace Rollout.RetryPolicy

variable {p : RetryPolicy} {j k : Nat}

/-- The delay after the `k`-th failed attempt when nothing is rounded. -/
def doubled (p : RetryPolicy) (k : Nat) : Span :=
  .ofMillis (min (p.initialBackoff * 2 ^ (k - 1)) p.maxBackoff)

/-- What the delays of a policy that doubles them are, after each attempt and one after another. -/
structure Doubling (p : RetryPolicy) : Prop where
  delay : ∀ k, 1 ≤ k → k ≤ 2 ^ 31 → p.backoffFor k = p.doubled k
  inTurn : ∀ k, 1 ≤ k → k ≤ 2 ^ 31 → p.backoff.nth (k - 1) = p.doubled k
  growing : ∀ j k, 1 ≤ j → j ≤ k → k ≤ 2 ^ 31 →
    p.backoffFor j ≤ p.backoffFor k ∧ p.backoff.nth (j - 1) ≤ p.backoff.nth (k - 1)
  bounded : ∀ k, 1 ≤ k → k ≤ 2 ^ 31 →
    p.backoffFor k ≤ .ofMillis p.maxBackoff ∧ p.backoff.nth (k - 1) ≤ .ofMillis p.maxBackoff
  again : ∀ n k, (Backoff.advance^[n] p.backoff).reset.nth k = p.backoff.nth k

theorem exponent_eq (hk : k ≤ 2 ^ 31) : exponent k = (k - 1 : Nat) := by
  rw [exponent]
  exact Int32.toInt_ofNat_of_lt (by omega)

theorem doubled_mono (h : j ≤ k) : p.doubled j ≤ p.doubled k := by
  have hpow : 2 ^ (j - 1) ≤ 2 ^ (k - 1) := Nat.pow_le_pow_right (by decide) (by omega)
  have hgrown := Nat.mul_le_mul_left p.initialBackoff hpow
  exact Nat.mul_le_mul_right _ (Nat.le_min.mpr
    ⟨(Nat.min_le_left ..).trans hgrown, Nat.min_le_right ..⟩)

theorem doubled_le_max : p.doubled k ≤ .ofMillis p.maxBackoff :=
  Nat.mul_le_mul_right _ (Nat.min_le_right ..)

section Two

variable (hmultiplier : p.multiplier = .ofNat 2)

include hmultiplier

theorem atLeastOne_multiplier : p.multiplier.atLeastOne = .ofNat 2 := by
  rw [hmultiplier]
  decide

theorem backoff_eq_new :
    p.backoff = Backoff.new (.ofMillis p.initialBackoff) (.ofMillis p.maxBackoff) := by
  rw [backoff, Backoff.withMultiplier, atLeastOne_multiplier hmultiplier]
  rfl

/-- The power may be infinite and the product capped by a word: both are above the greatest delay. -/
theorem backoffFor_eq_doubled (hinitial : p.initialBackoff < 2 ^ 53) (hmax : p.maxBackoff < 2 ^ 64)
    (hk : k ≤ 2 ^ 31) : p.backoffFor k = p.doubled k := by
  simp only [backoffFor]
  rw [atLeastOne_multiplier hmultiplier, exponent_eq hk, Binary64.pow_two,
    Binary64.toWord_ofNat_mul_shifted hinitial, doubled, word64]
  congr 1
  simp only [Nat.min_def]
  grind

theorem nth_eq_doubled (hinitial : p.initialBackoff ≤ 2 ^ 32) (hmax : p.maxBackoff ≤ 2 ^ 32) :
    p.backoff.nth (k - 1) = p.doubled k := by
  have hexact : ∀ n, n ≤ 2 ^ 32 → (Span.ofMillis n).nanos < 2 ^ 52 := by
    intro n hn
    show n * 1000000 < 2 ^ 52
    omega
  rw [backoff_eq_new hmultiplier]
  exact Backoff.nth_new_ofMillis (hexact _ hinitial) (hexact _ hmax) (k - 1)

/-- The two ways to work out the delays of a policy agree, and neither loses anything. -/
theorem doubling_of_two (hinitial : p.initialBackoff ≤ 2 ^ 32) (hmax : p.maxBackoff ≤ 2 ^ 32) :
    p.Doubling := by
  have hdelay : ∀ k, 1 ≤ k → k ≤ 2 ^ 31 → p.backoffFor k = p.doubled k := fun k _ hk ↦
    backoffFor_eq_doubled hmultiplier (by omega) (by omega) hk
  have hinTurn : ∀ k, p.backoff.nth (k - 1) = p.doubled k := fun k ↦
    nth_eq_doubled hmultiplier hinitial hmax
  refine ⟨hdelay, fun k _ _ ↦ hinTurn k, fun j k hj hjk hk ↦ ?_, fun k hk hk' ↦ ?_, fun n k ↦ ?_⟩
  · rw [hdelay j hj (hjk.trans hk), hdelay k (hj.trans hjk) hk, hinTurn j, hinTurn k]
    exact ⟨doubled_mono hjk, doubled_mono hjk⟩
  · rw [hdelay k hk hk', hinTurn k]
    exact ⟨doubled_le_max, doubled_le_max⟩
  · rw [Backoff.reset_iterate n (backoff_eq_new hmultiplier ▸ rfl)]

end Two

/-- A first delay above the greatest one, and a power of two that is infinite. -/
theorem doubling_of_two_capped :
    ({ initialBackoff := 4000000000, maxBackoff := 350 } : RetryPolicy).multiplier = .ofNat 2 ∧
      4000000000 ≤ 2 ^ 32 ∧ 350 ≤ 2 ^ 32 ∧
      ({ initialBackoff := 4000000000, maxBackoff := 350 } : RetryPolicy).Doubling :=
  ⟨rfl, by decide, by decide, doubling_of_two rfl (by decide) (by decide)⟩

end Rollout.RetryPolicy
