import Mathlib.Logic.Function.Iterate
import Rollout.Proofs.Number.Binary64
import Rollout.Retry.Backoff

namespace Rollout

namespace Backoff

/-- The delay that comes after `n` others. -/
def nth (b : Backoff) (n : Nat) : Span := (advance^[n] b).delay

theorem reset_iterate (n : Nat) {b : Backoff} (h : b.current = b.initial) :
    (Backoff.advance^[n] b).reset = b := by
  have hkept : ∀ c : Backoff, c.initial = b.initial → c.max = b.max →
      c.multiplier = b.multiplier → (Backoff.advance^[n] c).reset = b := by
    induction n with
    | zero =>
      intro c hinitial hmax hmultiplier
      obtain ⟨initial, current, most, multiplier⟩ := b
      obtain rfl : current = initial := h
      simp only [Function.iterate_zero, id_eq, reset] at *
      rw [hinitial, hmax, hmultiplier]
    | succ n ih => exact fun c hinitial hmax hmultiplier ↦ ih c.advance hinitial hmax hmultiplier
  exact hkept b rfl rfl rfl

theorem current_advance {b : Backoff} (hmultiplier : b.multiplier = .ofNat 2)
    (hcurrent : b.current.nanos < 2 ^ 52) :
    b.advance.current.nanos = Nat.min (b.current.nanos * 2) b.max.nanos := by
  have hdouble : b.current.nanos * 2 < 2 ^ 53 := by omega
  simp only [advance, hmultiplier, Span.min]
  rw [Binary64.ofNat_mul_ofNat (by omega) (by decide) hdouble, Binary64.toWord_ofNat hdouble]

theorem nth_new_pos {initial max : Span} (hinitial : 0 < initial.nanos) (hmax : 0 < max.nanos)
    (n : Nat) : 0 < ((new initial max).nth n).nanos := by
  have hiterate : ∃ current, advance^[n] (new initial max) = ⟨initial, current, max, .ofNat 2⟩ ∧
      0 < current.nanos := by
    induction n with
    | zero => exact ⟨initial, rfl, hinitial⟩
    | succ n ih =>
      obtain ⟨current, heq, hpos⟩ := ih
      refine ⟨(advance ⟨initial, current, max, .ofNat 2⟩).current, ?_, Nat.lt_min.mpr ⟨?_, hmax⟩⟩
      · rw [Function.iterate_succ_apply', heq]
        rfl
      · exact (Binary64.oneLe_ofRatio Nat.one_pos hpos).double.toWord
  obtain ⟨current, heq, hpos⟩ := hiterate
  rw [nth, heq]
  exact Nat.lt_min.mpr ⟨hpos, hmax⟩

section Doubling

variable {initial max : Span} (hinitial : initial.nanos < 2 ^ 52) (hmax : max.nanos < 2 ^ 52)

include hinitial hmax

theorem iterate_advance_new (n : Nat) :
    ∃ current, advance^[n] (new initial max) = ⟨initial, current, max, .ofNat 2⟩ ∧
      current.nanos < 2 ^ 52 ∧
      Nat.min current.nanos max.nanos = Nat.min (initial.nanos * 2 ^ n) max.nanos := by
  induction n with
  | zero => exact ⟨initial, rfl, hinitial, by rw [Nat.pow_zero, Nat.mul_one]⟩
  | succ n ih =>
    obtain ⟨current, heq, hlt, hmin⟩ := ih
    have hnext := current_advance (b := ⟨initial, current, max, .ofNat 2⟩) rfl hlt
    refine ⟨(advance ⟨initial, current, max, .ofNat 2⟩).current, ?_, ?_, ?_⟩
    · rw [Function.iterate_succ_apply', heq]
      rfl
    · exact hnext.trans_lt ((Nat.min_le_right ..).trans_lt hmax)
    · simp only [Nat.min_def, Nat.pow_succ] at hmin hnext ⊢
      grind

theorem nth_new (n : Nat) :
    ((new initial max).nth n).nanos = Nat.min (initial.nanos * 2 ^ n) max.nanos := by
  obtain ⟨current, heq, -, hmin⟩ := iterate_advance_new hinitial hmax n
  rw [nth, heq]
  exact hmin

theorem le_nth_new (n : Nat) :
    Nat.min initial.nanos max.nanos ≤ ((new initial max).nth n).nanos := by
  rw [nth_new hinitial hmax]
  exact Nat.le_min.mpr ⟨(Nat.min_le_left ..).trans (Nat.le_mul_of_pos_right _ (Nat.two_pow_pos n)),
    Nat.min_le_right ..⟩

end Doubling

theorem nth_new_ofMillis {initial max : Nat} (hinitial : (Span.ofMillis initial).nanos < 2 ^ 52)
    (hmax : (Span.ofMillis max).nanos < 2 ^ 52) (n : Nat) :
    (new (.ofMillis initial) (.ofMillis max)).nth n = .ofMillis (min (initial * 2 ^ n) max) := by
  refine congrArg Span.mk ?_
  calc ((new (.ofMillis initial) (.ofMillis max)).nth n).nanos
      = Nat.min (initial * 1000000 * 2 ^ n) (max * 1000000) := nth_new hinitial hmax n
    _ = Nat.min (initial * 2 ^ n * 1000000) (max * 1000000) := by rw [Nat.mul_right_comm]
    _ = min (initial * 2 ^ n) max * 1000000 := Nat.mul_min_mul_right ..

end Backoff

end Rollout
