import Mathlib.Data.List.Nodup
import Mathlib.Data.List.Perm.Basic
import Rollout.Remote.Guard

namespace Rollout

open scoped List

namespace Guard

variable {τ : Type} {g : Guard τ} {now : UInt64} {host : String} {r : Reply} {t : τ}

@[simp] theorem limit_record : (g.record now host r).limit = g.limit := by
  cases r with
  | ok _ => rfl
  | error fault =>
    simp only [record]
    split <;> rfl

@[simp] theorem running_record : (g.record now host r).running = g.running := by
  cases r with
  | ok _ => rfl
  | error fault =>
    simp only [record]
    split <;> rfl

@[simp] theorem waiting_record : (g.record now host r).waiting = g.waiting := by
  cases r with
  | ok _ => rfl
  | error fault =>
    simp only [record]
    split <;> rfl

theorem record_running (g : Guard τ) (ts : List τ) :
    ({ g with running := ts } : Guard τ).record now host r =
      { g.record now host r with running := ts } := by
  cases r with
  | ok _ => rfl
  | error fault =>
    simp only [record]
    split <;> rfl

theorem enter_of_lt (h : g.running.length < g.limit) :
    g.enter t = ({ g with running := g.running ++ [t] }, true) := if_pos h

theorem enter_of_le (h : g.limit ≤ g.running.length) :
    g.enter t = ({ g with waiting := g.waiting ++ [t] }, false) := if_neg (Nat.not_lt.mpr h)

theorem mem_running_enter {u : τ} (hu : u ∈ g.running) : u ∈ (g.enter t).1.running := by
  unfold enter
  split
  · exact List.mem_append_left _ hu
  · exact hu

@[simp] theorem limit_enter : (g.enter t).1.limit = g.limit := by
  unfold enter
  split <;> rfl

section Release

variable [DecidableEq τ]

theorem release_of_nil (h : g.waiting = []) :
    g.release t = ({ g with running := g.running.erase t }, none) := by
  simp only [release, h]

theorem release_of_cons {u : τ} {us : List τ} (h : g.waiting = u :: us) :
    g.release t = ({ g with running := g.running.erase t ++ [u], waiting := us }, some u) := by
  simp only [release, h]

@[simp] theorem limit_release : (g.release t).1.limit = g.limit := by
  cases h : g.waiting with
  | nil => rw [release_of_nil h]
  | cons u us => rw [release_of_cons h]

theorem mem_running_release {u : τ} (hu : u ∈ g.running) (hne : u ≠ t) :
    u ∈ (g.release t).1.running := by
  have hmem := (List.mem_erase_of_ne hne).mpr hu
  cases h : g.waiting with
  | nil =>
    rw [release_of_nil h]
    exact hmem
  | cons v vs =>
    rw [release_of_cons h]
    exact List.mem_append_left _ hmem

theorem abandon_of_mem (h : t ∈ g.running) : g.abandon t = g.release t := by
  simp only [abandon, List.contains_eq_mem, h, decide_true, if_true]

theorem abandon_of_not_mem (h : t ∉ g.running) :
    g.abandon t = ({ g with waiting := g.waiting.erase t }, none) := by
  simp [abandon, h]

@[simp] theorem limit_abandon : (g.abandon t).1.limit = g.limit := by
  by_cases h : t ∈ g.running
  · rw [abandon_of_mem h, limit_release]
  · rw [abandon_of_not_mem h]

end Release

variable [DecidableEq τ]

/-- A guard at which the calls `entries` have asked for a place, in this order. Of these, `placed`
were given one, in this order, `released` have given it back, and `quit` gave up while they waited. -/
structure Serves (g : Guard τ) (entries placed released quit : List τ) : Prop where
  running_le : g.running.length ≤ g.limit
  full : g.waiting ≠ [] → g.running.length = g.limit
  nodup_entries : entries.Nodup
  in_order : placed ++ g.waiting = entries.filter (· ∉ quit)
  conserved : placed.Perm (g.running ++ released)
  quit_entered : ∀ t ∈ quit, t ∈ entries

namespace Serves

variable {entries placed released quit : List τ}

theorem new (maxInFlight : Nat) (threshold : UInt32) (cooldown : Span) :
    (Guard.new maxInFlight threshold cooldown : Guard τ).Serves [] [] [] [] := by
  constructor <;> simp [Guard.new]

theorem nodup_line (h : g.Serves entries placed released quit) : (placed ++ g.waiting).Nodup := by
  rw [h.in_order]
  exact h.nodup_entries.filter _

theorem nodup_held (h : g.Serves entries placed released quit) : (g.running ++ released).Nodup :=
  h.conserved.nodup_iff.mp (List.nodup_append.mp h.nodup_line).1

theorem nodup_running (h : g.Serves entries placed released quit) : g.running.Nodup :=
  (List.nodup_append.mp h.nodup_held).1

theorem mem_placed (h : g.Serves entries placed released quit) :
    t ∈ placed ↔ t ∈ g.running ∨ t ∈ released := by
  rw [h.conserved.mem_iff, List.mem_append]

theorem mem_line (h : g.Serves entries placed released quit) :
    t ∈ placed ∨ t ∈ g.waiting ↔ t ∈ entries ∧ t ∉ quit := by
  rw [← List.mem_append, h.in_order, List.mem_filter, decide_eq_true_eq]

theorem not_placed (h : g.Serves entries placed released quit) (ht : t ∈ g.waiting) :
    t ∉ placed := fun hp ↦ List.disjoint_of_nodup_append h.nodup_line hp ht

theorem waiting_eq_nil (h : g.Serves entries placed released quit)
    (hfree : g.running.length < g.limit) : g.waiting = [] := by
  by_contra hwait
  exact absurd (h.full hwait) (Nat.ne_of_lt hfree)

theorem record (h : g.Serves entries placed released quit) :
    (g.record now host r).Serves entries placed released quit where
  running_le := by simpa only [limit_record, running_record] using h.running_le
  full := by simpa only [limit_record, running_record, waiting_record] using h.full
  nodup_entries := h.nodup_entries
  in_order := by simpa only [waiting_record] using h.in_order
  conserved := by simpa only [running_record] using h.conserved
  quit_entered := h.quit_entered

theorem enter (h : g.Serves entries placed released quit) (ht : t ∉ entries) :
    (g.enter t).1.Serves (entries ++ [t]) (if (g.enter t).2 then placed ++ [t] else placed)
      released quit := by
  have hnodup : (entries ++ [t]).Nodup := by
    rw [List.nodup_append_comm]
    exact List.nodup_cons.mpr ⟨ht, h.nodup_entries⟩
  have hline : (entries ++ [t]).filter (· ∉ quit) = placed ++ g.waiting ++ [t] := by
    rw [List.filter_append, ← h.in_order]
    simp [show t ∉ quit from fun hquit ↦ ht (h.quit_entered t hquit)]
  have hentered : ∀ u ∈ quit, u ∈ entries ++ [t] :=
    fun u hu ↦ List.mem_append_left _ (h.quit_entered u hu)
  rcases Nat.lt_or_ge g.running.length g.limit with hfree | hfull
  · -- Nobody waits while a place is free, so the call overtakes nobody.
    have hnil := h.waiting_eq_nil hfree
    rw [enter_of_lt hfree]
    refine ⟨?_, fun hwait ↦ absurd hnil hwait, hnodup, ?_, ?_, hentered⟩
    · simpa using Nat.succ_le_of_lt hfree
    · rw [hline]
      simp [hnil]
    · calc placed ++ [t] ~ (g.running ++ released) ++ [t] := h.conserved.append_right [t]
        _ = g.running ++ (released ++ [t]) := List.append_assoc ..
        _ ~ g.running ++ ([t] ++ released) := List.perm_append_comm.append_left g.running
        _ = g.running ++ [t] ++ released := (List.append_assoc ..).symm
  · rw [enter_of_le hfull]
    refine ⟨h.running_le, fun _ ↦ Nat.le_antisymm h.running_le hfull, hnodup, ?_, h.conserved,
      hentered⟩
    rw [hline, List.append_assoc]
    rfl

theorem release (h : g.Serves entries placed released quit) (ht : t ∈ g.running) :
    (g.release t).1.Serves entries (placed ++ (g.release t).2.toList) (t :: released) quit := by
  have herase := List.length_erase_of_mem ht
  have hpos := List.length_pos_of_mem ht
  have hle := h.running_le
  have hconserved : placed.Perm (g.running.erase t ++ t :: released) :=
    calc placed ~ g.running ++ released := h.conserved
      _ ~ (t :: g.running.erase t) ++ released := (List.perm_cons_erase ht).append_right released
      _ ~ g.running.erase t ++ t :: released := List.perm_middle.symm
  cases hwait : g.waiting with
  | nil =>
    rw [release_of_nil hwait]
    refine ⟨?_, fun hne ↦ absurd hwait hne, h.nodup_entries, ?_, ?_, h.quit_entered⟩
    · simp only
      omega
    · simpa using h.in_order
    · simpa using hconserved
  | cons u us =>
    have hfull := h.full (by rw [hwait]; exact List.cons_ne_nil u us)
    rw [release_of_cons hwait]
    refine ⟨?_, fun _ ↦ ?_, h.nodup_entries, ?_, ?_, h.quit_entered⟩
    · simp only [List.length_append, List.length_singleton]
      omega
    · simp only [List.length_append, List.length_singleton]
      omega
    · rw [← h.in_order, hwait]
      simp
    · calc placed ++ [u] ~ (g.running.erase t ++ t :: released) ++ [u] :=
            hconserved.append_right [u]
        _ = g.running.erase t ++ ((t :: released) ++ [u]) := List.append_assoc ..
        _ ~ g.running.erase t ++ ([u] ++ t :: released) := List.perm_append_comm.append_left _
        _ = g.running.erase t ++ [u] ++ t :: released := (List.append_assoc ..).symm

theorem giveUp (h : g.Serves entries placed released quit) (hrun : t ∉ g.running)
    (ht : t ∈ g.waiting) :
    (g.abandon t).1.Serves entries placed released (t :: quit) := by
  have hne : placed.filter (· != t) = placed :=
    List.filter_eq_self.mpr fun u hu ↦ by
      simpa using fun heq : u = t ↦ h.not_placed ht (heq ▸ hu)
  rw [abandon_of_not_mem hrun]
  refine ⟨h.running_le, fun _ ↦ h.full (List.ne_nil_of_mem ht), h.nodup_entries, ?_, h.conserved,
    ?_⟩
  · calc placed ++ g.waiting.erase t
        = placed.filter (· != t) ++ g.waiting.filter (· != t) := by
          rw [hne, (List.nodup_append.mp h.nodup_line).2.1.erase_eq_filter]
      _ = (placed ++ g.waiting).filter (· != t) := (List.filter_append ..).symm
      _ = entries.filter (· ∉ t :: quit) := by
          rw [h.in_order, List.filter_filter]
          refine List.filter_congr fun u _ ↦ ?_
          simp [bne, Bool.beq_eq_decide_eq]
  · intro u hu
    rcases List.mem_cons.mp hu with rfl | hu
    · exact (h.mem_line.mp (.inr ht)).1
    · exact h.quit_entered u hu

end Serves

end Guard

end Rollout
