import Mathlib.Data.List.Nodup
import Rollout.Proofs.Plan.Accepted

namespace Rollout.Plan

namespace Sorting

variable {steps : List Step}

/-- The steps placed, last first, each with the lowest number of those that could be placed. -/
def Greedy (steps : List Step) : List Nat → Prop
  | [] => True
  | i :: placed => (∀ k ∉ placed, Free steps placed k → i ≤ k) ∧ Greedy steps placed

theorem Ordered.of_append {placed rest : List Nat} (h : Ordered steps (rest ++ placed)) :
    Ordered steps placed := by
  induction rest with
  | nil => exact h
  | cons i rest ih => exact ih h.2.2

theorem Greedy.of_append {placed rest : List Nat} (h : Greedy steps (rest ++ placed)) :
    Greedy steps placed := by
  induction rest with
  | nil => exact h
  | cons i rest ih => exact ih h.2

variable (hnum : Numbered steps) (hrange : InRange steps)
include hnum hrange

theorem Sound.greedy_run {s : Sorting} (h : Sound steps s) (hgreedy : Greedy steps s.placed)
    (rounds : Nat) : Greedy steps (Sorting.run (successorLists steps) rounds s).placed := by
  induction rounds generalizing s with
  | zero => exact hgreedy
  | succ rounds ih =>
    rw [Sorting.run]
    split
    · exact hgreedy
    · rename_i i ready hready
      refine ih (h.place hnum hrange hready) ?_
      rw [Sorting.place, placed_foldl_release]
      refine ⟨fun k hk hfree ↦ ?_, hgreedy⟩
      have hmem := (h.ready_iff k).mpr ⟨hk, hfree⟩
      have hinc := h.increasing
      rw [hready] at hmem hinc
      rcases List.mem_cons.mp hmem with rfl | hmem
      · exact Nat.le_refl k
      · exact Nat.le_of_lt (List.rel_of_pairwise_cons hinc hmem)

theorem greedy_sorting : Greedy steps (sorting steps).placed :=
  (sound_start hnum).greedy_run hnum hrange trivial steps.length

end Sorting

section Order

variable {steps : List Step} {p : Plan} (h : ofSteps steps = .ok p)
include h

theorem mem_order {x : Step} (hx : x ∈ p.steps) : x.id ∈ p.order := by
  obtain ⟨hnum, hrange, hlen, rfl⟩ := ofSteps_eq_ok h
  exact List.mem_reverse.mpr (Sorting.mem_placed hnum hrange hlen x hx)

theorem exists_of_mem_order {i : Nat} (hi : i ∈ p.order) : ∃ x ∈ p.steps, x.id = i := by
  obtain ⟨hnum, hrange, -, rfl⟩ := ofSteps_eq_ok h
  obtain ⟨x, hx, hid, -⟩ :=
    (Sorting.sound_sorting hnum hrange).ordered.free (List.mem_reverse.mp hi)
  exact ⟨x, hx, hid⟩

theorem nodup_order : p.order.Nodup := by
  obtain ⟨hnum, hrange, -, rfl⟩ := ofSteps_eq_ok h
  exact List.nodup_reverse.mpr (Sorting.sound_sorting hnum hrange).ordered.nodup

/-- Where a step stands in the order, its predecessors stand before it, and no step that could have
come in its place has a lower number. -/
theorem order_eq_append {before after : List Nat} {i : Nat}
    (horder : p.order = before ++ i :: after) :
    (∀ a, p.Precedes a i → a ∈ before) ∧
      ∀ x ∈ p.steps, x.id ∉ before → (∀ a ∈ x.predecessors, a ∈ before) → i ≤ x.id := by
  have hp := wellFormed_of_ofSteps h
  obtain ⟨hnum, hrange, hlen, rfl⟩ := ofSteps_eq_ok h
  have hplaced : (sorting steps).placed = after.reverse ++ i :: before.reverse := by
    rw [← List.reverse_reverse (sorting steps).placed]
    simp [show (sorting steps).placed.reverse = _ from horder]
  have hordered := (Sorting.sound_sorting hnum hrange).ordered
  have hgreedy := Sorting.greedy_sorting hnum hrange
  rw [hplaced] at hordered hgreedy
  obtain ⟨-, ⟨y, hy, rfl, -, hall⟩, -⟩ := hordered.of_append
  obtain ⟨hleast, -⟩ := hgreedy.of_append
  refine ⟨fun a ha ↦ ?_, fun x hx hnot hbefore ↦ ?_⟩
  · exact List.mem_reverse.mp (hall a ((hp.precedes_iff hy).mp ha))
  · refine hleast x.id (by simpa using hnot) ⟨x, hx, rfl, hp.nodup_predecessors x hx, ?_⟩
    exact fun a ha ↦ List.mem_reverse.mpr (hbefore a ha)

end Order

end Rollout.Plan
