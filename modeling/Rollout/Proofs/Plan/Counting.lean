import Mathlib.Data.List.Perm.Subperm
import Mathlib.Tactic.Tauto
import Rollout.Plan.Order

namespace Rollout.Plan

theorem mem_insertId {i n : Nat} {ids : List Nat} : i ∈ insertId n ids ↔ i = n ∨ i ∈ ids := by
  induction ids with
  | nil => simp [insertId]
  | cons m ms ih =>
    simp only [insertId]
    split
    · simp
    · split
      · rename_i h
        simp [h]
      · simp only [List.mem_cons, ih]
        tauto

theorem pairwise_insertId {n : Nat} {ids : List Nat} (h : ids.Pairwise (· < ·)) :
    (insertId n ids).Pairwise (· < ·) := by
  induction ids with
  | nil => simp [insertId]
  | cons m ms ih =>
    obtain ⟨hm, hms⟩ := List.pairwise_cons.mp h
    simp only [insertId]
    split
    · rename_i hlt
      refine List.pairwise_cons.mpr ⟨fun k hk ↦ ?_, h⟩
      rcases List.mem_cons.mp hk with rfl | hk
      · exact hlt
      · exact Nat.lt_trans hlt (hm k hk)
    · split
      · exact h
      · refine List.pairwise_cons.mpr ⟨fun k hk ↦ ?_, ih hms⟩
        rcases mem_insertId.mp hk with rfl | hk
        · omega
        · exact hm k hk

theorem nodup_of_increasing {ids : List Nat} (h : ids.Pairwise (· < ·)) : ids.Nodup :=
  h.imp fun hlt ↦ Nat.ne_of_lt hlt

def lower (counts : List Nat) (i : Nat) : List Nat := counts.set i ((counts[i]?).getD 0 - 1)

theorem getElem?_lower (counts : List Nat) (i k : Nat) :
    (lower counts i)[k]? = if i = k then (counts[k]?).map (· - 1) else counts[k]? := by
  simp only [lower, List.getElem?_set]
  by_cases h : i = k
  · subst k
    by_cases hi : i < counts.length
    · simp [hi]
    · simp [hi]
  · simp [h]

theorem getElem?_foldl_lower {ids : List Nat} (h : ids.Nodup) (counts : List Nat) (k : Nat) :
    (ids.foldl lower counts)[k]? =
      if k ∈ ids then (counts[k]?).map (· - 1) else counts[k]? := by
  induction ids generalizing counts with
  | nil => simp
  | cons i ids ih =>
    obtain ⟨hi, hids⟩ := List.nodup_cons.mp h
    rw [List.foldl_cons, ih hids, getElem?_lower]
    by_cases hk : i = k
    · subst k
      simp [hi]
    · simp [hk, Ne.symm hk]

/-- All numbers of a list stand in another one, each once, exactly if as many numbers of the other
list belong to it. -/
theorem length_le_filter_iff {ids placed : List Nat} (h : placed.Nodup) :
    ids.length ≤ (placed.filter (· ∈ ids)).length ↔ ids.Nodup ∧ ∀ a ∈ ids, a ∈ placed := by
  have hsub : placed.filter (· ∈ ids) ⊆ ids := fun a ha ↦ by simpa using (List.mem_filter.mp ha).2
  have hnodup : (placed.filter (· ∈ ids)).Nodup := h.filter _
  constructor
  · intro hle
    have hperm := (List.subperm_of_subset hnodup hsub).perm_of_length_le hle
    refine ⟨hperm.nodup_iff.mp hnodup, fun a ha ↦ ?_⟩
    exact (List.mem_filter.mp (hperm.mem_iff.mpr ha)).1
  · rintro ⟨hids, hall⟩
    refine (List.subperm_of_subset hids fun a ha ↦ ?_).length_le
    exact List.mem_filter.mpr ⟨hall a ha, by simpa using ha⟩

end Rollout.Plan
