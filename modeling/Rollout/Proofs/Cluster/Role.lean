import Rollout.Inventory.Reader

namespace Rollout

namespace Role

theorem mem_all (r : Role) : r ∈ all := by
  cases r <;> decide

theorem mem_sorted {r : Role} {rs : List Role} : r ∈ sorted rs ↔ r ∈ rs := by
  simp [sorted, mem_all]

theorem nodup_sorted (rs : List Role) : (sorted rs).Nodup := List.Pairwise.filter _ (by decide)

theorem sorted_filter (rs : List Role) (p : Role → Bool) :
    sorted (rs.filter p) = (sorted rs).filter p := by
  rw [sorted, sorted, List.filter_filter]
  refine List.filter_congr fun r _ ↦ ?_
  rw [Bool.eq_iff_iff]
  simp [and_comm]

@[simp] theorem sorted_sorted (rs : List Role) : sorted (sorted rs) = sorted rs := by
  unfold sorted
  refine List.filter_congr fun r _ ↦ ?_
  rw [Bool.eq_iff_iff]
  simp [mem_all]

end Role

theorem Host.sorted_of_ofJson? {v : Json} {h : Host} (hv : Host.ofJson? v = some h) :
    Role.sorted h.roles = h.roles := by
  simp only [Host.ofJson?, Option.bind_eq_bind, Option.bind_eq_some_iff] at hv
  obtain ⟨fields, -, hv⟩ := hv
  split at hv
  · simp only [Option.bind_eq_some_iff, Option.pure_def, Option.some.injEq] at hv
    obtain ⟨_, -, roles, -, _, -, _, -, _, -, rfl⟩ := hv
    exact Role.sorted_sorted roles
  · cases hv

end Rollout
