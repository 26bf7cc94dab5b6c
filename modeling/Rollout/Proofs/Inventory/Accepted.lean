import Mathlib.Data.List.Nodup
import Rollout.Inventory.Basic

namespace Rollout.Inventory

/-- The inventories that a run can be given: checked ones, and selections from them. -/
inductive Accepted : Inventory → Prop
  | new {hosts : List Host} {catalog : Catalog} {v : Inventory} :
      new hosts catalog = .ok v → Accepted v
  | select {v w : Inventory} {hosts : List String} {roles : List Role} :
      Accepted v → v.select hosts roles = .ok w → Accepted w

theorem nodup_of_flaw?_eq_none {catalog : Catalog} {seen : List String} {hosts : List Host}
    (h : flaw? catalog seen hosts = none) :
    (hosts.map Host.address).Nodup ∧ ∀ a ∈ hosts.map Host.address, a ∉ seen := by
  induction hosts generalizing seen with
  | nil => simp
  | cons g hosts ih =>
    simp only [flaw?] at h
    split at h
    · cases h
    · rename_i hflaw
      obtain ⟨hnodup, hfresh⟩ := ih h
      have hg : g.address ∉ seen := by
        intro hmem
        simp only [hostFlaw?, List.contains_iff_mem.mpr hmem, if_true] at hflaw
        split at hflaw <;> cases hflaw
      refine ⟨List.nodup_cons.mpr ⟨?_, hnodup⟩, ?_⟩
      · intro hmem
        exact hfresh _ hmem List.mem_cons_self
      · intro a ha hmem
        rcases List.mem_cons.mp ha with rfl | ha
        · exact hg hmem
        · exact hfresh a ha (List.mem_cons_of_mem _ hmem)

@[simp] theorem address_narrow (roles : List Role) (h : Host) :
    (narrow roles h).address = h.address := by
  unfold narrow
  split <;> rfl

theorem addresses_sublist_of_select {v w : Inventory} {hosts : List String} {roles : List Role}
    (h : v.select hosts roles = .ok w) : w.addresses.Sublist v.addresses := by
  unfold select at h
  split at h
  · cases h
  · cases h
    have hnarrow : Host.address ∘ narrow roles = Host.address := funext (address_narrow roles)
    refine (List.filter_sublist.map _).trans ?_
    rw [List.map_map, hnarrow]
    exact List.filter_sublist.map _

theorem Accepted.nodup_addresses {v : Inventory} (h : v.Accepted) : v.addresses.Nodup := by
  induction h with
  | @new hosts catalog v h =>
    unfold Inventory.new at h
    split at h
    · cases h
    · rename_i hflaw
      cases h
      exact (nodup_of_flaw?_eq_none hflaw).1
  | select _ hselect ih => exact ih.sublist (addresses_sublist_of_select hselect)

end Rollout.Inventory
