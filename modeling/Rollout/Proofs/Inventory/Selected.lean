import Rollout.Proofs.Cluster.Role
import Rollout.Proofs.Inventory.Accepted

namespace Rollout

namespace Result

theorem bind_eq_ok {α β : Type} {x : Result α} {f : α → Result β} {b : β} :
    x >>= f = .ok b ↔ ∃ a, x = .ok a ∧ f a = .ok b := by
  cases x with
  | error e => simp [bind, Except.bind]
  | ok a => simp [bind, Except.bind]

theorem of_mem_mapM {α β : Type} {f : α → Result β} {l : List α} {m : List β}
    (h : l.mapM f = .ok m) {b : β} (hb : b ∈ m) : ∃ a ∈ l, f a = .ok b := by
  induction l generalizing m with
  | nil =>
    cases h
    cases hb
  | cons a l ih =>
    rw [List.mapM_cons] at h
    obtain ⟨c, hc, h⟩ := bind_eq_ok.mp h
    obtain ⟨n, hn, h⟩ := bind_eq_ok.mp h
    cases h
    rcases List.mem_cons.mp hb with rfl | hb
    · exact ⟨a, List.mem_cons_self, hc⟩
    · obtain ⟨d, hd, hf⟩ := ih hn hb
      exact ⟨d, List.mem_cons_of_mem a hd, hf⟩

end Result

namespace Inventory

/-- All of an inventory is selected, or what is asked for. -/
inductive Selects (full : Inventory) : Inventory → Prop
  | all : Selects full full
  | asked {addresses : List String} {roles : List Role} {selected : Inventory} :
      full.select addresses roles = .ok selected → Selects full selected

variable {catalog : Catalog} {v w : Inventory} {hosts : List Host} {addresses : List String}
  {roles : List Role} {h : Host}

theorem new_eq_ok : new hosts catalog = .ok v ↔ flaw? catalog [] hosts = none ∧ v = ⟨hosts⟩ := by
  unfold Inventory.new
  split
  · rename_i hflaw
    simp [hflaw]
  · rename_i hflaw
    simp [hflaw, eq_comm]

theorem hosts_of_select (hw : v.select addresses roles = .ok w) :
    w.hosts = ((v.hosts.filter fun h ↦ addresses.isEmpty || addresses.contains h.address).map
      (narrow roles)).filter fun h ↦ !h.roles.isEmpty := by
  unfold select at hw
  split at hw
  · cases hw
  · cases hw
    rfl

theorem roles_narrow (roles : List Role) (h : Host) :
    (narrow roles h).roles = h.roles.filter fun r ↦ roles.isEmpty || roles.contains r := by
  unfold narrow
  split
  · rename_i hnone
    simp [hnone]
  · rename_i hsome
    simp [hsome]

theorem mem_hosts_of_select (hw : v.select addresses roles = .ok w) (hh : h ∈ w.hosts) :
    ∃ g ∈ v.hosts, narrow roles g = h := by
  rw [hosts_of_select hw] at hh
  obtain ⟨g, hg, hgh⟩ := List.mem_map.mp (List.mem_filter.mp hh).1
  exact ⟨g, (List.mem_filter.mp hg).1, hgh⟩

namespace Selects

variable (hsel : v.Selects w)
include hsel

theorem nodup_addresses (hnodup : v.addresses.Nodup) : w.addresses.Nodup := by
  cases hsel with
  | all => exact hnodup
  | asked hw => exact hnodup.sublist (addresses_sublist_of_select hw)

theorem sorted_roles (hsorted : ∀ h ∈ v.hosts, Role.sorted h.roles = h.roles) :
    ∀ h ∈ w.hosts, Role.sorted h.roles = h.roles := by
  cases hsel with
  | all => exact hsorted
  | asked hw =>
    intro h hh
    obtain ⟨g, hg, rfl⟩ := mem_hosts_of_select hw hh
    rw [roles_narrow, Role.sorted_filter, hsorted g hg]

theorem held : ∀ h ∈ w.hosts, ∀ r ∈ h.roles, ∃ g ∈ v.hosts, r ∈ g.roles := by
  cases hsel with
  | all => exact fun h hh r hr ↦ ⟨h, hh, hr⟩
  | asked hw =>
    intro h hh r hr
    obtain ⟨g, hg, rfl⟩ := mem_hosts_of_select hw hh
    rw [roles_narrow] at hr
    exact ⟨g, hg, (List.mem_filter.mp hr).1⟩

end Selects

/-- The hosts of a file list their roles in order, each once. -/
theorem sorted_roles_of_read {s : String} (hread : read s catalog = .ok v) :
    ∀ h ∈ v.hosts, Role.sorted h.roles = h.roles := by
  unfold read at hread
  split at hread
  · rename_i es _
    obtain ⟨hosts, hresolved, hnew⟩ := Result.bind_eq_ok.mp hread
    obtain ⟨-, rfl⟩ := new_eq_ok.mp hnew
    intro h hh
    obtain ⟨e, -, he⟩ := Result.of_mem_mapM hresolved hh
    obtain ⟨rs, -, he⟩ := Result.bind_eq_ok.mp he
    cases he
    exact Role.sorted_sorted rs
  · cases hread

end Inventory

end Rollout
