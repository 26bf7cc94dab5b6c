import Mathlib.Logic.Relation
import Rollout.Plan.Expansion
import Rollout.Proofs.Catalog.Accepted

namespace Rollout

/-- A template of a role on a host, with its place among the templates of the role. -/
structure Slot where
  host : String
  role : Role
  place : Nat
  template : Template

/-- The slot of a rule on its host: the named one, or the first one of the role. -/
def Rule.Targets (rule : Rule) (x : Slot) : Prop :=
  x.role = rule.role ∧
    match rule.step with
    | some name => x.template.name = name
    | none => x.place = 0

def Rule.Requires (rule : Rule) (y : Slot) : Prop :=
  y.role = rule.requiresRole ∧ y.template.name = rule.requiresStep

namespace Slot

def IsJustBefore (y x : Slot) : Prop :=
  y.host = x.host ∧ y.role = x.role ∧ y.place + 1 = x.place

def Leads (rules : List Rule) (y x : Slot) : Prop :=
  y.IsJustBefore x ∨ ∃ rule ∈ rules, rule.Requires y ∧ rule.Targets x

/-- Slots that share a role on a host differ in place and name. -/
def Apart (x y : Slot) : Prop :=
  x.host = y.host → x.role = y.role → x.place ≠ y.place ∧ x.template.name ≠ y.template.name

end Slot

namespace Plan

def roleSlots (catalog : Catalog) (host : String) (r : Role) : List Slot :=
  (catalog.stepsFor r).zipIdx.map fun p ↦ ⟨host, r, p.2, p.1⟩

def hostSlots (catalog : Catalog) (h : Host) : List Slot :=
  (Role.sorted h.roles).flatMap (roleSlots catalog h.address)

/-- The slots of some hosts: host by host, the roles of a host in their order, the templates of a
role as the catalog lists them. -/
def slots (catalog : Catalog) (hosts : List Host) : List Slot := hosts.flatMap (hostSlots catalog)

def Edge (catalog : Catalog) (hosts : List Host) (a b : Nat) : Prop :=
  ∃ y x, (slots catalog hosts)[a]? = some y ∧ (slots catalog hosts)[b]? = some x ∧
    y.Leads catalog.rules x

variable {catalog : Catalog} {hosts : List Host} {xs ys : List Slot} {x y : Slot}

theorem mem_roleSlots {host : String} {r : Role} : x ∈ roleSlots catalog host r ↔
    x.host = host ∧ x.role = r ∧ (catalog.stepsFor r)[x.place]? = some x.template := by
  simp only [roleSlots, List.mem_map, Prod.exists, List.mk_mem_zipIdx_iff_getElem?]
  constructor
  · rintro ⟨t, k, ht, rfl⟩
    exact ⟨rfl, rfl, ht⟩
  · rintro ⟨rfl, rfl, ht⟩
    exact ⟨x.template, x.place, ht, rfl⟩

theorem mem_slots : x ∈ slots catalog hosts ↔ ∃ h ∈ hosts, x.host = h.address ∧ x.role ∈ h.roles ∧
    (catalog.stepsFor x.role)[x.place]? = some x.template := by
  simp only [slots, hostSlots, List.mem_flatMap, mem_roleSlots, Role.mem_sorted]
  constructor
  · rintro ⟨h, hh, r, hr, haddress, rfl, ht⟩
    exact ⟨h, hh, haddress, hr, ht⟩
  · rintro ⟨h, hh, haddress, hr, ht⟩
    exact ⟨h, hh, x.role, hr, haddress, rfl, ht⟩

theorem exists_slot {h : Host} (hh : h ∈ hosts) {r : Role} (hr : r ∈ h.roles) {k : Nat}
    {t : Template} (ht : (catalog.stepsFor r)[k]? = some t) :
    ∃ i : Nat, (slots catalog hosts)[i]? = some (⟨h.address, r, k, t⟩ : Slot) :=
  List.mem_iff_getElem?.mp (mem_slots.mpr ⟨h, hh, rfl, hr, ht⟩)

section Apart

theorem apart_roleSlots (hc : catalog.Valid) (host : String) (r : Role) :
    (roleSlots catalog host r).Pairwise Slot.Apart := by
  rw [roleSlots, List.pairwise_map, List.pairwise_iff_getElem]
  intro i k hi hk hlt _ _
  have hnames := List.pairwise_iff_getElem.mp (hc.nodup_names r) i k (by simpa using hi)
    (by simpa using hk) hlt
  simp only [List.getElem_map] at hnames
  simp only [List.getElem_zipIdx]
  exact ⟨by omega, hnames⟩

theorem apart_slots (hc : catalog.Valid) (hnodup : (hosts.map Host.address).Nodup) :
    (slots catalog hosts).Pairwise Slot.Apart := by
  rw [slots, List.pairwise_flatMap]
  constructor
  · intro h _
    rw [hostSlots, List.pairwise_flatMap]
    refine ⟨fun r _ ↦ apart_roleSlots hc h.address r, (Role.nodup_sorted h.roles).imp ?_⟩
    intro r r' hne x hx y hy _ hrole
    rw [(mem_roleSlots.mp hx).2.1, (mem_roleSlots.mp hy).2.1] at hrole
    exact absurd hrole hne
  · refine (List.pairwise_map.mp hnodup).imp ?_
    intro h g hne x hx y hy hhost _
    obtain ⟨r, -, hx⟩ := List.mem_flatMap.mp hx
    obtain ⟨r', -, hy⟩ := List.mem_flatMap.mp hy
    rw [(mem_roleSlots.mp hx).1, (mem_roleSlots.mp hy).1] at hhost
    exact absurd hhost hne

theorem eq_of_apart (hapart : xs.Pairwise Slot.Apart) {a b : Nat} (hx : xs[a]? = some x)
    (hy : xs[b]? = some y) (hhost : x.host = y.host) (hrole : x.role = y.role)
    (h : x.place = y.place ∨ x.template.name = y.template.name) : a = b := by
  have hdistinct : ∀ {a b : Nat} {x y : Slot}, xs[a]? = some x → xs[b]? = some y → a < b →
      x.Apart y := by
    intro a b x y hx hy hlt
    obtain ⟨ha, rfl⟩ := List.getElem?_eq_some_iff.mp hx
    obtain ⟨hb, rfl⟩ := List.getElem?_eq_some_iff.mp hy
    exact List.pairwise_iff_getElem.mp hapart a b ha hb hlt
  rcases Nat.lt_trichotomy a b with hlt | heq | hlt
  · obtain ⟨hplace, hname⟩ := hdistinct hx hy hlt hhost hrole
    exact absurd h (not_or.mpr ⟨hplace, hname⟩)
  · exact heq
  · obtain ⟨hplace, hname⟩ := hdistinct hy hx hlt hhost.symm hrole.symm
    exact absurd h (not_or.mpr ⟨hplace.symm, hname.symm⟩)

end Apart

section Chained

def Chained (xs : List Slot) : Prop :=
  ∀ i x, xs[i]? = some x → x.place ≠ 0 → ∃ k y, k + 1 = i ∧ xs[k]? = some y ∧ y.IsJustBefore x

theorem Chained.append (hxs : Chained xs) (hys : Chained ys) : Chained (xs ++ ys) := by
  intro i x hx hplace
  by_cases hi : i < xs.length
  · rw [List.getElem?_append_left hi] at hx
    obtain ⟨k, y, rfl, hy, hbefore⟩ := hxs i x hx hplace
    exact ⟨k, y, rfl, by rwa [List.getElem?_append_left (by omega)], hbefore⟩
  · rw [List.getElem?_append_right (by omega)] at hx
    obtain ⟨k, y, hk, hy, hbefore⟩ := hys _ x hx hplace
    refine ⟨xs.length + k, y, by omega, ?_, hbefore⟩
    rwa [List.getElem?_append_right (by omega), Nat.add_sub_cancel_left]

theorem chained_flatMap {α : Type} {f : α → List Slot} {l : List α}
    (h : ∀ a ∈ l, Chained (f a)) : Chained (l.flatMap f) := by
  induction l with
  | nil => intro i x hx; simp at hx
  | cons a l ih =>
    obtain ⟨ha, hl⟩ := List.forall_mem_cons.mp h
    exact ha.append (ih hl)

theorem chained_roleSlots (host : String) (r : Role) : Chained (roleSlots catalog host r) := by
  intro i x hx hplace
  simp only [roleSlots, List.getElem?_map, List.getElem?_zipIdx, Option.map_map,
    Option.map_eq_some_iff, Function.comp] at hx
  obtain ⟨t, ht, rfl⟩ := hx
  obtain ⟨k, rfl⟩ : ∃ k, i = k + 1 := Nat.exists_eq_succ_of_ne_zero (by simpa using hplace)
  obtain ⟨u, hu⟩ : ∃ u, (catalog.stepsFor r)[k]? = some u :=
    ⟨_, List.getElem?_eq_getElem (by have := (List.getElem?_eq_some_iff.mp ht).1; omega)⟩
  refine ⟨k, ⟨host, r, k, u⟩, rfl, ?_, rfl, rfl, by simp⟩
  simp [roleSlots, hu]

theorem chained_slots (catalog : Catalog) (hosts : List Host) : Chained (slots catalog hosts) :=
  chained_flatMap fun h _ ↦ chained_flatMap fun r _ ↦ chained_roleSlots h.address r

end Chained

end Plan

end Rollout
