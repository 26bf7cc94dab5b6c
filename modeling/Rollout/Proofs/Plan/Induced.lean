import Rollout.Proofs.Plan.Rules

namespace Rollout

def Inventory.asksFor (addresses : List String) (roles : List Role) (host : String) (r : Role) :
    Bool :=
  (addresses.isEmpty || addresses.contains host) && (roles.isEmpty || roles.contains r)

def Slot.isAskedFor (addresses : List String) (roles : List Role) (x : Slot) : Bool :=
  Inventory.asksFor addresses roles x.host x.role

def Step.isAskedFor (addresses : List String) (roles : List Role) (s : Step) : Bool :=
  Inventory.asksFor addresses roles s.host s.role

def Step.content (s : Step) : Step := { s with id := 0, predecessors := [] }

namespace Plan

/-- A plan has just those steps of another one that are kept, in the same order, with all edges
between them. -/
structure Induced (p whole : Plan) (keep : Step → Bool) : Prop where
  content_eq : p.steps.map Step.content = (whole.steps.filter keep).map Step.content
  numbered : ∀ i s, p.step? i = some s → s.id = i
  precedes_iff : ∀ (a b : Nat) s t, (whole.steps.filter keep)[a]? = some s →
    (whole.steps.filter keep)[b]? = some t → (p.Precedes a b ↔ whole.Precedes s.id t.id)

variable {catalog : Catalog} {full selected : Inventory} {addresses : List String}
  {roles : List Role}

section Slots

theorem flatMap_filter {α β : Type} (q : α → Bool) (f : α → List β) (l : List α) :
    (l.filter q).flatMap f = l.flatMap fun a ↦ if q a then f a else [] := by
  induction l with
  | nil => rfl
  | cons a l ih => by_cases h : q a = true <;> simp [h, ih]

theorem filter_roleSlots (host : String) (r : Role) :
    (roleSlots catalog host r).filter (Slot.isAskedFor addresses roles) =
      if Inventory.asksFor addresses roles host r then roleSlots catalog host r else [] := by
  have hconst : ∀ x ∈ roleSlots catalog host r,
      x.isAskedFor addresses roles = Inventory.asksFor addresses roles host r := by
    intro x hx
    obtain ⟨rfl, rfl, -⟩ := mem_roleSlots.mp hx
    rfl
  rw [List.filter_congr hconst]
  split
  · rename_i h
    simp [h]
  · rename_i h
    simp [h]

theorem filter_hostSlots (h : Host) :
    (hostSlots catalog h).filter (Slot.isAskedFor addresses roles) =
      if addresses.isEmpty || addresses.contains h.address then
        hostSlots catalog (Inventory.narrow roles h)
      else [] := by
  simp only [hostSlots, List.filter_flatMap, filter_roleSlots, Inventory.address_narrow,
    Inventory.roles_narrow, Role.sorted_filter, flatMap_filter]
  cases hasked : addresses.isEmpty || addresses.contains h.address with
  | true => simp only [Inventory.asksFor, hasked, Bool.true_and, if_true]
  | false =>
    simp only [Inventory.asksFor, hasked, Bool.false_and, Bool.false_eq_true, if_false]
    exact List.flatMap_eq_nil_iff.mpr fun _ _ ↦ rfl

theorem slots_filter_roles (hosts : List Host) :
    slots catalog (hosts.filter fun h ↦ !h.roles.isEmpty) = slots catalog hosts := by
  rw [slots, flatMap_filter]
  refine List.flatMap_congr fun h _ ↦ ?_
  split
  · rfl
  · rename_i hnone
    have hroles : h.roles = [] := by simpa using hnone
    simp [hostSlots, hroles, Role.sorted]

theorem slots_select (hsel : full.select addresses roles = .ok selected) :
    slots catalog selected.hosts =
      (slots catalog full.hosts).filter (Slot.isAskedFor addresses roles) := by
  rw [Inventory.hosts_of_select hsel, slots_filter_roles]
  simp only [slots, List.flatMap_map, flatMap_filter, List.filter_flatMap, filter_hostSlots]

theorem edge_iff {hosts : List Host} {a b : Nat} {x y : Slot}
    (hy : (slots catalog hosts)[a]? = some y) (hx : (slots catalog hosts)[b]? = some x) :
    Edge catalog hosts a b ↔ y.Leads catalog.rules x := by
  constructor
  · rintro ⟨y', x', hy', hx', hleads⟩
    cases hy.symm.trans hy'
    cases hx.symm.trans hx'
    exact hleads
  · exact fun hleads ↦ ⟨y, x, hy, hx, hleads⟩

def places (catalog : Catalog) (full : Inventory) (addresses : List String) (roles : List Role) :
    List (Slot × Nat) :=
  (slots catalog full.hosts).zipIdx.filter fun p ↦ p.1.isAskedFor addresses roles

theorem map_fst_places (hsel : full.select addresses roles = .ok selected) :
    (places catalog full addresses roles).map Prod.fst = slots catalog selected.hosts := by
  rw [slots_select hsel, ← List.zipIdx_map_fst 0 (slots catalog full.hosts), List.filter_map]
  rfl

section Places

variable (hsel : full.select addresses roles = .ok selected) {a b : Nat} {p q : Slot × Nat}
include hsel

theorem getElem?_of_places (hp : (places catalog full addresses roles)[a]? = some p) :
    (slots catalog selected.hosts)[a]? = some p.1 ∧
      (slots catalog full.hosts)[p.2]? = some p.1 := by
  constructor
  · rw [← map_fst_places hsel, List.getElem?_map, hp, Option.map_some]
  · exact List.mem_zipIdx_iff_getElem?.mp (List.mem_filter.mp (List.mem_of_getElem? hp)).1

theorem edge_places_iff (hq : (places catalog full addresses roles)[a]? = some q)
    (hp : (places catalog full addresses roles)[b]? = some p) :
    Edge catalog selected.hosts a b ↔ Edge catalog full.hosts q.2 p.2 := by
  obtain ⟨hqs, hqf⟩ := getElem?_of_places hsel hq
  obtain ⟨hps, hpf⟩ := getElem?_of_places hsel hp
  rw [edge_iff hqs hps, edge_iff hqf hpf]

theorem exists_cycle_of_places (h : Relation.TransGen (Edge catalog selected.hosts) a a) :
    ∃ c, Relation.TransGen (Edge catalog full.hosts) c c := by
  let place (i : Nat) : Nat := (((places catalog full addresses roles)[i]?).map Prod.snd).getD 0
  refine ⟨place a, h.lift place fun i k hik ↦ ?_⟩
  have hplace : ∀ i x, (slots catalog selected.hosts)[i]? = some x →
      ∃ q, (places catalog full addresses roles)[i]? = some q ∧ place i = q.2 := by
    intro i x hx
    rw [← map_fst_places hsel, List.getElem?_map] at hx
    obtain ⟨q, hq, -⟩ := Option.map_eq_some_iff.mp hx
    exact ⟨q, hq, by simp [place, hq]⟩
  obtain ⟨y, x, hy, hx, -⟩ := id hik
  obtain ⟨q, hq, hqi⟩ := hplace i y hy
  obtain ⟨p, hp, hpk⟩ := hplace k x hx
  show Edge catalog full.hosts (place i) (place k)
  rw [hqi, hpk]
  exact (edge_places_iff hsel hq hp).mp hik

end Places

end Slots

section Kept

variable {steps : List Step}

theorem filter_bare (addresses : List String) (roles : List Role)
    (hlaid : Laid (slots catalog full.hosts) steps) :
    (steps.filter (Step.isAskedFor addresses roles)).map Step.bare =
      (places catalog full addresses roles).map fun p ↦ p.1.step p.2 [] := by
  have hfilter := congrArg (List.filter (Step.isAskedFor addresses roles)) hlaid.bare_eq
  rw [List.filter_map, List.filter_map] at hfilter
  exact hfilter

theorem content_eq_of_laid (hsel : full.select addresses roles = .ok selected)
    {selectedSteps : List Step} (hlaid : Laid (slots catalog full.hosts) steps)
    (hlaid' : Laid (slots catalog selected.hosts) selectedSteps) :
    selectedSteps.map Step.content =
      (steps.filter (Step.isAskedFor addresses roles)).map Step.content := by
  have hbare : ∀ l : List Step, l.map Step.content = (l.map Step.bare).map Step.content := by
    intro l
    rw [List.map_map]
    rfl
  -- contents do not depend on positions
  calc selectedSteps.map Step.content
    _ = ((slots catalog selected.hosts).zipIdx.map Prod.fst).map
        (Step.content ∘ fun x ↦ x.step 0 []) := by
      rw [hbare, hlaid'.bare_eq, List.map_map, List.map_map]
      rfl
    _ = ((places catalog full addresses roles).map Prod.fst).map
        (Step.content ∘ fun x ↦ x.step 0 []) := by
      rw [List.zipIdx_map_fst, map_fst_places hsel]
    _ = (steps.filter (Step.isAskedFor addresses roles)).map Step.content := by
      rw [hbare, filter_bare addresses roles hlaid, List.map_map, List.map_map]
      rfl

theorem exists_place (hlaid : Laid (slots catalog full.hosts) steps) {a : Nat} {s : Step}
    (hs : (steps.filter (Step.isAskedFor addresses roles))[a]? = some s) :
    ∃ q, (places catalog full addresses roles)[a]? = some q ∧ s.id = q.2 := by
  have hbare := congrArg (fun l : List Step ↦ l[a]?) (filter_bare addresses roles hlaid)
  simp only [List.getElem?_map, hs, Option.map_some] at hbare
  obtain ⟨q, hq, hqs⟩ := Option.map_eq_some_iff.mp hbare.symm
  exact ⟨q, hq, (congrArg Step.id hqs :).symm⟩

theorem induced_of_drawn (hsel : full.select addresses roles = .ok selected) {p whole : Plan}
    (hwhole : Drawn catalog full.hosts whole.steps) (hp : Drawn catalog selected.hosts p.steps) :
    p.Induced whole (Step.isAskedFor addresses roles) := by
  refine ⟨content_eq_of_laid hsel hwhole.laid hp.laid, hp.numbered, fun a b s t hs ht ↦ ?_⟩
  obtain ⟨q, hq, hqs⟩ := exists_place hwhole.laid hs
  obtain ⟨r, hr, hrt⟩ := exists_place hwhole.laid ht
  calc p.Precedes a b
    _ ↔ Edge catalog selected.hosts a b := hp.linked_iff a b
    _ ↔ Edge catalog full.hosts s.id t.id := by rw [hqs, hrt, edge_places_iff hsel hq hr]
    _ ↔ whole.Precedes s.id t.id := (hwhole.linked_iff s.id t.id).symm

theorem isAskedFor_iff (hsel : full.select addresses roles = .ok selected)
    (hlaid : Laid (slots catalog full.hosts) steps) {s : Step} (hs : s ∈ steps) :
    s.isAskedFor addresses roles = true ↔
      ∃ h ∈ selected.hosts, h.address = s.host ∧ s.role ∈ h.roles := by
  obtain ⟨i, hi⟩ := List.mem_iff_getElem?.mp hs
  obtain ⟨x, hx, hbare⟩ := hlaid.exists_slot hi
  have hhost : s.host = x.host := (congrArg Step.host hbare :)
  have hrole : s.role = x.role := (congrArg Step.role hbare :)
  have hmem := List.mem_of_getElem? hx
  obtain ⟨-, -, -, -, ht⟩ := mem_slots.mp hmem
  have hkept : x.isAskedFor addresses roles = true ↔ x ∈ slots catalog selected.hosts := by
    simp [slots_select hsel, hmem]
  rw [Step.isAskedFor, hhost, hrole, ← Slot.isAskedFor, hkept, mem_slots]
  simp only [ht, and_true, eq_comm]

end Kept

/-- The plan of a selection exists if that of the inventory does, and is the part of it that is
asked for. -/
theorem induced_of_select {steps? : Role → Option (List Template)} {rules : List Rule}
    {retry : RetryPolicies} {hosts : List Host} {whole : Plan}
    (hcatalog : Catalog.new steps? rules retry = .ok catalog)
    (hfull : Inventory.new hosts catalog = .ok full)
    (hsorted : ∀ h ∈ hosts, Role.sorted h.roles = h.roles)
    (hsel : full.select addresses roles = .ok selected)
    (hwhole : ofInventory full catalog = .ok whole) :
    ∃ p, ofSelection selected full catalog = .ok p ∧
      p.Induced whole (Step.isAskedFor addresses roles) ∧
      ∀ s ∈ whole.steps, s.isAskedFor addresses roles = true ↔
        ∃ h ∈ selected.hosts, h.address = s.host ∧ s.role ∈ h.roles := by
  have hc := Checked.of_new hcatalog hfull hsorted .all
  have hc' := Checked.of_new hcatalog hfull hsorted (.asked hsel)
  rcases hc.ofSelection_cases with ⟨rule, -, -, herror⟩ | ⟨hmet, steps, hdrawn, hsteps⟩
  · cases herror.symm.trans hwhole
  have hok := hsteps.symm.trans hwhole
  -- what keeps the plan of the selection from being made would have kept that of the inventory
  rcases hc'.ofSelection_cases with ⟨rule, hrule, hunmet, -⟩ | ⟨-, steps', hdrawn', hsteps'⟩
  · obtain ⟨⟨h, hh, hr⟩, hnone⟩ := hunmet
    obtain ⟨g, hg, hr'⟩ := hc'.held h hh _ hr
    exact absurd ⟨⟨g, hg, hr'⟩, hnone⟩ (hmet rule hrule)
  rcases hdrawn'.ofSteps_cases with ⟨-, p, hp⟩ | ⟨⟨a, ha⟩, -⟩
  · obtain ⟨-, -, -, rfl⟩ := ofSteps_eq_ok hok
    refine ⟨p, hsteps'.trans hp, ?_, fun s hs ↦ isAskedFor_iff hsel hdrawn.laid hs⟩
    obtain ⟨-, -, -, rfl⟩ := ofSteps_eq_ok hp
    exact induced_of_drawn hsel hdrawn hdrawn'
  · obtain ⟨c, hc⟩ := exists_cycle_of_places hsel ha
    rcases hdrawn.ofSteps_cases with ⟨hacyclic, -⟩ | ⟨-, labels, herror⟩
    · exact absurd ⟨c, hc⟩ hacyclic
    · cases herror.symm.trans hok

theorem induced_mounting : ∃ selected whole,
    Inventory.mounting.select ["ws"] [] = .ok selected ∧
    ofInventory .mounting .mounting = .ok whole ∧
    ∃ p, ofSelection selected .mounting .mounting = .ok p ∧
      p.Induced whole (Step.isAskedFor ["ws"] []) ∧
      ∀ s ∈ whole.steps, s.isAskedFor ["ws"] [] = true ↔
        ∃ h ∈ selected.hosts, h.address = s.host ∧ s.role ∈ h.roles :=
  ⟨_, _, rfl, rfl,
    induced_of_select Catalog.new_mounting Inventory.new_mounting (by decide) rfl rfl⟩

end Plan

end Rollout
