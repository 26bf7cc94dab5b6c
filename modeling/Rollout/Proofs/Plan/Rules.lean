import Rollout.Proofs.Inventory.Selected
import Rollout.Proofs.Plan.Expansion

namespace Rollout

/-- A selected host has the role of a rule, and no host has the role that it requires. -/
def Rule.Unmet (selected full : Inventory) (rule : Rule) : Prop :=
  (∃ h ∈ selected.hosts, rule.role ∈ h.roles) ∧ ∀ h ∈ full.hosts, rule.requiresRole ∉ h.roles

def Rule.unmetFault (rule : Rule) : Fault :=
  .plan ("role '" ++ rule.role.name ++ "' requires '" ++ rule.requiresStep ++ "' of role '" ++
    rule.requiresRole.name ++ "', but no host has role '" ++ rule.requiresRole.name ++ "'")

/-- The edges of a rule between slots, by their positions. -/
def Rule.Joins (rule : Rule) (xs : List Slot) (a b : Nat) : Prop :=
  ∃ y x, xs[a]? = some y ∧ xs[b]? = some x ∧ rule.Requires y ∧ rule.Targets x

def Rule.JoinsOn (rule : Rule) (xs : List Slot) (h : Host) (a b : Nat) : Prop :=
  ∃ y x, xs[a]? = some y ∧ xs[b]? = some x ∧ rule.Requires y ∧ rule.Targets x ∧ x.host = h.address

def Catalog.mounting : Catalog where
  retry := default
  steps?
    | .metadata => some [{ name := "format", kind := .command, command := some "mkfs" }]
    | .client => some [
        { name := "configure", kind := .push, localPath := some "a", remotePath := some "b" },
        { name := "mount", kind := .command, command := some "mount" }]
    | _ => none
  rules := [⟨.client, some "mount", .metadata, "format"⟩]

def Inventory.mounting : Inventory where
  hosts := [{ address := "mds", roles := [.metadata] },
    { address := "box", roles := [.metadata, .client] }, { address := "ws", roles := [.client] }]

theorem Catalog.new_mounting :
    new mounting.steps? mounting.rules mounting.retry = .ok mounting := rfl

theorem Inventory.new_mounting : new mounting.hosts .mounting = .ok mounting := rfl

namespace Plan

structure Adds (xs : List Slot) (E : Nat → Nat → Prop) (steps steps' : List Step) : Prop where
  laid : Laid xs steps'
  linked_iff : ∀ a b, Linked steps' a b ↔ Linked steps a b ∨ E a b

variable {xs : List Slot} {steps steps' steps'' : List Step} {E E' : Nat → Nat → Prop}

namespace Adds

theorem congr (h : Adds xs E steps steps') (hE : ∀ a b, E a b ↔ E' a b) :
    Adds xs E' steps steps' :=
  ⟨h.laid, fun a b ↦ (h.linked_iff a b).trans (or_congr_right (hE a b))⟩

theorem refl (h : Laid xs steps) (hE : ∀ a b, ¬ E a b) : Adds xs E steps steps :=
  ⟨h, fun a b ↦ by simp [hE a b]⟩

theorem trans (h : Adds xs E steps steps') (h' : Adds xs E' steps' steps'') :
    Adds xs (fun a b ↦ E a b ∨ E' a b) steps steps'' :=
  ⟨h'.laid, fun a b ↦ by rw [h'.linked_iff, h.linked_iff, or_assoc]⟩

end Adds

theorem getElem?_addPredecessor (target pred : Nat) (steps : List Step) (i : Nat) :
    (addPredecessor target pred steps)[i]? = (steps[i]?).map fun s ↦
      if i = target then { s with predecessors := insertId pred s.predecessors } else s := by
  rw [addPredecessor, List.getElem?_modify]
  by_cases h : target = i
  · simp [h]
  · simp [h, Ne.symm h]

theorem Laid.addPredecessor (h : Laid xs steps) {target : Nat} (htarget : target < xs.length)
    (pred : Nat) :
    Adds xs (fun a b ↦ a = pred ∧ b = target) steps (addPredecessor target pred steps) := by
  refine ⟨⟨?_, fun s hs ↦ ?_⟩, fun a b ↦ ?_⟩
  · rw [← h.bare_eq]
    refine List.ext_getElem? fun i ↦ ?_
    rw [List.getElem?_map, getElem?_addPredecessor, List.getElem?_map, Option.map_map]
    congr 1
    funext s
    simp only [Function.comp]
    split <;> rfl
  · obtain ⟨i, hi⟩ := List.mem_iff_getElem?.mp hs
    rw [getElem?_addPredecessor] at hi
    obtain ⟨t, ht, rfl⟩ := Option.map_eq_some_iff.mp hi
    have hincreasing := h.increasing t (List.mem_of_getElem? ht)
    split
    · exact pairwise_insertId hincreasing
    · exact hincreasing
  · obtain ⟨s, hs⟩ : ∃ s, steps[target]? = some s :=
      ⟨_, List.getElem?_eq_getElem (by rwa [h.length_eq])⟩
    simp only [Linked, getElem?_addPredecessor, Option.map_eq_some_iff]
    by_cases hb : b = target
    · subst hb
      simp only [hs, Option.some.injEq, exists_eq_left', if_true, mem_insertId, and_true]
      exact or_comm
    · simp [hb]

theorem foldlM_adds {α : Type} {f : List Step → α → Result (List Step)}
    {E : α → Nat → Nat → Prop} {l : List α}
    (h : ∀ a ∈ l, ∀ steps, Laid xs steps → ∃ steps', f steps a = .ok steps' ∧
      Adds xs (E a) steps steps')
    (hlaid : Laid xs steps) :
    ∃ steps', l.foldlM f steps = .ok steps' ∧
      Adds xs (fun i k ↦ ∃ a ∈ l, E a i k) steps steps' := by
  induction l generalizing steps with
  | nil => exact ⟨steps, rfl, .refl hlaid (by simp)⟩
  | cons a l ih =>
    obtain ⟨ha, hl⟩ := List.forall_mem_cons.mp h
    obtain ⟨steps₁, hok, hadds⟩ := ha steps hlaid
    obtain ⟨steps₂, hok', hadds'⟩ := ih hl hadds.laid
    refine ⟨steps₂, ?_, (hadds.trans hadds').congr (by simp)⟩
    rw [List.foldlM_cons, hok]
    exact hok'

/-- The steps of some hosts, with all edges between them and no others. -/
structure Drawn (catalog : Catalog) (hosts : List Host) (steps : List Step) : Prop where
  laid : Laid (slots catalog hosts) steps
  linked_iff : ∀ a b, Linked steps a b ↔ Edge catalog hosts a b

namespace Drawn

variable {catalog : Catalog} {hosts : List Host} (h : Drawn catalog hosts steps)
include h

theorem numbered : Numbered steps := h.laid.numbered

theorem inRange : InRange steps := by
  intro s hs a ha
  obtain ⟨b, hb⟩ := List.mem_iff_getElem?.mp hs
  obtain ⟨y, -, hy, -⟩ := (h.linked_iff a b).mp ⟨s, hb, ha⟩
  rw [h.laid.length_eq]
  exact (List.getElem?_eq_some_iff.mp hy).1

theorem nodup_predecessors : ∀ s ∈ steps, s.predecessors.Nodup :=
  fun s hs ↦ nodup_of_increasing (h.laid.increasing s hs)

theorem cyclic_iff : Cyclic steps ↔ ∃ a, Relation.TransGen (Edge catalog hosts) a a := by
  have hlinked : Linked steps = Edge catalog hosts :=
    funext fun a ↦ funext fun b ↦ propext (h.linked_iff a b)
  rw [Cyclic, hlinked]

theorem ofSteps_cases :
    (¬ ∃ a, Relation.TransGen (Edge catalog hosts) a a) ∧ (∃ p, ofSteps steps = .ok p) ∨
      (∃ a, Relation.TransGen (Edge catalog hosts) a a) ∧
        ∃ labels, ofSteps steps = .error (cycleFault labels) := by
  rw [← h.cyclic_iff]
  exact Plan.ofSteps_cases h.numbered h.inRange h.nodup_predecessors

end Drawn

theorem exists_withRole {catalog : Catalog} {selected : Inventory} {r : Role} {i : Nat} {x : Slot}
    (hx : (slots catalog selected.hosts)[i]? = some x) (hr : x.role = r) :
    ∃ h ∈ selected.withRole r, x.host = h.address := by
  obtain ⟨h, hh, hhost, hrole, -⟩ := mem_slots.mp (List.mem_of_getElem? hx)
  exact ⟨h, List.mem_filter.mpr ⟨hh, List.contains_iff_mem.mpr (hr ▸ hrole)⟩, hhost⟩

/-- What is known of a catalog, of an inventory that was checked against it, and of a selection from
that inventory. -/
structure Checked (catalog : Catalog) (full selected : Inventory) : Prop where
  valid : catalog.Valid
  nodup : (selected.hosts.map Host.address).Nodup
  sorted : ∀ h ∈ selected.hosts, Role.sorted h.roles = h.roles
  held : ∀ h ∈ selected.hosts, ∀ r ∈ h.roles, ∃ g ∈ full.hosts, r ∈ g.roles

theorem Checked.of_new {steps? : Role → Option (List Template)} {rules : List Rule}
    {retry : RetryPolicies} {catalog : Catalog} {hosts : List Host} {full selected : Inventory}
    (hcatalog : Catalog.new steps? rules retry = .ok catalog)
    (hfull : Inventory.new hosts catalog = .ok full)
    (hsorted : ∀ h ∈ hosts, Role.sorted h.roles = h.roles) (hsel : full.Selects selected) :
    Checked catalog full selected := by
  obtain ⟨hflaw, rfl⟩ := Inventory.new_eq_ok.mp hfull
  exact ⟨.of_new hcatalog, hsel.nodup_addresses (Inventory.nodup_of_flaw?_eq_none hflaw).1,
    hsel.sorted_roles hsorted, hsel.held⟩

namespace Checked

variable {catalog : Catalog} {full selected : Inventory} {rule : Rule} {h : Host}
variable (hc : Checked catalog full selected)
include hc

theorem apart : (slots catalog selected.hosts).Pairwise Slot.Apart := apart_slots hc.valid hc.nodup

theorem ruleTarget_eq_ok_iff (hlaid : Laid (slots catalog selected.hosts) steps) {host : String}
    {i : Nat} : ruleTarget rule steps host = .ok i ↔
      ∃ x, (slots catalog selected.hosts)[i]? = some x ∧ x.host = host ∧ rule.Targets x :=
  Plan.ruleTarget_eq_ok_iff hlaid hc.apart (chained_slots catalog selected.hosts)

theorem rulePrerequisite_eq_ok_iff (hlaid : Laid (slots catalog selected.hosts) steps)
    {host : String} {i : Nat} : rulePrerequisite rule steps host = .ok i ↔
      ∃ y, (slots catalog selected.hosts)[i]? = some y ∧ y.host = host ∧ rule.Requires y :=
  Plan.rulePrerequisite_eq_ok_iff hlaid hc.apart

theorem exists_target (hrule : rule ∈ catalog.rules) (hh : h ∈ selected.hosts)
    (hr : rule.role ∈ h.roles) : ∃ (i : Nat) (x : Slot),
      (slots catalog selected.hosts)[i]? = some x ∧ x.host = h.address ∧ rule.Targets x := by
  obtain ⟨dependent, -, hdependent, -, -, htarget⟩ := hc.valid.rules rule hrule
  have hsteps : catalog.stepsFor rule.role = dependent := by simp [Catalog.stepsFor, hdependent]
  unfold Rule.Targets
  cases hstep : rule.step with
  | some name =>
    rw [hstep] at htarget
    obtain ⟨t, ht, hname⟩ := htarget
    obtain ⟨k, hk⟩ := List.mem_iff_getElem?.mp (hsteps ▸ ht)
    obtain ⟨i, hi⟩ := exists_slot hh hr hk
    exact ⟨i, _, hi, rfl, rfl, hname⟩
  | none =>
    rw [hstep] at htarget
    obtain ⟨t, ht⟩ : ∃ t, (catalog.stepsFor rule.role)[0]? = some t :=
      ⟨_, List.getElem?_eq_getElem (List.length_pos_iff.mpr (hsteps ▸ htarget))⟩
    obtain ⟨i, hi⟩ := exists_slot hh hr ht
    exact ⟨i, _, hi, rfl, rfl, rfl⟩

theorem exists_required (hrule : rule ∈ catalog.rules) (hh : h ∈ selected.hosts)
    (hr : rule.requiresRole ∈ h.roles) : ∃ (i : Nat) (y : Slot),
      (slots catalog selected.hosts)[i]? = some y ∧ y.host = h.address ∧ rule.Requires y := by
  obtain ⟨-, prerequisite, -, hprerequisite, ⟨t, ht, hname⟩, -⟩ := hc.valid.rules rule hrule
  have hsteps : catalog.stepsFor rule.requiresRole = prerequisite := by
    simp [Catalog.stepsFor, hprerequisite]
  obtain ⟨k, hk⟩ := List.mem_iff_getElem?.mp (hsteps ▸ ht)
  obtain ⟨i, hi⟩ := exists_slot hh hr hk
  exact ⟨i, _, hi, rfl, rfl, hname⟩

theorem target_unique {a b : Nat} {x y : Slot} (hx : (slots catalog selected.hosts)[a]? = some x)
    (hy : (slots catalog selected.hosts)[b]? = some y) (hhost : x.host = y.host)
    (htarget : rule.Targets x) (htarget' : rule.Targets y) : a = b := by
  refine eq_of_apart hc.apart hx hy hhost (htarget.1.trans htarget'.1.symm) ?_
  have h := htarget.2
  have h' := htarget'.2
  cases hstep : rule.step with
  | some name =>
    simp only [hstep] at h h'
    exact .inr (h.trans h'.symm)
  | none =>
    simp only [hstep] at h h'
    exact .inl (h.trans h'.symm)

theorem required_unique {a b : Nat} {x y : Slot} (hx : (slots catalog selected.hosts)[a]? = some x)
    (hy : (slots catalog selected.hosts)[b]? = some y) (hhost : x.host = y.host)
    (hrequired : rule.Requires x) (hrequired' : rule.Requires y) : a = b :=
  eq_of_apart hc.apart hx hy hhost (hrequired.1.trans hrequired'.1.symm)
    (.inr (hrequired.2.trans hrequired'.2.symm))

theorem linkHost_adds (hrule : rule ∈ catalog.rules) (hh : h ∈ selected.withRole rule.role)
    (hlaid : Laid (slots catalog selected.hosts) steps) :
    ∃ steps', linkHost rule (selected.withRole rule.requiresRole) steps h = .ok steps' ∧
      Adds (slots catalog selected.hosts) (rule.JoinsOn (slots catalog selected.hosts) h)
        steps steps' := by
  obtain ⟨hmem, hr⟩ := List.mem_filter.mp hh
  obtain ⟨target, x, hx, hhost, htargets⟩ :=
    hc.exists_target hrule hmem (List.contains_iff_mem.mp hr)
  have htarget : ruleTarget rule steps h.address = .ok target :=
    (hc.ruleTarget_eq_ok_iff hlaid).mpr ⟨x, hx, hhost, htargets⟩
  -- each prerequisite adds the edge from its slot to the target
  have heach : ∀ g ∈ selected.withRole rule.requiresRole, ∀ steps,
      Laid (slots catalog selected.hosts) steps →
      ∃ steps', (do
          let pred ← rulePrerequisite rule steps g.address
          return addPredecessor target pred steps : Result (List Step)) = .ok steps' ∧
        Adds (slots catalog selected.hosts)
          (fun a b ↦ b = target ∧ ∃ y, (slots catalog selected.hosts)[a]? = some y ∧
            rule.Requires y ∧ y.host = g.address) steps steps' := by
    intro g hg steps hlaid
    obtain ⟨hmem', hr'⟩ := List.mem_filter.mp hg
    obtain ⟨pred, y, hy, hhost', hrequires⟩ :=
      hc.exists_required hrule hmem' (List.contains_iff_mem.mp hr')
    have hpred : rulePrerequisite rule steps g.address = .ok pred :=
      (hc.rulePrerequisite_eq_ok_iff hlaid).mpr ⟨y, hy, hhost', hrequires⟩
    refine ⟨addPredecessor target pred steps, by rw [hpred]; rfl,
      (hlaid.addPredecessor (List.getElem?_eq_some_iff.mp hx).1 pred).congr fun a b ↦ ?_⟩
    constructor
    · rintro ⟨rfl, rfl⟩
      exact ⟨rfl, y, hy, hrequires, hhost'⟩
    · rintro ⟨rfl, y', hy', hrequires', hhostY⟩
      exact ⟨hc.required_unique hy' hy (hhostY.trans hhost'.symm) hrequires' hrequires, rfl⟩
  obtain ⟨steps', hok, hadds⟩ := foldlM_adds heach hlaid
  refine ⟨steps', by rw [linkHost, htarget]; exact hok, hadds.congr fun a b ↦ ?_⟩
  constructor
  · rintro ⟨g, -, rfl, y, hy, hrequires, -⟩
    exact ⟨y, x, hy, hx, hrequires, htargets, hhost⟩
  · rintro ⟨y, x', hy, hx', hrequires, htargets', hhostX⟩
    obtain ⟨g, hg, hhostY⟩ := exists_withRole hy hrequires.1
    exact ⟨g, hg, hc.target_unique hx' hx (hhostX.trans hhost.symm) htargets' htargets, y, hy,
      hrequires, hhostY⟩

theorem applyRule_cases (hrule : rule ∈ catalog.rules)
    (hlaid : Laid (slots catalog selected.hosts) steps) :
    rule.Unmet selected full ∧ applyRule selected full steps rule = .error rule.unmetFault ∨
    ¬ rule.Unmet selected full ∧ ∃ steps', applyRule selected full steps rule = .ok steps' ∧
      Adds (slots catalog selected.hosts) (rule.Joins (slots catalog selected.hosts))
        steps steps' := by
  have hholds : ∀ (v : Inventory) (r : Role),
      (v.withRole r).isEmpty = true ↔ ∀ h ∈ v.hosts, r ∉ h.roles := by
    intro v r
    simp [Inventory.withRole, Host.hasRole]
  simp only [applyRule]
  by_cases hdependents : (selected.withRole rule.role).isEmpty = true
  · have hnone := (hholds ..).mp hdependents
    refine .inr ⟨fun hunmet ↦ ?_, steps, by rw [if_pos hdependents], .refl hlaid ?_⟩
    · obtain ⟨⟨h, hh, hr⟩, -⟩ := hunmet
      exact hnone h hh hr
    · rintro a b ⟨y, x, -, hx, -, htarget⟩
      obtain ⟨h, hh, -⟩ := exists_withRole hx htarget.1
      exact List.ne_nil_of_mem hh (List.isEmpty_iff.mp hdependents)
  rw [if_neg hdependents]
  by_cases hprerequisites : (selected.withRole rule.requiresRole).isEmpty = true
  · rw [if_pos hprerequisites]
    by_cases hfull : (full.withRole rule.requiresRole).isEmpty = true
    · rw [if_pos hfull]
      refine .inl ⟨⟨?_, (hholds ..).mp hfull⟩, rfl⟩
      simpa using (hholds ..).not.mp hdependents
    · rw [if_neg hfull]
      refine .inr ⟨fun hunmet ↦ hfull ((hholds ..).mpr hunmet.2), steps, rfl, .refl hlaid ?_⟩
      rintro a b ⟨y, x, hy, -, hrequired, -⟩
      obtain ⟨h, hh, -⟩ := exists_withRole hy hrequired.1
      exact List.ne_nil_of_mem hh (List.isEmpty_iff.mp hprerequisites)
  · rw [if_neg hprerequisites]
    have heach : ∀ h ∈ selected.withRole rule.role, ∀ steps,
        Laid (slots catalog selected.hosts) steps → _ := fun _ hh _ ↦ hc.linkHost_adds hrule hh
    obtain ⟨steps', hok, hadds⟩ := foldlM_adds heach hlaid
    refine .inr ⟨?_, steps', hok, hadds.congr fun a b ↦ ?_⟩
    · rintro ⟨-, hnone⟩
      refine hprerequisites ((hholds ..).mpr fun h hh hr ↦ ?_)
      obtain ⟨g, hg, hr'⟩ := hc.held h hh _ hr
      exact hnone g hg hr'
    · constructor
      · rintro ⟨h, -, y, x, hy, hx, hrequired, htarget, -⟩
        exact ⟨y, x, hy, hx, hrequired, htarget⟩
      · rintro ⟨y, x, hy, hx, hrequired, htarget⟩
        obtain ⟨h, hh, hhost⟩ := exists_withRole hx htarget.1
        exact ⟨h, hh, y, x, hy, hx, hrequired, htarget, hhost⟩

theorem foldlM_applyRule {rules : List Rule} (hrules : rules ⊆ catalog.rules)
    (hlaid : Laid (slots catalog selected.hosts) steps) :
    (∃ rule ∈ rules, rule.Unmet selected full ∧
      rules.foldlM (applyRule selected full) steps = .error rule.unmetFault) ∨
    (∀ rule ∈ rules, ¬ rule.Unmet selected full) ∧ ∃ steps',
      rules.foldlM (applyRule selected full) steps = .ok steps' ∧
      Adds (slots catalog selected.hosts)
        (fun a b ↦ ∃ rule ∈ rules, rule.Joins (slots catalog selected.hosts) a b)
        steps steps' := by
  induction rules generalizing steps with
  | nil => exact .inr ⟨by simp, steps, rfl, .refl hlaid (by simp)⟩
  | cons rule rules ih =>
    obtain ⟨hrule, hrest⟩ := List.cons_subset.mp hrules
    rw [List.foldlM_cons]
    rcases hc.applyRule_cases hrule hlaid with ⟨hunmet, herror⟩ | ⟨hmet, steps₁, hok, hadds⟩
    · rw [herror]
      exact .inl ⟨rule, List.mem_cons_self, hunmet, rfl⟩
    · rw [hok]
      rcases ih hrest hadds.laid with ⟨r, hr, hunmet, herror⟩ | ⟨hmets, steps₂, hok', hadds'⟩
      · exact .inl ⟨r, List.mem_cons_of_mem _ hr, hunmet, herror⟩
      · refine .inr ⟨List.forall_mem_cons.mpr ⟨hmet, hmets⟩, steps₂, hok', ?_⟩
        exact (hadds.trans hadds').congr (by simp)

theorem ofSelection_cases :
    (∃ rule ∈ catalog.rules, rule.Unmet selected full ∧
      ofSelection selected full catalog = .error rule.unmetFault) ∨
    (∀ rule ∈ catalog.rules, ¬ rule.Unmet selected full) ∧ ∃ steps,
      Drawn catalog selected.hosts steps ∧
      ofSelection selected full catalog = ofSteps steps := by
  rcases hc.foldlM_applyRule (List.Subset.refl _) (laid_expand hc.sorted) with
    ⟨rule, hrule, hunmet, herror⟩ | ⟨hmet, steps, hok, hadds⟩
  · exact .inl ⟨rule, hrule, hunmet, by rw [ofSelection, herror]; rfl⟩
  · refine .inr ⟨hmet, steps, ⟨hadds.laid, fun a b ↦ ?_⟩, by rw [ofSelection, hok]; rfl⟩
    rw [hadds.linked_iff, linked_expand hc.sorted hc.apart]
    constructor
    · rintro (⟨y, x, hy, hx, hbefore⟩ | ⟨rule, hrule, y, x, hy, hx, hrequires, htargets⟩)
      · exact ⟨y, x, hy, hx, .inl hbefore⟩
      · exact ⟨y, x, hy, hx, .inr ⟨rule, hrule, hrequires, htargets⟩⟩
    · rintro ⟨y, x, hy, hx, hbefore | ⟨rule, hrule, hrequires, htargets⟩⟩
      · exact .inl ⟨y, x, hy, hx, hbefore⟩
      · exact .inr ⟨rule, hrule, y, x, hy, hx, hrequires, htargets⟩

end Checked

end Plan

end Rollout
