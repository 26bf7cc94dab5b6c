import Rollout.Proofs.Plan.Rules

namespace Rollout.Plan

/-- Steps as they stand while rules are applied to them, some edges of some rules having been
added. -/
inductive Linking (catalog : Catalog) (selected : Inventory) : List Step → Prop
  | expanded : Linking catalog selected (expand catalog 0 selected.hosts)
  | linked {steps : List Step} {rule : Rule} {h g : Host} {target pred : Nat} :
      Linking catalog selected steps → rule ∈ catalog.rules → h ∈ selected.withRole rule.role →
      g ∈ selected.withRole rule.requiresRole → ruleTarget rule steps h.address = .ok target →
      rulePrerequisite rule steps g.address = .ok pred →
      Linking catalog selected (addPredecessor target pred steps)

/-- Making a plan fails for an unmet rule or a cycle and for nothing else. -/
structure FailsOnly (catalog : Catalog) (full selected : Inventory) : Prop where
  fails_iff : (∃ e, ofSelection selected full catalog = .error e) ↔
    (∃ rule ∈ catalog.rules, rule.Unmet selected full) ∨
      ∃ a, Relation.TransGen (Edge catalog selected.hosts) a a
  fault : ∀ e, ofSelection selected full catalog = .error e →
    (∃ rule ∈ catalog.rules, rule.Unmet selected full ∧ e = rule.unmetFault) ∨
      (∃ a, Relation.TransGen (Edge catalog selected.hosts) a a) ∧ ∃ labels, e = cycleFault labels
  linking : ∀ rules ⊆ catalog.rules, ∀ steps, rules.foldlM (applyRule selected full)
    (expand catalog 0 selected.hosts) = .ok steps → Linking catalog selected steps
  target : ∀ steps, Linking catalog selected steps → ∀ rule ∈ catalog.rules,
    ∀ h ∈ selected.withRole rule.role, ∃ i < steps.length, ruleTarget rule steps h.address = .ok i
  prerequisite : ∀ steps, Linking catalog selected steps → ∀ rule ∈ catalog.rules,
    ∀ g ∈ selected.withRole rule.requiresRole,
      ∃ i < steps.length, rulePrerequisite rule steps g.address = .ok i
  numbers : ∀ steps, Linking catalog selected steps → numbersFlaw? steps = none

theorem of_foldlM_eq_ok {α β : Type} {f : β → α → Result β} {P : β → Prop} {l : List α} {b c : β}
    (hstep : ∀ a ∈ l, ∀ b c, P b → f b a = .ok c → P c) (hb : P b) (h : l.foldlM f b = .ok c) :
    P c := by
  induction l generalizing b with
  | nil =>
    cases h
    exact hb
  | cons a l ih =>
    rw [List.foldlM_cons] at h
    obtain ⟨d, hd, h⟩ := Result.bind_eq_ok.mp h
    obtain ⟨ha, hl⟩ := List.forall_mem_cons.mp hstep
    exact ih hl (ha b d hb hd) h

theorem of_applyRule_eq_ok {selected full : Inventory} {rule : Rule} {steps steps' : List Step}
    {P : List Step → Prop} (hlink : ∀ h ∈ selected.withRole rule.role, ∀ before after, P before →
      linkHost rule (selected.withRole rule.requiresRole) before h = .ok after → P after)
    (hsteps : P steps) (hok : applyRule selected full steps rule = .ok steps') : P steps' := by
  simp only [applyRule] at hok
  split at hok
  · cases hok
    exact hsteps
  · split at hok
    · split at hok
      · cases hok
      · cases hok
        exact hsteps
    · exact of_foldlM_eq_ok hlink hsteps hok

namespace Checked

variable {catalog : Catalog} {full selected : Inventory} {steps steps' : List Step} {rule : Rule}
variable (hc : Checked catalog full selected)
include hc

section Lookup

variable (hlaid : Laid (slots catalog selected.hosts) steps)
include hlaid

theorem ruleTarget_eq_ok {h : Host} (hrule : rule ∈ catalog.rules)
    (hh : h ∈ selected.withRole rule.role) :
    ∃ i < steps.length, ruleTarget rule steps h.address = .ok i := by
  obtain ⟨hmem, hr⟩ := List.mem_filter.mp hh
  obtain ⟨i, x, hx, hhost, htargets⟩ := hc.exists_target hrule hmem (List.contains_iff_mem.mp hr)
  refine ⟨i, hlaid.length_eq ▸ (List.getElem?_eq_some_iff.mp hx).1, ?_⟩
  exact (hc.ruleTarget_eq_ok_iff hlaid).mpr ⟨x, hx, hhost, htargets⟩

theorem rulePrerequisite_eq_ok {g : Host} (hrule : rule ∈ catalog.rules)
    (hg : g ∈ selected.withRole rule.requiresRole) :
    ∃ i < steps.length, rulePrerequisite rule steps g.address = .ok i := by
  obtain ⟨hmem, hr⟩ := List.mem_filter.mp hg
  obtain ⟨i, y, hy, hhost, hrequires⟩ :=
    hc.exists_required hrule hmem (List.contains_iff_mem.mp hr)
  refine ⟨i, hlaid.length_eq ▸ (List.getElem?_eq_some_iff.mp hy).1, ?_⟩
  exact (hc.rulePrerequisite_eq_ok_iff hlaid).mpr ⟨y, hy, hhost, hrequires⟩

end Lookup

theorem laid_of_linking (h : Linking catalog selected steps) :
    Laid (slots catalog selected.hosts) steps := by
  induction h with
  | expanded => exact laid_expand hc.sorted
  | linked _ _ _ _ htarget _ ih =>
    obtain ⟨x, hx, -⟩ := (hc.ruleTarget_eq_ok_iff ih).mp htarget
    exact (ih.addPredecessor (List.getElem?_eq_some_iff.mp hx).1 _).laid

theorem inRange_of_linking (h : Linking catalog selected steps) : InRange steps := by
  have hlt : ∀ a b, Linked steps a b → a < (slots catalog selected.hosts).length := by
    induction h with
    | expanded =>
      intro a b hlinked
      obtain ⟨y, -, hy, -⟩ := (linked_expand hc.sorted hc.apart).mp hlinked
      exact (List.getElem?_eq_some_iff.mp hy).1
    | linked hsteps _ _ _ htarget hpred ih =>
      have hlaid := hc.laid_of_linking hsteps
      obtain ⟨x, hx, -⟩ := (hc.ruleTarget_eq_ok_iff hlaid).mp htarget
      obtain ⟨y, hy, -⟩ := (hc.rulePrerequisite_eq_ok_iff hlaid).mp hpred
      intro a b hlinked
      rcases ((hlaid.addPredecessor (List.getElem?_eq_some_iff.mp hx).1 _).linked_iff a b).mp
        hlinked with hold | ⟨rfl, -⟩
      · exact ih a b hold
      · exact (List.getElem?_eq_some_iff.mp hy).1
  intro s hs a ha
  obtain ⟨b, hb⟩ := List.mem_iff_getElem?.mp hs
  rw [(hc.laid_of_linking h).length_eq]
  exact hlt a b ⟨s, hb, ha⟩

theorem linking_linkHost {h : Host} (hlinking : Linking catalog selected steps)
    (hrule : rule ∈ catalog.rules) (hh : h ∈ selected.withRole rule.role)
    (hok : linkHost rule (selected.withRole rule.requiresRole) steps h = .ok steps') :
    Linking catalog selected steps' := by
  obtain ⟨target, htarget, hok⟩ := Result.bind_eq_ok.mp hok
  -- the target is looked up once, and is the same after every edge
  refine (of_foldlM_eq_ok (P := fun steps ↦ Linking catalog selected steps ∧
    ruleTarget rule steps h.address = .ok target) ?_ ⟨hlinking, htarget⟩ hok).1
  rintro g hg before after ⟨hbefore, htarget⟩ hok
  obtain ⟨pred, hpred, hok⟩ := Result.bind_eq_ok.mp hok
  cases hok
  have hafter := hbefore.linked hrule hh hg htarget hpred
  refine ⟨hafter, ?_⟩
  rw [hc.ruleTarget_eq_ok_iff (hc.laid_of_linking hbefore)] at htarget
  rwa [hc.ruleTarget_eq_ok_iff (hc.laid_of_linking hafter)]

theorem linking_applyRule (hlinking : Linking catalog selected steps)
    (hrule : rule ∈ catalog.rules) (hok : applyRule selected full steps rule = .ok steps') :
    Linking catalog selected steps' := by
  refine of_applyRule_eq_ok (fun h hh before after hbefore hok ↦ ?_) hlinking hok
  exact hc.linking_linkHost hbefore hrule hh hok

theorem exists_error_iff : (∃ e, ofSelection selected full catalog = .error e) ↔
    (∃ rule ∈ catalog.rules, rule.Unmet selected full) ∨
      ∃ a, Relation.TransGen (Edge catalog selected.hosts) a a := by
  rcases hc.ofSelection_cases with ⟨rule, hrule, hunmet, herror⟩ | ⟨hmet, steps, hdrawn, hsteps⟩
  · exact ⟨fun _ ↦ .inl ⟨rule, hrule, hunmet⟩, fun _ ↦ ⟨_, herror⟩⟩
  · rw [hsteps]
    rcases hdrawn.ofSteps_cases with ⟨hacyclic, p, hp⟩ | ⟨hcyclic, labels, herror⟩
    · constructor
      · rintro ⟨e, he⟩
        cases hp.symm.trans he
      · rintro (⟨rule, hrule, hunmet⟩ | hcyclic)
        · exact absurd hunmet (hmet rule hrule)
        · exact absurd hcyclic hacyclic
    · exact ⟨fun _ ↦ .inr hcyclic, fun _ ↦ ⟨_, herror⟩⟩

theorem fault_of_error {e : Fault} (he : ofSelection selected full catalog = .error e) :
    (∃ rule ∈ catalog.rules, rule.Unmet selected full ∧ e = rule.unmetFault) ∨
      (∃ a, Relation.TransGen (Edge catalog selected.hosts) a a) ∧
        ∃ labels, e = cycleFault labels := by
  rcases hc.ofSelection_cases with ⟨rule, hrule, hunmet, herror⟩ | ⟨-, steps, hdrawn, hsteps⟩
  · cases herror.symm.trans he
    exact .inl ⟨rule, hrule, hunmet, rfl⟩
  · rw [hsteps] at he
    rcases hdrawn.ofSteps_cases with ⟨-, p, hp⟩ | ⟨hcyclic, labels, herror⟩
    · cases hp.symm.trans he
    · cases herror.symm.trans he
      exact .inr ⟨hcyclic, labels, rfl⟩

end Checked

/-- Making a plan from checked hosts and a checked catalog fails in two ways only. -/
theorem failsOnly_of_new {steps? : Role → Option (List Template)} {rules : List Rule}
    {retry : RetryPolicies} {catalog : Catalog} {hosts : List Host} {full selected : Inventory}
    (hcatalog : Catalog.new steps? rules retry = .ok catalog)
    (hfull : Inventory.new hosts catalog = .ok full)
    (hsorted : ∀ h ∈ hosts, Role.sorted h.roles = h.roles) (hsel : full.Selects selected) :
    FailsOnly catalog full selected := by
  have hc := Checked.of_new hcatalog hfull hsorted hsel
  have hlaid {steps : List Step} (h : Linking catalog selected steps) := hc.laid_of_linking h
  refine ⟨hc.exists_error_iff, fun e ↦ hc.fault_of_error, fun rules hrules steps hok ↦ ?_,
    fun steps h rule hrule g hg ↦ hc.ruleTarget_eq_ok (hlaid h) hrule hg,
    fun steps h rule hrule g hg ↦ hc.rulePrerequisite_eq_ok (hlaid h) hrule hg, fun steps h ↦ ?_⟩
  · refine of_foldlM_eq_ok (fun rule hrule before after hbefore hok ↦ ?_) .expanded hok
    exact hc.linking_applyRule hbefore (hrules hrule) hok
  · exact numbersFlaw?_eq_none.mpr ⟨(hlaid h).numbered, hc.inRange_of_linking h⟩

theorem failsOnly_mounting : ∃ selected,
    Inventory.mounting.select ["ws"] [] = .ok selected ∧ FailsOnly .mounting .mounting selected :=
  ⟨_, rfl, failsOnly_of_new Catalog.new_mounting Inventory.new_mounting (by decide)
    (.asked (show Inventory.mounting.select ["ws"] [] = .ok _ from rfl))⟩

end Rollout.Plan
