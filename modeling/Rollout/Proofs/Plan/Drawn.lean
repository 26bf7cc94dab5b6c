import Rollout.Proofs.Plan.Rules

namespace Rollout

/-- A step stands at its position and does what the template of its slot says. -/
structure Step.Fills (s : Step) (i : Nat) (x : Slot) : Prop where
  id : s.id = i
  host : s.host = x.host
  role : s.role = x.role
  name : s.name = x.template.name
  kind : s.kind = x.template.kind
  push : x.template.kind = .push → ∃ l r, x.template.localPath = some l ∧
    x.template.remotePath = some r ∧ s.action = .push l r
  run : x.template.kind ≠ .push → ∃ c, x.template.command = some c ∧ s.action = .run c
  check : s.check = x.template.check
  retryable : s.retryable = x.template.isRetryable
  timeout : s.timeout = x.template.timeout

theorem Template.Valid.actionOf_cases {t : Template} (h : t.Valid) :
    (t.kind = .push ∧ ∃ l r, t.localPath = some l ∧ t.remotePath = some r ∧
      Step.actionOf t = .push l r) ∨
    (t.kind ≠ .push ∧ ∃ c, t.command = some c ∧ Text.allBlank c = false ∧
      Step.actionOf t = .run c) := by
  by_cases hkind : t.kind = .push
  · obtain ⟨hlocal, hremote⟩ := h.paths hkind
    obtain ⟨l, hl⟩ := Option.isSome_iff_exists.mp hlocal
    obtain ⟨r, hr⟩ := Option.isSome_iff_exists.mp hremote
    exact .inl ⟨hkind, l, r, hl, hr, by rw [Step.actionOf, hkind, hl, hr]⟩
  · obtain ⟨c, hc, hblank⟩ := h.command hkind
    refine .inr ⟨hkind, c, hc, hblank, ?_⟩
    rw [Step.actionOf, hc]
    split
    · exact absurd ‹_› hkind
    · rfl

theorem Step.fills_of_bare {s : Step} {i : Nat} {x : Slot} (hvalid : x.template.Valid)
    (hbare : s.bare = x.step i []) : s.Fills i x where
  id := (congrArg Step.id hbare :)
  host := (congrArg Step.host hbare :)
  role := (congrArg Step.role hbare :)
  name := (congrArg Step.name hbare :)
  kind := (congrArg Step.kind hbare :)
  push hkind := by
    have haction : s.action = Step.actionOf x.template := (congrArg Step.action hbare :)
    obtain ⟨-, l, r, hl, hr, hcopies⟩ | ⟨hne, -⟩ := hvalid.actionOf_cases
    · exact ⟨l, r, hl, hr, haction.trans hcopies⟩
    · exact absurd hkind hne
  run hkind := by
    have haction : s.action = Step.actionOf x.template := (congrArg Step.action hbare :)
    obtain ⟨hpush, -⟩ | ⟨-, c, hc, -, hruns⟩ := hvalid.actionOf_cases
    · exact absurd hpush hkind
    · exact ⟨c, hc, haction.trans hruns⟩
  check := (congrArg Step.check hbare :)
  retryable := (congrArg Step.retryable hbare :)
  timeout := (congrArg Step.timeout hbare :)

namespace Plan

/-- A plan is the graph of the slots of some hosts. -/
structure Draws (p : Plan) (catalog : Catalog) (hosts : List Host) : Prop where
  size_eq : p.size = (slots catalog hosts).length
  fills : ∀ i x, (slots catalog hosts)[i]? = some x → ∃ s, p.step? i = some s ∧ s.Fills i x
  increasing : ∀ s ∈ p.steps, s.predecessors.Pairwise (· < ·)
  precedes_iff : ∀ a b, p.Precedes a b ↔ ∃ y x, (slots catalog hosts)[a]? = some y ∧
    (slots catalog hosts)[b]? = some x ∧ y.Leads catalog.rules x
  targeted : ∀ rule ∈ catalog.rules, ∀ h ∈ hosts, rule.role ∈ h.roles →
    ∃! i : Nat, ∃ x, (slots catalog hosts)[i]? = some x ∧ x.host = h.address ∧ rule.Targets x
  required : ∀ rule ∈ catalog.rules, ∀ h ∈ hosts, rule.requiresRole ∈ h.roles →
    ∃! i : Nat, ∃ y, (slots catalog hosts)[i]? = some y ∧ y.host = h.address ∧ rule.Requires y

namespace Checked

variable {catalog : Catalog} {full selected : Inventory} (hc : Checked catalog full selected)
include hc

theorem fills_of_laid {steps : List Step} (hlaid : Laid (slots catalog selected.hosts) steps)
    {i : Nat} {x : Slot} (hx : (slots catalog selected.hosts)[i]? = some x) :
    ∃ s, steps[i]? = some s ∧ s.Fills i x := by
  obtain ⟨s, hs, hbare⟩ := hlaid.exists_step hx
  obtain ⟨h, -, -, -, ht⟩ := mem_slots.mp (List.mem_of_getElem? hx)
  exact ⟨s, hs, Step.fills_of_bare (hc.valid.template (List.mem_of_getElem? ht)) hbare⟩

section Unique

variable {rule : Rule} (hrule : rule ∈ catalog.rules) {h : Host} (hh : h ∈ selected.hosts)
include hrule hh

theorem existsUnique_target (hr : rule.role ∈ h.roles) : ∃! i : Nat, ∃ x,
    (slots catalog selected.hosts)[i]? = some x ∧ x.host = h.address ∧ rule.Targets x := by
  obtain ⟨i, x, hx, hhost, htargets⟩ := hc.exists_target hrule hh hr
  refine ⟨i, ⟨x, hx, hhost, htargets⟩, ?_⟩
  rintro k ⟨y, hy, hhost', htargets'⟩
  exact hc.target_unique hy hx (hhost'.trans hhost.symm) htargets' htargets

theorem existsUnique_required (hr : rule.requiresRole ∈ h.roles) : ∃! i : Nat, ∃ y,
    (slots catalog selected.hosts)[i]? = some y ∧ y.host = h.address ∧ rule.Requires y := by
  obtain ⟨i, y, hy, hhost, hrequires⟩ := hc.exists_required hrule hh hr
  refine ⟨i, ⟨y, hy, hhost, hrequires⟩, ?_⟩
  rintro k ⟨z, hz, hhost', hrequires'⟩
  exact hc.required_unique hz hy (hhost'.trans hhost.symm) hrequires' hrequires

end Unique

end Checked

/-- The plan of a selection is exactly the graph that the catalog says. -/
theorem draws_of_ofSelection {steps? : Role → Option (List Template)} {rules : List Rule}
    {retry : RetryPolicies} {catalog : Catalog} {hosts : List Host} {full selected : Inventory}
    {p : Plan} (hcatalog : Catalog.new steps? rules retry = .ok catalog)
    (hfull : Inventory.new hosts catalog = .ok full)
    (hsorted : ∀ h ∈ hosts, Role.sorted h.roles = h.roles) (hsel : full.Selects selected)
    (hp : ofSelection selected full catalog = .ok p) : p.Draws catalog selected.hosts := by
  have hc := Checked.of_new hcatalog hfull hsorted hsel
  rcases hc.ofSelection_cases with ⟨rule, -, -, herror⟩ | ⟨-, steps, hdrawn, hsteps⟩
  · rw [herror] at hp
    cases hp
  · obtain ⟨-, -, -, rfl⟩ := ofSteps_eq_ok (hsteps ▸ hp)
    exact {
      size_eq := hdrawn.laid.length_eq
      fills := fun i x hx ↦ hc.fills_of_laid hdrawn.laid hx
      increasing := hdrawn.laid.increasing
      precedes_iff := hdrawn.linked_iff
      targeted := fun rule hrule h hh hr ↦ hc.existsUnique_target hrule hh hr
      required := fun rule hrule h hh hr ↦ hc.existsUnique_required hrule hh hr }

theorem draws_mounting : ∃ selected p,
    Inventory.mounting.select ["box", "ws"] [] = .ok selected ∧
    ofSelection selected .mounting .mounting = .ok p ∧ p.Draws .mounting selected.hosts :=
  ⟨_, _, rfl, rfl, draws_of_ofSelection Catalog.new_mounting Inventory.new_mounting (by decide)
    (.asked (show Inventory.mounting.select ["box", "ws"] [] = .ok _ from rfl)) rfl⟩

example : (ofInventory .mounting .mounting).map (fun p ↦ p.steps.map Step.predecessors) =
    .ok [[], [], [], [0, 1, 2], [], [0, 1, 4]] := rfl

end Plan

end Rollout
