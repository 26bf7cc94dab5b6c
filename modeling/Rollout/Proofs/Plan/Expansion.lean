import Rollout.Proofs.Plan.Acyclic
import Rollout.Proofs.Plan.Slots

namespace Rollout

def Slot.step (x : Slot) (i : Nat) (predecessors : List Nat) : Step :=
  .ofTemplate i x.host x.role x.template predecessors

def Step.bare (s : Step) : Step := { s with predecessors := [] }

namespace Plan

/-- The steps of slots, each with the numbers that it waits for in increasing order. -/
structure Laid (xs : List Slot) (steps : List Step) : Prop where
  bare_eq : steps.map Step.bare = xs.zipIdx.map fun p ↦ p.1.step p.2 []
  increasing : ∀ s ∈ steps, s.predecessors.Pairwise (· < ·)

variable {catalog : Catalog} {hosts : List Host} {xs : List Slot} {x y : Slot} {steps : List Step}
  {s : Step} {host : String} {rule : Rule} {i : Nat}

section Expand

def chainedStep (p : Slot × Nat) : Step := p.1.step p.2 (if p.1.place = 0 then [] else [p.2 - 1])

theorem roleSteps_eq (host : String) (r : Role) (ts : List Template) (k next : Nat)
    (previous : Option Nat) (h : previous.toList = if k = 0 then [] else [next - 1]) :
    roleSteps host r next previous ts =
      (((ts.zipIdx k).map fun p ↦ (⟨host, r, p.2, p.1⟩ : Slot)).zipIdx next).map chainedStep := by
  induction ts generalizing k next previous with
  | nil => rfl
  | cons t ts ih =>
    rw [roleSteps, ih (k + 1) (next + 1) (some next) (by simp), h]
    rfl

theorem hostSteps_eq (host : String) (rs : List Role) (next : Nat) :
    hostSteps catalog host next rs =
      ((rs.flatMap (roleSlots catalog host)).zipIdx next).map chainedStep := by
  induction rs generalizing next with
  | nil => rfl
  | cons r rs ih =>
    have hown : roleSteps host r next none (catalog.stepsFor r) =
        ((roleSlots catalog host r).zipIdx next).map chainedStep :=
      roleSteps_eq host r (catalog.stepsFor r) 0 next none rfl
    simp only [hostSteps, ih, hown, List.flatMap_cons, List.zipIdx_append, List.map_append,
      List.length_map, List.length_zipIdx]

theorem expand_eq (hsorted : ∀ h ∈ hosts, Role.sorted h.roles = h.roles) (next : Nat) :
    expand catalog next hosts = ((slots catalog hosts).zipIdx next).map chainedStep := by
  induction hosts generalizing next with
  | nil => rfl
  | cons h hosts ih =>
    obtain ⟨hh, hhosts⟩ := List.forall_mem_cons.mp hsorted
    have hown : hostSteps catalog h.address next h.roles =
        ((hostSlots catalog h).zipIdx next).map chainedStep := by
      rw [hostSlots, hh, hostSteps_eq]
    simp only [expand, ih hhosts, hown, slots, List.flatMap_cons, List.zipIdx_append,
      List.map_append, List.length_map, List.length_zipIdx]

theorem laid_expand (hsorted : ∀ h ∈ hosts, Role.sorted h.roles = h.roles) :
    Laid (slots catalog hosts) (expand catalog 0 hosts) := by
  rw [expand_eq hsorted]
  refine ⟨by rw [List.map_map]; rfl, fun s hs ↦ ?_⟩
  obtain ⟨p, -, rfl⟩ := List.mem_map.mp hs
  simp only [chainedStep, Slot.step, Step.ofTemplate]
  split <;> simp

theorem linked_expand (hsorted : ∀ h ∈ hosts, Role.sorted h.roles = h.roles)
    (hapart : (slots catalog hosts).Pairwise Slot.Apart) {a b : Nat} :
    Linked (expand catalog 0 hosts) a b ↔ ∃ y x, (slots catalog hosts)[a]? = some y ∧
      (slots catalog hosts)[b]? = some x ∧ y.IsJustBefore x := by
  have hstep : ∀ s, (expand catalog 0 hosts)[b]? = some s ↔
      ∃ x, (slots catalog hosts)[b]? = some x ∧ chainedStep (x, b) = s := by
    intro s
    simp [expand_eq hsorted]
  have hpredecessors : ∀ x : Slot, a ∈ (chainedStep (x, b)).predecessors ↔
      x.place ≠ 0 ∧ a = b - 1 := by
    intro x
    simp only [chainedStep, Slot.step, Step.ofTemplate]
    split <;> simp_all
  constructor
  · rintro ⟨s, hs, ha⟩
    obtain ⟨x, hx, rfl⟩ := (hstep s).mp hs
    obtain ⟨hplace, rfl⟩ := (hpredecessors x).mp ha
    obtain ⟨k, y, rfl, hy, hbefore⟩ := chained_slots catalog hosts b x hx hplace
    exact ⟨y, x, hy, hx, hbefore⟩
  · rintro ⟨y, x, hy, hx, hhost, hrole, hplace⟩
    refine ⟨chainedStep (x, b), (hstep _).mpr ⟨x, hx, rfl⟩, (hpredecessors x).mpr ?_⟩
    obtain ⟨k, z, rfl, hz, hhost', hrole', hplace'⟩ :=
      chained_slots catalog hosts b x hx (by omega)
    have hak : a = k := eq_of_apart hapart hy hz (hhost.trans hhost'.symm)
      (hrole.trans hrole'.symm) (.inl (by omega))
    exact ⟨by omega, by omega⟩

end Expand

namespace Laid

variable (h : Laid xs steps)
include h

theorem length_eq : steps.length = xs.length := by
  simpa using congrArg List.length h.bare_eq

theorem bare_getElem? (i : Nat) :
    (steps[i]?).map Step.bare = (xs[i]?).map fun x ↦ x.step i [] := by
  have heq := congrArg (fun l : List Step ↦ l[i]?) h.bare_eq
  simpa [Function.comp_def] using heq

theorem exists_slot (hs : steps[i]? = some s) : ∃ x, xs[i]? = some x ∧ s.bare = x.step i [] := by
  have heq := h.bare_getElem? i
  rw [hs, Option.map_some] at heq
  obtain ⟨x, hx, hstep⟩ := Option.map_eq_some_iff.mp heq.symm
  exact ⟨x, hx, hstep.symm⟩

theorem exists_step (hx : xs[i]? = some x) : ∃ s, steps[i]? = some s ∧ s.bare = x.step i [] := by
  have heq := h.bare_getElem? i
  rw [hx, Option.map_some] at heq
  exact Option.map_eq_some_iff.mp heq

theorem numbered : Numbered steps := by
  intro i s hs
  obtain ⟨x, -, hbare⟩ := h.exists_slot hs
  exact (congrArg Step.id hbare :)

end Laid

section Find

theorem eq_some_iff_of_unique {found : Option Nat} {Q : Nat → Prop}
    (hfound : ∀ k, found = some k → Q k) (hsome : ∀ k, Q k → found ≠ none)
    (hunique : ∀ k m, Q k → Q m → k = m) : found = some i ↔ Q i := by
  refine ⟨hfound i, fun hi ↦ ?_⟩
  obtain ⟨k, hk⟩ := Option.ne_none_iff_exists'.mp (hsome i hi)
  rw [hk, hunique k i (hfound k hk) hi]

theorem matches_iff (hbare : s.bare = x.step i []) {r : Role} :
    (s.host == host && s.role == r) = true ↔ x.host = host ∧ x.role = r := by
  have hhost : s.host = x.host := (congrArg Step.host hbare :)
  have hrole : s.role = x.role := (congrArg Step.role hbare :)
  simp [hhost, hrole]

theorem matches_name_iff (hbare : s.bare = x.step i []) {r : Role} {name : String} :
    (s.host == host && s.role == r && s.name == name) = true ↔
      x.host = host ∧ x.role = r ∧ x.template.name = name := by
  have hname : s.name = x.template.name := (congrArg Step.name hbare :)
  rw [Bool.and_eq_true, matches_iff hbare, beq_iff_eq, hname, and_assoc]

theorem named?_eq_some_iff (h : Laid xs steps) (hapart : xs.Pairwise Slot.Apart) {r : Role}
    {name : String} : named? steps host r name = some i ↔
      ∃ x, xs[i]? = some x ∧ x.host = host ∧ x.role = r ∧ x.template.name = name := by
  refine eq_some_iff_of_unique (Q := fun k ↦ ∃ x, xs[k]? = some x ∧ x.host = host ∧ x.role = r ∧
    x.template.name = name) (fun k hk ↦ ?_) ?_ ?_
  · obtain ⟨s, hs, rfl⟩ := Option.map_eq_some_iff.mp hk
    rw [List.findRev?_eq_find?_reverse] at hs
    have hmatch := List.find?_some hs
    have hmem := List.mem_reverse.mp (List.mem_of_find?_eq_some hs)
    obtain ⟨x, hx, hbare⟩ := h.exists_slot (h.numbered.getElem? hmem)
    exact ⟨x, hx, (matches_name_iff hbare).mp hmatch⟩
  · rintro k ⟨x, hx, hmatch⟩ hnone
    obtain ⟨s, hs, hbare⟩ := h.exists_step hx
    rw [named?, Option.map_eq_none_iff, List.findRev?_eq_find?_reverse, List.find?_eq_none] at hnone
    exact hnone s (List.mem_reverse.mpr (List.mem_of_getElem? hs))
      ((matches_name_iff hbare).mpr hmatch)
  · rintro k m ⟨x, hx, hhost, hrole, hname⟩ ⟨y, hy, hhost', hrole', hname'⟩
    exact eq_of_apart hapart hx hy (hhost.trans hhost'.symm) (hrole.trans hrole'.symm)
      (.inr (hname.trans hname'.symm))

theorem first?_eq_some_iff (h : Laid xs steps) (hapart : xs.Pairwise Slot.Apart)
    (hchained : Chained xs) {r : Role} : first? steps host r = some i ↔
      ∃ x, xs[i]? = some x ∧ x.host = host ∧ x.role = r ∧ x.place = 0 := by
  refine eq_some_iff_of_unique (Q := fun k ↦ ∃ x, xs[k]? = some x ∧ x.host = host ∧ x.role = r ∧
    x.place = 0) (fun k hk ↦ ?_) ?_ ?_
  · obtain ⟨s, hs, rfl⟩ := Option.map_eq_some_iff.mp hk
    obtain ⟨hmatch, m, hm, rfl, hleast⟩ := List.find?_eq_some_iff_getElem.mp hs
    have hs := List.getElem?_eq_getElem hm
    rw [h.numbered m _ hs]
    obtain ⟨x, hx, hbare⟩ := h.exists_slot hs
    obtain ⟨hhost, hrole⟩ := (matches_iff hbare).mp hmatch
    refine ⟨x, hx, hhost, hrole, ?_⟩
    -- otherwise the slot just before it would have been found
    by_contra hplace
    obtain ⟨k, y, rfl, hy, hhost', hrole', -⟩ := hchained m x hx hplace
    obtain ⟨t, ht, hbare'⟩ := h.exists_step hy
    obtain ⟨hlt, rfl⟩ := List.getElem?_eq_some_iff.mp ht
    have hnot := hleast k (Nat.lt_succ_self k)
    rw [Bool.not_eq_true', ← Bool.not_eq_true] at hnot
    exact hnot ((matches_iff hbare').mpr ⟨hhost'.trans hhost, hrole'.trans hrole⟩)
  · rintro k ⟨x, hx, hhost, hrole, -⟩ hnone
    obtain ⟨s, hs, hbare⟩ := h.exists_step hx
    rw [first?, Option.map_eq_none_iff, List.find?_eq_none] at hnone
    exact hnone s (List.mem_of_getElem? hs) ((matches_iff hbare).mpr ⟨hhost, hrole⟩)
  · rintro k m ⟨x, hx, hhost, hrole, hplace⟩ ⟨y, hy, hhost', hrole', hplace'⟩
    exact eq_of_apart hapart hx hy (hhost.trans hhost'.symm) (hrole.trans hrole'.symm)
      (.inl (hplace.trans hplace'.symm))

theorem ruleTarget_eq_ok_iff (h : Laid xs steps) (hapart : xs.Pairwise Slot.Apart)
    (hchained : Chained xs) : ruleTarget rule steps host = .ok i ↔
      ∃ x, xs[i]? = some x ∧ x.host = host ∧ rule.Targets x := by
  unfold ruleTarget Rule.Targets
  cases rule.step with
  | some name =>
    refine Iff.trans ?_ (named?_eq_some_iff h hapart)
    cases hfound : named? steps host rule.role name <;> simp [hfound]
  | none =>
    refine Iff.trans ?_ (first?_eq_some_iff h hapart hchained)
    cases first? steps host rule.role <;> simp

theorem rulePrerequisite_eq_ok_iff (h : Laid xs steps) (hapart : xs.Pairwise Slot.Apart) :
    rulePrerequisite rule steps host = .ok i ↔
      ∃ y, xs[i]? = some y ∧ y.host = host ∧ rule.Requires y := by
  refine Iff.trans ?_ (named?_eq_some_iff h hapart)
  rw [rulePrerequisite]
  cases named? steps host rule.requiresRole rule.requiresStep <;> simp

end Find

end Plan

end Rollout
