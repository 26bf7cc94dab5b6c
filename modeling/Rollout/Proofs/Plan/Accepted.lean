import Mathlib.Logic.Relation
import Mathlib.Order.WellFounded
import Rollout.Proofs.Plan.Sorting

namespace Rollout.Plan

def Linked (steps : List Step) (a b : Nat) : Prop := ∃ x, steps[b]? = some x ∧ a ∈ x.predecessors

def Precedes (p : Plan) (a b : Nat) : Prop := ∃ x, p.step? b = some x ∧ a ∈ x.predecessors

/-- A step waits for another one directly or through others. -/
def Awaits (p : Plan) (b a : Nat) : Prop := Relation.TransGen p.Precedes a b

/-- What an accepted plan has. -/
structure WellFormed (p : Plan) : Prop where
  numbered : Numbered p.steps
  inRange : InRange p.steps
  nodup_predecessors : ∀ x ∈ p.steps, x.predecessors.Nodup
  successorTable_eq : p.successorTable = successorLists p.steps
  acyclic : WellFounded p.Precedes

namespace Sorting

/-- Going back from a step that has been placed comes to an end. -/
theorem Ordered.acc {steps : List Step} (hnum : Numbered steps) {placed : List Nat}
    (h : Ordered steps placed) : ∀ i ∈ placed, Acc (Linked steps) i := by
  induction placed with
  | nil => exact List.forall_mem_nil _
  | cons i placed ih =>
    obtain ⟨-, ⟨y, hy, hid, -, hall⟩, hrest⟩ := h
    refine List.forall_mem_cons.mpr ⟨.intro i ?_, ih hrest⟩
    rintro a ⟨x, hx, ha⟩
    have hyx : y = x := hnum.eq_of_id hy (List.mem_of_getElem? hx) (hid.trans (hnum i x hx).symm)
    exact ih hrest a (hall a (hyx ▸ ha))

end Sorting

theorem topologicalOrder_eq_ok {steps : List Step} {order : List Nat} :
    topologicalOrder steps = .ok order ↔
      steps.length ≤ (sorting steps).placed.length ∧ order = (sorting steps).placed.reverse := by
  simp only [topologicalOrder]
  split
  · rename_i hlt
    simp [Nat.not_le_of_lt hlt]
  · rename_i hlt
    simp [Nat.le_of_not_lt hlt, eq_comm]

theorem ofSteps_eq_ok {steps : List Step} {p : Plan} (h : ofSteps steps = .ok p) :
    Numbered steps ∧ InRange steps ∧ steps.length ≤ (sorting steps).placed.length ∧
      p = ⟨steps, successorLists steps, (sorting steps).placed.reverse⟩ := by
  unfold ofSteps at h
  split at h
  · cases h
  · rename_i hflaw
    obtain ⟨hnum, hrange⟩ := numbersFlaw?_eq_none.mp hflaw
    split at h
    · cases h
    · rename_i order hok
      obtain ⟨hlen, rfl⟩ := topologicalOrder_eq_ok.mp hok
      cases h
      exact ⟨hnum, hrange, hlen, rfl⟩

namespace Sorting

variable {steps : List Step} (hnum : Numbered steps) (hrange : InRange steps)
include hnum hrange

theorem placed_lt {i : Nat} (hi : i ∈ (sorting steps).placed) : i < steps.length := by
  obtain ⟨x, hx, rfl, -⟩ := (sound_sorting hnum hrange).ordered.free hi
  exact hnum.lt_length hx

theorem mem_placed (hlen : steps.length ≤ (sorting steps).placed.length) :
    ∀ x ∈ steps, x.id ∈ (sorting steps).placed := by
  have hsub : (sorting steps).placed ⊆ List.range steps.length :=
    fun i hi ↦ List.mem_range.mpr (placed_lt hnum hrange hi)
  have hnodup := (sound_sorting hnum hrange).ordered.nodup
  have hperm := (List.subperm_of_subset hnodup hsub).perm_of_length_le (by simpa using hlen)
  exact fun x hx ↦ hperm.mem_iff.mpr (List.mem_range.mpr (hnum.lt_length hx))

end Sorting

theorem wellFormed_of_ofSteps {steps : List Step} {p : Plan} (h : ofSteps steps = .ok p) :
    p.WellFormed := by
  obtain ⟨hnum, hrange, hlen, rfl⟩ := ofSteps_eq_ok h
  have hsound := Sorting.sound_sorting hnum hrange
  have hall := Sorting.mem_placed hnum hrange hlen
  refine ⟨hnum, hrange, ?_, rfl, ⟨fun b ↦ .intro b ?_⟩⟩
  · intro x hx
    obtain ⟨y, hy, hid, hnodup, -⟩ := hsound.ordered.free (hall x hx)
    rwa [← hnum.eq_of_id hy hx hid]
  · rintro a ⟨x, hx, ha⟩
    have hb : x.id = b := hnum b x hx
    have hplaced := hall x (List.mem_of_getElem? hx)
    exact (hsound.ordered.acc hnum b (hb ▸ hplaced)).inv ⟨x, hx, ha⟩

namespace WellFormed

variable {p : Plan} (hp : p.WellFormed)
include hp

theorem step?_of_mem {x : Step} (hx : x ∈ p.steps) : p.step? x.id = some x :=
  hp.numbered.getElem? hx

theorem id_of_step? {i : Nat} {x : Step} (hx : p.step? i = some x) : x.id = i :=
  hp.numbered i x hx

theorem precedes_iff {a : Nat} {x : Step} (hx : x ∈ p.steps) :
    p.Precedes a x.id ↔ a ∈ x.predecessors := by
  simp [Precedes, hp.step?_of_mem hx]

theorem mem_successors {a b : Nat} : b ∈ p.successors a ↔ p.Precedes a b := by
  rw [successors, hp.successorTable_eq, mem_successorLists hp.inRange]
  constructor
  · rintro ⟨x, hx, ha, rfl⟩
    exact ⟨x, hp.step?_of_mem hx, ha⟩
  · rintro ⟨x, hx, ha⟩
    exact ⟨x, List.mem_of_getElem? hx, ha, hp.id_of_step? hx⟩

theorem nodup_successors (a : Nat) : (p.successors a).Nodup := by
  rw [successors, hp.successorTable_eq]
  exact nodup_successorLists hp.numbered a

theorem exists_of_precedes {a b : Nat} (h : p.Precedes a b) : ∃ x ∈ p.steps, x.id = a := by
  obtain ⟨x, hx, ha⟩ := h
  have hlt := hp.inRange x (List.mem_of_getElem? hx) a ha
  obtain ⟨y, hy⟩ : ∃ y, p.steps[a]? = some y := ⟨_, List.getElem?_eq_getElem hlt⟩
  exact ⟨y, List.mem_of_getElem? hy, hp.numbered a y hy⟩

theorem not_awaits_self (a : Nat) : ¬ p.Awaits a a :=
  fun h ↦ hp.acyclic.transGen.irrefl.irrefl a h

end WellFormed

end Rollout.Plan
