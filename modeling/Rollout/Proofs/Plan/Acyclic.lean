import Mathlib.Data.Fintype.EquivFin
import Rollout.Proofs.Plan.Accepted

namespace Rollout.Plan

def Cyclic (steps : List Step) : Prop := ∃ a, Relation.TransGen (Linked steps) a a

def cycleFault (labels : String) : Fault :=
  .plan ("dependency cycle among install steps: " ++ labels)

variable {steps : List Step}

theorem topologicalOrder_eq_error {e : Fault} : topologicalOrder steps = .error e ↔
    (sorting steps).placed.length < steps.length ∧ e = cycleFault (String.intercalate ", "
      (((stuck steps (sorting steps)).take 5).map Step.label)) := by
  simp only [topologicalOrder]
  split
  · rename_i hlt
    simp [hlt, cycleFault, eq_comm]
  · rename_i hle
    simp [hle]

namespace Sorting

theorem run_stops (successors : List (List Nat)) (rounds : Nat) (s : Sorting) :
    (run successors rounds s).ready = [] ∨
      (run successors rounds s).placed.length = s.placed.length + rounds := by
  induction rounds generalizing s with
  | zero => exact .inr rfl
  | succ rounds ih =>
    rw [run]
    split
    · rename_i hready
      exact .inl hready
    · rename_i i ready _
      have hplaced : (place successors { s with ready := ready } i).placed = i :: s.placed := by
        rw [place, placed_foldl_release]
      refine (ih _).imp_right fun h ↦ ?_
      rw [h, hplaced, List.length_cons]
      omega

theorem exists_unplaced (hnum : Numbered steps)
    (hshort : (sorting steps).placed.length < steps.length) :
    ∃ x ∈ steps, x.id ∉ (sorting steps).placed := by
  by_contra hall
  push Not at hall
  have hsub : List.range steps.length ⊆ (sorting steps).placed := by
    rw [← hnum.map_id]
    exact List.forall_mem_map.mpr hall
  have hlen := (List.subperm_of_subset List.nodup_range hsub).length_le
  rw [List.length_range] at hlen
  omega

variable (hnum : Numbered steps) (hrange : InRange steps)
include hnum hrange

theorem ready_sorting : (sorting steps).ready = [] := by
  have hsound := sound_sorting hnum hrange
  have hstops : (sorting steps).ready = [] ∨ (sorting steps).placed.length = steps.length := by
    simpa [sorting, start] using run_stops (successorLists steps) steps.length (start steps)
  rcases hstops with hready | hlen
  · exact hready
  · refine List.eq_nil_iff_forall_not_mem.mpr fun i hi ↦ ?_
    -- with a ready step there would be more steps than there are
    obtain ⟨hnot, x, hx, rfl, -⟩ := (hsound.ready_iff i).mp hi
    have hsub : x.id :: (sorting steps).placed ⊆ List.range steps.length :=
      List.cons_subset.mpr ⟨List.mem_range.mpr (hnum.lt_length hx),
        fun k hk ↦ List.mem_range.mpr (placed_lt hnum hrange hk)⟩
    have hle := (List.subperm_of_subset (hsound.ordered.nodup.cons hnot) hsub).length_le
    rw [List.length_cons, List.length_range] at hle
    omega

theorem mem_placed_iff_free {i : Nat} :
    i ∈ (sorting steps).placed ↔ Free steps (sorting steps).placed i := by
  have hsound := sound_sorting hnum hrange
  refine ⟨hsound.ordered.free, fun hfree ↦ ?_⟩
  by_contra hnot
  have hready := (hsound.ready_iff i).mpr ⟨hnot, hfree⟩
  rw [ready_sorting hnum hrange] at hready
  cases hready

variable (hnodup : ∀ x ∈ steps, x.predecessors.Nodup)
include hnodup

theorem exists_open {i : Nat} (hi : i < steps.length) (hnot : i ∉ (sorting steps).placed) :
    ∃ a < steps.length, a ∉ (sorting steps).placed ∧ Linked steps a i := by
  have hx := List.getElem?_eq_getElem hi
  have hmem := List.getElem_mem hi
  have hid := hnum i _ hx
  obtain ⟨a, ha, hopen⟩ : ∃ a ∈ steps[i].predecessors, a ∉ (sorting steps).placed := by
    by_contra hall
    exact hnot ((mem_placed_iff_free hnum hrange).mpr
      ⟨_, hmem, hid, hnodup _ hmem, by simpa using hall⟩)
  exact ⟨a, hrange _ hmem a ha, hopen, _, hx, ha⟩

/-- A step that is not placed lies on a cycle or behind one. -/
theorem exists_cycle {i : Nat} (hi : i < steps.length) (hnot : i ∉ (sorting steps).placed) :
    ∃ a, Relation.TransGen (Linked steps) a a ∧ Relation.ReflTransGen (Linked steps) a i := by
  by_contra hcycle
  let before (a b : Fin steps.length) : Prop :=
    Relation.TransGen (Linked steps) a b ∧ Relation.ReflTransGen (Linked steps) b i
  have : IsTrans (Fin steps.length) before :=
    ⟨fun a b c hab hbc ↦ ⟨hab.1.trans hbc.1, hbc.2⟩⟩
  have : Std.Irrefl before := ⟨fun a ha ↦ hcycle ⟨a, ha⟩⟩
  have hwf : WellFounded before := Finite.wellFounded_of_trans_of_irrefl before
  have hplaced : ∀ b : Fin steps.length, Relation.ReflTransGen (Linked steps) b i →
      b.1 ∈ (sorting steps).placed := by
    intro b
    induction b using hwf.induction with
    | _ b ih =>
      intro hb
      by_contra hopen
      obtain ⟨a, ha, hopen', hlink⟩ := exists_open hnum hrange hnodup b.2 hopen
      exact hopen' (ih ⟨a, ha⟩ ⟨.single hlink, hb⟩ (.head hlink hb))
  exact hnot (hplaced ⟨i, hi⟩ .refl)

end Sorting

section Accepted

variable (hnum : Numbered steps) (hrange : InRange steps)
  (hnodup : ∀ x ∈ steps, x.predecessors.Nodup)
include hnum hrange

theorem ofSteps_eq_error {e : Fault} (h : topologicalOrder steps = .error e) :
    ofSteps steps = .error e := by
  rw [ofSteps, numbersFlaw?_eq_none.mpr ⟨hnum, hrange⟩, h]

include hnodup

theorem ofSteps_cases :
    ¬ Cyclic steps ∧ (∃ p, ofSteps steps = .ok p) ∨
      Cyclic steps ∧ ∃ labels, ofSteps steps = .error (cycleFault labels) := by
  by_cases hlen : steps.length ≤ (sorting steps).placed.length
  · have hok : ofSteps steps =
        .ok ⟨steps, successorLists steps, (sorting steps).placed.reverse⟩ := by
      rw [ofSteps, numbersFlaw?_eq_none.mpr ⟨hnum, hrange⟩,
        topologicalOrder_eq_ok.mpr ⟨hlen, rfl⟩]
    refine .inl ⟨?_, _, hok⟩
    rintro ⟨a, ha⟩
    exact (wellFormed_of_ofSteps hok).not_awaits_self a ha
  · have hshort := Nat.lt_of_not_le hlen
    obtain ⟨x, hx, hnot⟩ := Sorting.exists_unplaced hnum hshort
    obtain ⟨a, ha, -⟩ :=
      Sorting.exists_cycle hnum hrange hnodup (hnum.lt_length hx) hnot
    have herror := topologicalOrder_eq_error.mpr ⟨hshort, rfl⟩
    exact .inr ⟨⟨a, ha⟩, _, ofSteps_eq_error hnum hrange herror⟩

end Accepted

end Rollout.Plan
