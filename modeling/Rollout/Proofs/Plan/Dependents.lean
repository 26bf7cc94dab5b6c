import Mathlib.Algebra.BigOperators.Group.Finset.Basic
import Rollout.Proofs.Plan.Accepted

namespace Rollout.Plan

variable {p : Plan}

def unseenCount (p : Plan) (seen : List Nat) : Nat :=
  ∑ a ∈ (Finset.range p.successorTable.length).filter (· ∉ seen), (p.successors a).length

theorem unseenCount_insertId {seen : List Nat} {i : Nat} (hi : i ∉ seen) :
    (p.successors i).length + p.unseenCount (insertId i seen) = p.unseenCount seen := by
  have herase : (Finset.range p.successorTable.length).filter (· ∉ insertId i seen) =
      ((Finset.range p.successorTable.length).filter (· ∉ seen)).erase i := by
    ext k
    simp only [Finset.mem_filter, mem_insertId, Finset.mem_erase]
    tauto
  unfold unseenCount
  rw [herase]
  by_cases hlt : i < p.successorTable.length
  · exact Finset.add_sum_erase _ (fun a ↦ (p.successors a).length) (by simp [hlt, hi])
  · have hnone : p.successors i = [] := by simp [successors, hlt]
    rw [hnone, Finset.erase_eq_of_notMem (by simp [hlt])]
    simp

theorem unseenCount_nil : p.unseenCount [] = p.edgeCount := by
  have hlist : p.edgeCount = (p.successorTable.map List.length).sum := by
    unfold edgeCount
    induction p.successorTable with
    | nil => rfl
    | cons ids table ih => simp [ih]
  have hmap : p.successorTable.map List.length =
      (List.range p.successorTable.length).map fun a ↦ (p.successors a).length := by
    apply List.ext_getElem (by simp)
    intro a ha _
    simp [successors, List.getElem?_eq_getElem (by simpa using ha : a < p.successorTable.length)]
  have hrange : (Finset.range p.successorTable.length).filter (· ∉ ([] : List Nat)) =
      Finset.range p.successorTable.length := by simp
  rw [hlist, hmap, unseenCount, hrange]
  rfl

theorem length_successors_le (p : Plan) (i : Nat) : (p.successors i).length ≤ p.edgeCount := by
  have h := unseenCount_insertId (p := p) (List.not_mem_nil : i ∉ [])
  rw [unseenCount_nil] at h
  omega

theorem increasing_dependentsFrom (fuel : Nat) (queue : List Nat) {seen : List Nat}
    (h : seen.Pairwise (· < ·)) : (dependentsFrom p fuel queue seen).Pairwise (· < ·) := by
  induction fuel generalizing queue seen with
  | zero => exact h
  | succ fuel ih =>
    cases queue with
    | nil => exact h
    | cons i queue =>
      simp only [dependentsFrom]
      split
      · exact ih _ h
      · exact ih _ (pairwise_insertId h)

theorem dependentsFrom_sound {P : Nat → Prop} (hP : ∀ a b, P a → b ∈ p.successors a → P b)
    (fuel : Nat) {queue seen : List Nat} (hqueue : ∀ a ∈ queue, P a) (hseen : ∀ a ∈ seen, P a) :
    ∀ a ∈ dependentsFrom p fuel queue seen, P a := by
  induction fuel generalizing queue seen with
  | zero => exact hseen
  | succ fuel ih =>
    cases queue with
    | nil => exact hseen
    | cons i queue =>
      obtain ⟨hi, hqueue⟩ := List.forall_mem_cons.mp hqueue
      simp only [dependentsFrom]
      split
      · exact ih hqueue hseen
      · refine ih (fun a ha ↦ ?_) (fun a ha ↦ ?_)
        · rcases List.mem_append.mp ha with ha | ha
          · exact hqueue a ha
          · exact hP i a hi ha
        · rcases mem_insertId.mp ha with rfl | ha
          · exact hi
          · exact hseen a ha

/-- With enough fuel everything is found: the found steps hold the queue and are closed under
successors. -/
theorem dependentsFrom_closed (fuel : Nat) (queue seen : List Nat)
    (hfuel : queue.length + p.unseenCount seen < fuel)
    (hseen : ∀ a ∈ seen, ∀ b ∈ p.successors a, b ∈ seen ∨ b ∈ queue) :
    (∀ a ∈ seen, a ∈ dependentsFrom p fuel queue seen) ∧
    (∀ a ∈ queue, a ∈ dependentsFrom p fuel queue seen) ∧
    ∀ a ∈ dependentsFrom p fuel queue seen, ∀ b ∈ p.successors a,
      b ∈ dependentsFrom p fuel queue seen := by
  induction fuel generalizing queue seen with
  | zero => omega
  | succ fuel ih =>
    cases queue with
    | nil =>
      exact ⟨fun a ha ↦ ha, by simp, fun a ha b hb ↦ (hseen a ha b hb).resolve_right (by simp)⟩
    | cons i queue =>
      rw [List.length_cons] at hfuel
      simp only [dependentsFrom, List.contains_iff_mem]
      split
      · rename_i hi
        have hseen' : ∀ a ∈ seen, ∀ b ∈ p.successors a, b ∈ seen ∨ b ∈ queue := by
          intro a ha b hb
          rcases hseen a ha b hb with h | h
          · exact .inl h
          · rcases List.mem_cons.mp h with rfl | h
            · exact .inl hi
            · exact .inr h
        obtain ⟨h₁, h₂, h₃⟩ := ih queue seen (by omega) hseen'
        exact ⟨h₁, List.forall_mem_cons.mpr ⟨h₁ i hi, h₂⟩, h₃⟩
      · rename_i hi
        have hcount := unseenCount_insertId (p := p) hi
        have hseen' : ∀ a ∈ insertId i seen, ∀ b ∈ p.successors a,
            b ∈ insertId i seen ∨ b ∈ queue ++ p.successors i := by
          intro a ha b hb
          simp only [mem_insertId, List.mem_append]
          rcases mem_insertId.mp ha with rfl | ha
          · exact .inr (.inr hb)
          · rcases hseen a ha b hb with h | h
            · exact .inl (.inr h)
            · rcases List.mem_cons.mp h with rfl | h
              · exact .inl (.inl rfl)
              · exact .inr (.inl h)
        obtain ⟨h₁, h₂, h₃⟩ := ih (queue ++ p.successors i)
          (insertId i seen) (by rw [List.length_append]; omega) hseen'
        refine ⟨fun a ha ↦ h₁ a (mem_insertId.mpr (.inr ha)), ?_, h₃⟩
        exact List.forall_mem_cons.mpr
          ⟨h₁ i (mem_insertId.mpr (.inl rfl)), fun a ha ↦ h₂ a (List.mem_append_left _ ha)⟩

theorem WellFormed.mem_dependents (hp : p.WellFormed) {a b : Nat} :
    b ∈ p.dependents a ↔ p.Awaits b a := by
  constructor
  · refine dependentsFrom_sound (P := fun b ↦ p.Awaits b a) (fun b c hb hc ↦ ?_) _ (fun b hb ↦ ?_)
      (by simp) b
    · exact hb.tail (hp.mem_successors.mp hc)
    · exact .single (hp.mem_successors.mp hb)
  · intro h
    have hlen := length_successors_le p a
    obtain ⟨-, hqueue, hclosed⟩ := dependentsFrom_closed (p := p) (2 * p.edgeCount + 1)
      (p.successors a) [] (by rw [unseenCount_nil]; omega) (by simp)
    induction h with
    | single h => exact hqueue _ (hp.mem_successors.mpr h)
    | tail _ h ih => exact hclosed _ ih _ (hp.mem_successors.mpr h)

end Rollout.Plan
