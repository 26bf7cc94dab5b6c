import Rollout.Proofs.Plan.Dependents
import Rollout.Proofs.Plan.Least

namespace Rollout.Plan

variable {p : Plan}

/-- One turn of the search: the first step of the queue is dropped if it was seen before. Otherwise it
is noted, and its successors come to the end of the queue. -/
inductive Turn (p : Plan) : List Nat × List Nat → List Nat × List Nat → Prop
  | known {i : Nat} {queue seen : List Nat} (hi : i ∈ seen) :
      Turn p (i :: queue, seen) (queue, seen)
  | found {i : Nat} {queue seen : List Nat} (hi : i ∉ seen) :
      Turn p (i :: queue, seen) (queue ++ p.successors i, insertId i seen)

/-- Every turn takes a step from the queue, or successors from those that can still be put there. -/
theorem wellFounded_turn : WellFounded fun s t ↦ p.Turn t s := by
  refine Subrelation.wf (r := fun s t ↦ s.1.length + p.unseenCount s.2 <
    t.1.length + p.unseenCount t.2) ?_ (InvImage.wf _ wellFounded_lt)
  rintro s t (⟨hi⟩ | ⟨hi⟩)
  · exact Nat.add_lt_add_right (Nat.lt_succ_self _) _
  · have hcount := unseenCount_insertId (p := p) hi
    simp only [List.length_append, List.length_cons]
    omega

theorem turns_dependentsFrom (fuel : Nat) (queue seen : List Nat)
    (hfuel : queue.length + p.unseenCount seen < fuel) :
    Relation.ReflTransGen p.Turn (queue, seen) ([], dependentsFrom p fuel queue seen) := by
  induction fuel generalizing queue seen with
  | zero => omega
  | succ fuel ih =>
    cases queue with
    | nil => exact .refl
    | cons i queue =>
      rw [List.length_cons] at hfuel
      simp only [dependentsFrom, List.contains_iff_mem]
      split
      · rename_i hi
        exact .head (.known hi) (ih queue seen (by omega))
      · rename_i hi
        have hcount := unseenCount_insertId (p := p) hi
        exact .head (.found hi) (ih _ _ (by rw [List.length_append]; omega))

theorem turns_dependents (a : Nat) :
    Relation.ReflTransGen p.Turn (p.successors a, []) ([], p.dependents a) := by
  have hlen := length_successors_le p a
  exact turns_dependentsFrom _ _ _ (by rw [unseenCount_nil]; omega)

theorem WellFormed.successors_of_le (hp : p.WellFormed) {a : Nat} (ha : p.size ≤ a) :
    p.successors a = [] := by
  rw [successors, hp.successorTable_eq, getElem?_successorLists]
  exact if_neg (Nat.not_lt_of_le ha)

/-- The steps that wait for a step, and the search that finds them. -/
structure Downstream (p : Plan) (a : Nat) : Prop where
  mem_iff : ∀ b, b ∈ p.dependents a ↔ Relation.TransGen (fun i k ↦ k ∈ p.successors i) a b
  awaits_iff : ∀ b, b ∈ p.dependents a ↔ p.Awaits b a
  increasing : (p.dependents a).Pairwise (· < ·)
  not_self : a ∉ p.dependents a
  beyond : p.size ≤ a → p.dependents a = []
  ends : Acc (fun s t ↦ p.Turn t s) (p.successors a, [])
  found : Relation.ReflTransGen p.Turn (p.successors a, []) ([], p.dependents a)

theorem downstream_of_ofSteps {steps : List Step} (h : ofSteps steps = .ok p) (a : Nat) :
    p.Downstream a := by
  have hp := wellFormed_of_ofSteps h
  have hedges : (fun i k ↦ k ∈ p.successors i) = p.Precedes := by
    funext i k
    exact propext hp.mem_successors
  refine ⟨fun b ↦ ?_, fun b ↦ hp.mem_dependents, increasing_dependentsFrom _ _ .nil, ?_, ?_,
    wellFounded_turn.apply _, turns_dependents a⟩
  · rw [hedges]
    exact hp.mem_dependents
  · exact fun hself ↦ hp.not_awaits_self a (hp.mem_dependents.mp hself)
  · intro ha
    rw [dependents, hp.successors_of_le ha]
    rfl

/-- Two ways lead from the third step to the first, which the queue holds twice. -/
theorem downstream_diamond : ∃ p, ofSteps diamond = .ok p ∧ p.Downstream 2 ∧
    p.dependents 2 = [0, 1, 4] :=
  ⟨_, rfl, downstream_of_ofSteps (show ofSteps diamond = .ok _ from rfl) 2, by decide⟩

end Rollout.Plan
