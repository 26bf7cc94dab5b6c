import Rollout.Proofs.Plan.Least

namespace Rollout.Plan

/-- A step lies on a cycle, or behind one. -/
def Blocked (steps : List Step) (i : Nat) : Prop :=
  ∃ a, Relation.TransGen (Linked steps) a a ∧ Relation.ReflTransGen (Linked steps) a i

/-- The first five blocked steps, or all if there are fewer. -/
structure FirstBlocked (steps named : List Step) : Prop where
  pos : 1 ≤ named.length
  few : named.length ≤ 5
  increasing : (named.map Step.id).Pairwise (· < ·)
  blocked : ∀ x ∈ named, x ∈ steps ∧ Blocked steps x.id
  first : ∀ x ∈ steps, Blocked steps x.id →
    x ∈ named ∨ named.length = 5 ∧ ∀ y ∈ named, y.id < x.id

/-- What is found when steps cannot be put in order. -/
structure Diagnosed (steps : List Step) (e : Fault) : Prop where
  ends : Sorting.Ends (successorLists steps) (.start steps) (sorting steps)
  /-- At that end the open predecessors of every step are known, and blocked steps have some. -/
  open_pos_iff : ∀ x ∈ steps, ∃ n, (sorting steps).open_[x.id]? = some n ∧
    (0 < n ↔ Blocked steps x.id)
  named : ∃ named, FirstBlocked steps named ∧
    e = cycleFault (String.intercalate ", " (named.map Step.label))
  refused : ofSteps steps = .error e

variable {steps : List Step}

theorem Blocked.exists_linked {i : Nat} (h : Blocked steps i) :
    ∃ b, Linked steps b i ∧ Blocked steps b := by
  obtain ⟨a, hcycle, hreach⟩ := h
  cases hreach with
  | refl =>
    obtain ⟨b, hab, hlink⟩ := Relation.TransGen.tail'_iff.mp hcycle
    exact ⟨b, hlink, _, hcycle, hab⟩
  | tail hab hlink => exact ⟨_, hlink, _, hcycle, hab⟩

theorem Blocked.not_acc {i : Nat} (h : Blocked steps i) : ¬ Acc (Linked steps) i := by
  intro hacc
  induction hacc with
  | intro i _ ih =>
    obtain ⟨b, hlink, hbehind⟩ := h.exists_linked
    exact ih b hlink hbehind

section Sets

variable (hnum : Numbered steps) (hrange : InRange steps)
  (hsets : ∀ x ∈ steps, x.predecessors.Nodup)

include hnum hrange

theorem open_sorting {x : Step} (hx : x ∈ steps) :
    ∃ n, (sorting steps).open_[x.id]? = some n ∧ (0 < n ↔ x.id ∉ (sorting steps).placed) := by
  have hsound := Sorting.sound_sorting hnum hrange
  refine ⟨_, hsound.open_eq x hx, ?_⟩
  rw [Nat.pos_iff_ne_zero, ne_eq, ← Sorting.free_iff hnum hsound.ordered.nodup hx,
    ← Sorting.mem_placed_iff_free hnum hrange]

include hsets

theorem blocked_iff {x : Step} (hx : x ∈ steps) :
    Blocked steps x.id ↔ x.id ∉ (sorting steps).placed := by
  constructor
  · intro hblocked hplaced
    exact hblocked.not_acc ((Sorting.sound_sorting hnum hrange).ordered.acc hnum x.id hplaced)
  · exact Sorting.exists_cycle hnum hrange hsets (hnum.lt_length hx)

theorem mem_stuck_iff {x : Step} :
    x ∈ stuck steps (sorting steps) ↔ x ∈ steps ∧ Blocked steps x.id := by
  rw [stuck, List.mem_filter, decide_eq_true_iff]
  refine and_congr_right fun hx ↦ ?_
  obtain ⟨n, hopen, hpos⟩ := open_sorting hnum hrange hx
  rw [hopen, Option.getD_some, hpos, blocked_iff hnum hrange hsets hx]

theorem firstBlocked_stuck (hshort : (sorting steps).placed.length < steps.length) :
    FirstBlocked steps ((stuck steps (sorting steps)).take 5) := by
  have hincreasing : ((stuck steps (sorting steps)).map Step.id).Pairwise (· < ·) :=
    hnum.map_id_filter _
  have hmem {x : Step} := mem_stuck_iff hnum hrange hsets (x := x)
  refine ⟨?_, List.length_take_le .., ?_, fun x hx ↦ hmem.mp (List.mem_of_mem_take hx),
    fun x hx hblocked ↦ ?_⟩
  · obtain ⟨x, hx, hnot⟩ := Sorting.exists_unplaced hnum hshort
    have hstuck := hmem.mpr ⟨hx, (blocked_iff hnum hrange hsets hx).mpr hnot⟩
    have hlen := List.length_pos_of_mem hstuck
    rw [List.length_take]
    omega
  · rw [List.map_take]
    exact hincreasing.sublist (List.take_sublist ..)
  · have hstuck := hmem.mpr ⟨hx, hblocked⟩
    rw [← List.take_append_drop 5 (stuck steps (sorting steps)), List.map_append] at hincreasing
    rw [← List.take_append_drop 5 (stuck steps (sorting steps)), List.mem_append] at hstuck
    refine hstuck.imp_right fun hdrop ↦ ⟨?_, fun y hy ↦ ?_⟩
    · have hlen := List.length_pos_of_mem hdrop
      rw [List.length_drop] at hlen
      rw [List.length_take]
      omega
    · exact (List.pairwise_append.mp hincreasing).2.2 _ (List.mem_map_of_mem hy) _
        (List.mem_map_of_mem hdrop)

/-- Steps that cannot be put in order are refused for those on cycles and behind them. -/
theorem diagnosed_of_topologicalOrder {e : Fault} (h : topologicalOrder steps = .error e) :
    Diagnosed steps e := by
  obtain ⟨hshort, he⟩ := topologicalOrder_eq_error.mp h
  refine ⟨Sorting.ends_sorting hnum hrange, fun x hx ↦ ?_,
    ⟨_, firstBlocked_stuck hnum hrange hsets hshort, he⟩, ofSteps_eq_error hnum hrange h⟩
  rw [blocked_iff hnum hrange hsets hx]
  exact open_sorting hnum hrange hx

end Sets

def tangle : List Step :=
  [(0, []), (1, [2]), (2, [0, 1]), (3, [2]), (4, [4]), (5, [3]), (6, [0]), (7, [5]),
    (8, [4, 7])].map fun x ↦
      { id := x.1, host := "ws", role := .client, name := Text.decimal x.1, kind := .command,
        action := .run "true", predecessors := x.2 }

/-- Of the seven steps that are blocked the first five are named. -/
theorem diagnosed_tangle : Numbered tangle ∧ InRange tangle ∧
    (∀ x ∈ tangle, x.predecessors.Nodup) ∧
    ∃ e, topologicalOrder tangle = .error e ∧ Diagnosed tangle e ∧
      e = cycleFault "ws/client/1, ws/client/2, ws/client/3, ws/client/4, ws/client/5" := by
  have hflaw : numbersFlaw? tangle = none := by decide
  obtain ⟨hnum, hrange⟩ := numbersFlaw?_eq_none.mp hflaw
  have hsets : ∀ x ∈ tangle, x.predecessors.Nodup := by decide
  exact ⟨hnum, hrange, hsets, _, rfl, diagnosed_of_topologicalOrder hnum hrange hsets rfl,
    by decide⟩

end Rollout.Plan
