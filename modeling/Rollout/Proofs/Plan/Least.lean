import Rollout.Proofs.Plan.Acyclic
import Rollout.Proofs.Plan.Order

namespace Rollout.Plan

/-- An order of all steps in which each stands behind its predecessors. -/
structure Respects (steps : List Step) (order : List Nat) : Prop where
  perm : order.Perm (steps.map Step.id)
  behind : ∀ x ∈ steps, ∀ a ∈ x.predecessors, order.idxOf a < order.idxOf x.id

namespace Sorting

def release? (s : Sorting) (id : Nat) : Option Sorting :=
  match s.open_[id]? with
  | some (_ + 1) => some (s.release id)
  | _ => none

def place? (successors : List (List Nat)) (s : Sorting) (id : Nat) : Option Sorting := do
  let ids ← successors[id]?
  ids.foldlM release? { s with placed := id :: s.placed }

/-- The loop with all its checks comes to an end: it places the first ready step, again and again,
until no step is ready. -/
inductive Ends (successors : List (List Nat)) : Sorting → Sorting → Prop
  | done {s : Sorting} : s.ready = [] → Ends successors s s
  | next {s s' t : Sorting} {id : Nat} {ready : List Nat} : s.ready = id :: ready →
      place? successors { s with ready := ready } id = some s' → Ends successors s' t →
      Ends successors s t

theorem foldlM_release? {ids : List Nat} (h : ids.Nodup) {s : Sorting}
    (hopen : ∀ k ∈ ids, ∃ n, s.open_[k]? = some (n + 1)) :
    ids.foldlM release? s = some (ids.foldl release s) := by
  induction ids generalizing s with
  | nil => rfl
  | cons i ids ih =>
    obtain ⟨hi, hids⟩ := List.nodup_cons.mp h
    obtain ⟨⟨n, hn⟩, hrest⟩ := List.forall_mem_cons.mp hopen
    have hfirst : s.release? i = some (s.release i) := by rw [release?, hn]
    rw [List.foldlM_cons, hfirst]
    refine ih hids fun k hk ↦ ?_
    have hne : i ≠ k := fun he ↦ hi (he ▸ hk)
    have hsame : (s.release i).open_[k]? = s.open_[k]? := by
      rw [show (s.release i).open_ = lower s.open_ i from rfl, getElem?_lower, if_neg hne]
    rw [hsame]
    exact hrest k hk

section Loop

variable {steps : List Step} (hnum : Numbered steps) (hrange : InRange steps)
include hrange

theorem Sound.exists_open {s : Sorting} (h : Sound steps s) {i : Nat} (hi : i ∉ s.placed) {k : Nat}
    (hk : k ∈ ((successorLists steps)[i]?).getD []) : ∃ n, s.open_[k]? = some (n + 1) := by
  obtain ⟨x, hx, hix, rfl⟩ := (mem_successorLists hrange).mp hk
  -- the placed predecessors are not all there are, since `i` is one and is not placed
  have hnodup : (i :: s.placed.filter (· ∈ x.predecessors)).Nodup :=
    (h.ordered.nodup.filter _).cons fun hmem ↦ hi (List.mem_of_mem_filter hmem)
  have hsub : i :: s.placed.filter (· ∈ x.predecessors) ⊆ x.predecessors :=
    List.cons_subset.mpr ⟨hix, fun a ha ↦ by simpa using (List.mem_filter.mp ha).2⟩
  have hlt := (List.subperm_of_subset hnodup hsub).length_le
  rw [List.length_cons] at hlt
  refine ⟨x.predecessors.length - (s.placed.filter (· ∈ x.predecessors)).length - 1, ?_⟩
  rw [h.open_eq x hx, Option.some.injEq]
  omega

include hnum

theorem Sound.place?_eq {s : Sorting} (h : Sound steps s) {i : Nat} {ready : List Nat}
    (hready : s.ready = i :: ready) :
    place? (successorLists steps) { s with ready := ready } i =
      some (Sorting.place (successorLists steps) { s with ready := ready } i) := by
  obtain ⟨hi, x, hx, rfl, -⟩ := (h.ready_iff i).mp (by simp [hready])
  have hlt : x.id < (successorLists steps).length := by
    simpa [successorLists] using hnum.lt_length hx
  have hids := List.getElem?_eq_getElem hlt
  have hnodup := nodup_successorLists hnum x.id
  have hopen : ∀ k ∈ ((successorLists steps)[x.id]?).getD [], ∃ n, s.open_[k]? = some (n + 1) :=
    fun k hk ↦ h.exists_open hrange hi hk
  rw [hids, Option.getD_some] at hnodup hopen
  simp only [place?, Sorting.place, hids, Option.getD_some]
  exact foldlM_release? hnodup hopen

theorem Sound.ends_run {s : Sorting} (h : Sound steps s) {rounds : Nat}
    (hover : (Sorting.run (successorLists steps) rounds s).ready = []) :
    Ends (successorLists steps) s (Sorting.run (successorLists steps) rounds s) := by
  induction rounds generalizing s with
  | zero => exact .done hover
  | succ rounds ih =>
    rw [Sorting.run] at hover ⊢
    split
    · rename_i hready
      exact .done hready
    · rename_i i ready hready
      rw [hready] at hover
      exact .next hready (h.place?_eq hnum hrange hready) (ih (h.place hnum hrange hready) hover)

theorem ends_sorting : Ends (successorLists steps) (start steps) (sorting steps) :=
  (sound_start hnum).ends_run hnum hrange (ready_sorting hnum hrange)

end Loop

end Sorting

section Accepted

variable {steps : List Step} {p : Plan} (h : ofSteps steps = .ok p)
include h

theorem steps_of_ofSteps : p.steps = steps := by
  obtain ⟨-, -, -, rfl⟩ := ofSteps_eq_ok h
  rfl

theorem respects_of_ofSteps : Respects steps p.order := by
  have hp := wellFormed_of_ofSteps h
  have hsteps := steps_of_ofSteps h
  have hids : (steps.map Step.id).Nodup := by
    rw [← hsteps, hp.numbered.map_id]
    exact List.nodup_range
  refine ⟨(List.perm_ext_iff_of_nodup (nodup_order h) hids).mpr fun i ↦ ?_, fun x hx a ha ↦ ?_⟩
  · rw [List.mem_map, ← hsteps]
    constructor
    · exact fun hi ↦ exists_of_mem_order h hi
    · rintro ⟨x, hx, rfl⟩
      exact mem_order h hx
  · rw [← hsteps] at hx
    obtain ⟨before, after, horder⟩ := List.append_of_mem (mem_order h hx)
    have hbefore := (order_eq_append h horder).1 a ((hp.precedes_iff hx).mpr ha)
    have hnodup := nodup_order h
    rw [horder] at hnodup
    have hnot : x.id ∉ before := fun hmem ↦
      List.disjoint_of_nodup_append hnodup hmem (List.mem_cons_self ..)
    rw [horder, List.idxOf_append_of_mem hbefore, List.idxOf_append_of_notMem hnot]
    exact Nat.lt_of_lt_of_le (List.idxOf_lt_length_of_mem hbefore) (Nat.le_add_right ..)

/-- From a common beginning on, the order of the plan goes on as low as any other. -/
theorem order_least_from {other : List Nat} (hother : Respects steps other)
    {before after after' : List Nat} (horder : p.order = before ++ after)
    (heq : other = before ++ after') :
    after = after' ∨ List.Lex (· < ·) after after' := by
  have hperm := (respects_of_ofSteps h).perm.trans hother.perm.symm
  induction after generalizing before after' with
  | nil =>
    have hlen := hperm.length_eq
    rw [horder, heq, List.length_append, List.length_append, List.length_nil] at hlen
    exact .inl (List.eq_nil_of_length_eq_zero (by omega)).symm
  | cons i after ih =>
    cases after' with
    | nil =>
      have hlen := hperm.length_eq
      rw [horder, heq, List.length_append, List.length_append, List.length_cons,
        List.length_nil] at hlen
      omega
    | cons k after' =>
      by_cases hik : i = k
      · subst k
        have hrest := @ih (before ++ [i]) after' (by simp [horder]) (by simp [heq])
        exact hrest.imp (congrArg _) .cons
      · -- the other list has `k` here, so `k` could have come here
        have hnodup : other.Nodup := hperm.nodup (nodup_order h)
        have hk : k ∈ p.order := hperm.mem_iff.mpr (by simp [heq])
        obtain ⟨x, hx, rfl⟩ := exists_of_mem_order h hk
        rw [heq] at hnodup
        have hnot : x.id ∉ before := fun hmem ↦
          List.disjoint_of_nodup_append hnodup hmem (List.mem_cons_self ..)
        have hfree : ∀ a ∈ x.predecessors, a ∈ before := by
          intro a ha
          have hlt := hother.behind x (steps_of_ofSteps h ▸ hx) a ha
          rw [heq, List.idxOf_append_of_notMem hnot, List.idxOf_cons_self] at hlt
          by_contra hmem
          rw [List.idxOf_append_of_notMem hmem] at hlt
          omega
        have hle := (order_eq_append h horder).2 x hx hnot hfree
        exact .inr (.rel (Nat.lt_of_le_of_ne hle hik))

end Accepted

/-- What becomes of a list of steps. -/
structure Sorts (steps : List Step) : Prop where
  /-- It is accepted exactly if each number is a position, every predecessor is a step of the list,
  and no step waits for itself. -/
  accepted_iff : (∃ p, ofSteps steps = .ok p) ↔
    Numbered steps ∧ (∀ x ∈ steps, ∀ a ∈ x.predecessors, ∃ y ∈ steps, y.id = a) ∧ ¬ Cyclic steps
  steps_eq : ∀ p, ofSteps steps = .ok p → p.steps = steps
  respects : ∀ p, ofSteps steps = .ok p → Respects steps p.order
  least : ∀ p, ofSteps steps = .ok p → ∀ other, Respects steps other →
    p.order = other ∨ List.Lex (· < ·) p.order other
  count_successors : ∀ p, ofSteps steps = .ok p → ∀ a b, (p.successors a).count b ≤ 1 ∧
    ((p.successors a).count b = 1 ↔ Linked steps a b)
  /-- Wherever the order is looked for, the loop passes all its checks and comes to its end. -/
  ends : Numbered steps → InRange steps →
    Sorting.Ends (successorLists steps) (.start steps) (sorting steps)

theorem inRange_iff {steps : List Step} (hnum : Numbered steps) :
    InRange steps ↔ ∀ x ∈ steps, ∀ a ∈ x.predecessors, ∃ y ∈ steps, y.id = a := by
  refine forall₂_congr fun x _ ↦ forall₂_congr fun a _ ↦ ?_
  constructor
  · exact fun hlt ↦ ⟨_, List.getElem_mem hlt, hnum a _ (List.getElem?_eq_getElem hlt)⟩
  · rintro ⟨y, hy, rfl⟩
    exact hnum.lt_length hy

/-- Steps whose predecessors are sets are sorted, unless there is a cycle. -/
theorem sorts_of_nodup {steps : List Step} (hsets : ∀ x ∈ steps, x.predecessors.Nodup) :
    Sorts steps := by
  refine ⟨⟨?_, ?_⟩, fun p h ↦ steps_of_ofSteps h, fun p h ↦ respects_of_ofSteps h,
    fun p h other hother ↦ ?_, fun p h a b ↦ ?_, Sorting.ends_sorting⟩
  · rintro ⟨p, h⟩
    obtain ⟨hnum, hrange, -⟩ := ofSteps_eq_ok h
    refine ⟨hnum, (inRange_iff hnum).mp hrange, ?_⟩
    rcases ofSteps_cases hnum hrange hsets with ⟨hacyclic, -⟩ | ⟨-, labels, herror⟩
    · exact hacyclic
    · rw [h] at herror
      cases herror
  · rintro ⟨hnum, hrange, hacyclic⟩
    rcases ofSteps_cases hnum ((inRange_iff hnum).mpr hrange) hsets with ⟨-, hok⟩ | ⟨hcyclic, -⟩
    · exact hok
    · exact absurd hcyclic hacyclic
  · have horder : p.order = [] ++ p.order := rfl
    exact order_least_from h hother horder (List.nil_append other).symm
  · have hp := wellFormed_of_ofSteps h
    have hnodup := List.nodup_iff_count_le_one.mp (hp.nodup_successors a)
    refine ⟨hnodup b, ?_⟩
    have hmem : b ∈ p.successors a ↔ Linked steps a b := by
      rw [hp.mem_successors, Precedes, Linked, step?, steps_of_ofSteps h]
    rw [← hmem, ← List.count_pos_iff]
    have hle := hnodup b
    omega

def diamond : List Step :=
  [(0, [1, 4]), (1, [2]), (2, []), (3, []), (4, [2])].map fun x ↦
    { id := x.1, host := "oss01", role := .client, name := "step", kind := .command,
      action := .run "true", predecessors := x.2 }

theorem sorts_diamond : (∀ x ∈ diamond, x.predecessors.Nodup) ∧ Sorts diamond ∧
    (∃ p, ofSteps diamond = .ok p ∧ p.order = [2, 1, 3, 4, 0]) :=
  have hsets : ∀ x ∈ diamond, x.predecessors.Nodup := by decide
  ⟨hsets, sorts_of_nodup hsets, _, rfl, by decide⟩

end Rollout.Plan
