import Rollout.Plan.Basic
import Rollout.Proofs.Plan.Counting

namespace Rollout.Plan

def Numbered (steps : List Step) : Prop := ∀ i (x : Step), steps[i]? = some x → x.id = i

def InRange (steps : List Step) : Prop := ∀ x ∈ steps, ∀ a ∈ x.predecessors, a < steps.length

theorem numberFlaw?_eq_none {count position : Nat} {x : Step} :
    numberFlaw? count position x = none ↔
      x.id = position ∧ ∀ a ∈ x.predecessors, a < count := by
  by_cases h : x.id = position
  · simp [numberFlaw?, h]
  · simp [numberFlaw?, h]

theorem numbersFlaw?_eq_none {steps : List Step} :
    numbersFlaw? steps = none ↔ Numbered steps ∧ InRange steps := by
  simp only [numbersFlaw?, List.findSome?_eq_none_iff, numberFlaw?_eq_none]
  constructor
  · intro h
    refine ⟨fun i x hx ↦ (h (x, i) (List.mk_mem_zipIdx_iff_getElem?.mpr hx)).1, fun x hx ↦ ?_⟩
    obtain ⟨i, hi⟩ := List.mem_iff_getElem?.mp hx
    exact (h (x, i) (List.mk_mem_zipIdx_iff_getElem?.mpr hi)).2
  · rintro ⟨hnum, hrange⟩ ⟨x, i⟩ hx
    have hi := List.mk_mem_zipIdx_iff_getElem?.mp hx
    exact ⟨hnum i x hi, hrange x (List.mem_of_getElem? hi)⟩

section Numbered

variable {steps : List Step} (hnum : Numbered steps)
include hnum

theorem Numbered.map_id : steps.map Step.id = List.range steps.length := by
  apply List.ext_getElem (by simp)
  intro i hi _
  simpa using hnum i _ (List.getElem?_eq_getElem (by simpa using hi))

theorem Numbered.getElem? {x : Step} (hx : x ∈ steps) : steps[x.id]? = some x := by
  obtain ⟨i, hi⟩ := List.mem_iff_getElem?.mp hx
  rw [hnum i x hi, hi]

theorem Numbered.lt_length {x : Step} (hx : x ∈ steps) : x.id < steps.length :=
  (List.getElem?_eq_some_iff.mp (hnum.getElem? hx)).1

theorem Numbered.eq_of_id {x y : Step} (hx : x ∈ steps) (hy : y ∈ steps) (h : x.id = y.id) :
    x = y := by
  have hx' := hnum.getElem? hx
  rw [h, hnum.getElem? hy] at hx'
  exact (Option.some.inj hx').symm

theorem Numbered.map_id_filter (p : Step → Bool) :
    ((steps.filter p).map Step.id).Pairwise (· < ·) := by
  have h : (steps.map Step.id).Pairwise (· < ·) := hnum.map_id ▸ List.pairwise_lt_range
  exact h.sublist (List.filter_sublist.map Step.id)

end Numbered

theorem mem_map_id_filter {steps : List Step} {p : Step → Bool} {i : Nat} :
    i ∈ (steps.filter p).map Step.id ↔ ∃ x ∈ steps, p x = true ∧ x.id = i := by
  simp [and_assoc]

theorem getElem?_successorLists (steps : List Step) (a : Nat) :
    ((successorLists steps)[a]?).getD [] =
      if a < steps.length then (steps.filter fun x ↦ x.predecessors.contains a).map Step.id
      else [] := by
  simp only [successorLists, List.getElem?_map]
  split <;> simp_all

theorem mem_successorLists {steps : List Step} (hrange : InRange steps) {a b : Nat} :
    b ∈ ((successorLists steps)[a]?).getD [] ↔ ∃ x ∈ steps, a ∈ x.predecessors ∧ x.id = b := by
  rw [getElem?_successorLists]
  split
  · simp [and_assoc]
  · rename_i h
    simp only [List.not_mem_nil, false_iff, not_exists, not_and]
    exact fun x hx ha ↦ absurd (hrange x hx a ha) h

theorem nodup_successorLists {steps : List Step} (hnum : Numbered steps) (a : Nat) :
    (((successorLists steps)[a]?).getD []).Nodup := by
  rw [getElem?_successorLists]
  split
  · exact nodup_of_increasing (hnum.map_id_filter _)
  · exact List.nodup_nil

namespace Sorting

theorem placed_foldl_release (ids : List Nat) (s : Sorting) :
    (ids.foldl release s).placed = s.placed := by
  induction ids generalizing s with
  | nil => rfl
  | cons i ids ih => rw [List.foldl_cons, ih]; rfl

theorem open_foldl_release (ids : List Nat) (s : Sorting) :
    (ids.foldl release s).open_ = ids.foldl lower s.open_ := by
  induction ids generalizing s with
  | nil => rfl
  | cons i ids ih => rw [List.foldl_cons, ih]; rfl

theorem mem_ready_release {s : Sorting} {i k : Nat} :
    k ∈ (s.release i).ready ↔ k ∈ s.ready ∨ k = i ∧ (s.open_[i]?).getD 0 - 1 = 0 := by
  simp only [release]
  split
  · rename_i h
    simp only [mem_insertId, h, and_true]
    tauto
  · rename_i h
    simp [h]

theorem mem_ready_foldl_release {ids : List Nat} (h : ids.Nodup) {s : Sorting} {k : Nat} :
    k ∈ (ids.foldl release s).ready ↔
      k ∈ s.ready ∨ k ∈ ids ∧ (s.open_[k]?).getD 0 - 1 = 0 := by
  induction ids generalizing s with
  | nil => simp
  | cons i ids ih =>
    obtain ⟨hi, hids⟩ := List.nodup_cons.mp h
    have hopen : (s.release i).open_ = lower s.open_ i := rfl
    rw [List.foldl_cons, ih hids, mem_ready_release, hopen, getElem?_lower]
    by_cases hk : i = k
    · subst k
      simp [hi]
    · simp [hk, Ne.symm hk]

theorem ready_foldl_release {ids : List Nat} {s : Sorting} (h : s.ready.Pairwise (· < ·)) :
    (ids.foldl release s).ready.Pairwise (· < ·) := by
  induction ids generalizing s with
  | nil => exact h
  | cons i ids ih =>
    refine ih ?_
    simp only [release]
    split
    · exact pairwise_insertId h
    · exact h

/-- A step that can be placed after these ones: it names its predecessors once, and all of them
stand there. -/
def Free (steps : List Step) (placed : List Nat) (i : Nat) : Prop :=
  ∃ x ∈ steps, x.id = i ∧ x.predecessors.Nodup ∧ ∀ a ∈ x.predecessors, a ∈ placed

theorem free_iff {steps : List Step} (hnum : Numbered steps) {placed : List Nat}
    (hplaced : placed.Nodup) {x : Step} (hx : x ∈ steps) :
    Free steps placed x.id ↔
      x.predecessors.length - (placed.filter (· ∈ x.predecessors)).length = 0 := by
  rw [Nat.sub_eq_zero_iff_le, length_le_filter_iff hplaced]
  constructor
  · rintro ⟨y, hy, hid, h⟩
    rwa [hnum.eq_of_id hy hx hid] at h
  · exact fun h ↦ ⟨x, hx, rfl, h⟩

theorem Free.mono {steps : List Step} {placed placed' : List Nat} {i : Nat}
    (h : Free steps placed i) (hsub : placed ⊆ placed') : Free steps placed' i := by
  obtain ⟨x, hx, hid, hnodup, hall⟩ := h
  exact ⟨x, hx, hid, hnodup, fun a ha ↦ hsub (hall a ha)⟩

/-- The steps placed, last first, each after its predecessors. -/
def Ordered (steps : List Step) : List Nat → Prop
  | [] => True
  | i :: placed => i ∉ placed ∧ Free steps placed i ∧ Ordered steps placed

theorem Ordered.nodup {steps : List Step} {placed : List Nat} (h : Ordered steps placed) :
    placed.Nodup := by
  induction placed with
  | nil => exact List.nodup_nil
  | cons i placed ih => exact List.nodup_cons.mpr ⟨h.1, ih h.2.2⟩

theorem Ordered.free {steps : List Step} {placed : List Nat} (h : Ordered steps placed) {i : Nat}
    (hi : i ∈ placed) : Free steps placed i := by
  induction placed with
  | nil => simp at hi
  | cons k placed ih =>
    rcases List.mem_cons.mp hi with rfl | hi
    · exact h.2.1.mono (List.subset_cons_self _ _)
    · exact (ih h.2.2 hi).mono (List.subset_cons_self _ _)

/-- What holds of an order that is being built. -/
structure Sound (steps : List Step) (s : Sorting) : Prop where
  ordered : Ordered steps s.placed
  increasing : s.ready.Pairwise (· < ·)
  open_eq : ∀ x ∈ steps, s.open_[x.id]? =
    some (x.predecessors.length - (s.placed.filter (· ∈ x.predecessors)).length)
  ready_iff : ∀ i, i ∈ s.ready ↔ i ∉ s.placed ∧ Free steps s.placed i

section Steps

variable {steps : List Step} (hnum : Numbered steps) (hrange : InRange steps)
include hnum

theorem sound_start : Sound steps (start steps) where
  ordered := trivial
  increasing := by
    have h : ∀ xs : List Step, (xs.foldr (fun x ids ↦ insertId x.id ids) []).Pairwise (· < ·) := by
      intro xs
      induction xs with
      | nil => exact List.Pairwise.nil
      | cons x xs ih => exact pairwise_insertId ih
    exact h _
  open_eq x hx := by
    rw [start, List.getElem?_map, hnum.getElem? hx]
    rfl
  ready_iff i := by
    have h : ∀ xs : List Step,
        i ∈ xs.foldr (fun x ids ↦ insertId x.id ids) [] ↔ ∃ x ∈ xs, x.id = i := by
      intro xs
      induction xs with
      | nil => simp
      | cons x xs ih => simp [mem_insertId, ih, eq_comm]
    simp only [start, h, List.mem_filter, List.isEmpty_iff, Free, List.not_mem_nil,
      not_false_eq_true, true_and, imp_false]
    constructor
    · rintro ⟨x, ⟨hx, he⟩, hid⟩
      exact ⟨x, hx, hid, by simp [he], by simp [he]⟩
    · rintro ⟨x, hx, hid, -, hall⟩
      exact ⟨x, ⟨hx, List.eq_nil_iff_forall_not_mem.mpr hall⟩, hid⟩

include hrange

theorem mem_successorLists_iff {i : Nat} {x : Step} (hx : x ∈ steps) :
    x.id ∈ ((successorLists steps)[i]?).getD [] ↔ i ∈ x.predecessors := by
  rw [mem_successorLists hrange]
  constructor
  · rintro ⟨y, hy, ha, hid⟩
    rwa [← hnum.eq_of_id hy hx hid]
  · exact fun ha ↦ ⟨x, hx, ha, rfl⟩

/-- The steps that are free when one more is placed were free before, or had it as their last open
predecessor. -/
theorem Sound.free_cons_iff {s : Sorting} (h : Sound steps s) {i : Nat} (hi : i ∉ s.placed)
    (hfree : Free steps s.placed i) (k : Nat) :
    (k ≠ i ∧ k ∉ s.placed ∧ Free steps s.placed k) ∨
        (k ∈ ((successorLists steps)[i]?).getD [] ∧ (s.open_[k]?).getD 0 - 1 = 0) ↔
      (k ≠ i ∧ k ∉ s.placed) ∧ Free steps (i :: s.placed) k := by
  have hord : Ordered steps (i :: s.placed) := ⟨hi, hfree, h.ordered⟩
  constructor
  · rintro (⟨hne, hk, hold⟩ | ⟨hk, hzero⟩)
    · exact ⟨⟨hne, hk⟩, hold.mono (List.subset_cons_self _ _)⟩
    · obtain ⟨x, hx, hix, rfl⟩ := (mem_successorLists hrange).mp hk
      rw [h.open_eq x hx, Option.getD_some] at hzero
      -- the last open predecessor was not placed before, so neither was the step itself
      have hnew : x.id ∉ i :: s.placed := by
        intro hmem
        obtain ⟨y, hy, hid, -, hall⟩ : Free steps s.placed x.id := by
          rcases List.mem_cons.mp hmem with he | hmem
          · exact he ▸ hfree
          · exact h.ordered.free hmem
        rw [hnum.eq_of_id hy hx hid] at hall
        exact hi (hall i hix)
      refine ⟨not_or.mp (by simpa using hnew), (free_iff hnum hord.nodup hx).mpr ?_⟩
      simp only [List.filter_cons, hix, decide_true, if_true, List.length_cons]
      omega
  · rintro ⟨⟨hne, hk⟩, hnew⟩
    by_cases hold : Free steps s.placed k
    · exact .inl ⟨hne, hk, hold⟩
    · obtain ⟨x, hx, rfl, hrest⟩ := hnew
      have hzero := (free_iff hnum hord.nodup hx).mp ⟨x, hx, rfl, hrest⟩
      have hix : i ∈ x.predecessors := by
        by_contra hix
        exact hold ⟨x, hx, rfl, hrest.1, fun a ha ↦
          (List.mem_cons.mp (hrest.2 a ha)).resolve_left fun he ↦ hix (he ▸ ha)⟩
      refine .inr ⟨(mem_successorLists hrange).mpr ⟨x, hx, hix, rfl⟩, ?_⟩
      rw [h.open_eq x hx, Option.getD_some]
      simp only [List.filter_cons, hix, decide_true, if_true, List.length_cons] at hzero
      omega

theorem Sound.place {s : Sorting} (h : Sound steps s) {i : Nat} {ready : List Nat}
    (hready : s.ready = i :: ready) :
    Sound steps (place (successorLists steps) { s with ready := ready } i) := by
  obtain ⟨hi, hfree⟩ := (h.ready_iff i).mp (by simp [hready])
  obtain ⟨hlt, hinc⟩ := List.pairwise_cons.mp (hready ▸ h.increasing)
  have hnodup := nodup_successorLists hnum i
  simp only [Sorting.place]
  refine ⟨?_, ready_foldl_release hinc, ?_, ?_⟩
  · rw [placed_foldl_release]
    exact ⟨hi, hfree, h.ordered⟩
  · intro x hx
    rw [open_foldl_release, getElem?_foldl_lower hnodup, placed_foldl_release, h.open_eq x hx]
    have hmem := mem_successorLists_iff hnum hrange (i := i) hx
    by_cases hix : i ∈ x.predecessors
    · simp only [hmem, hix, if_true, Option.map_some, List.filter_cons, decide_true,
        List.length_cons, Option.some.injEq]
      omega
    · simp [hmem, hix]
  · intro k
    rw [mem_ready_foldl_release hnodup, placed_foldl_release]
    have hold : k ∈ ready ↔ k ≠ i ∧ k ∈ s.ready := by
      rw [hready, List.mem_cons]
      constructor
      · exact fun hk ↦ ⟨fun he ↦ by have := hlt k hk; omega, .inr hk⟩
      · rintro ⟨hne, hk⟩
        exact hk.resolve_left hne
    rw [hold, h.ready_iff k, List.mem_cons, not_or]
    exact h.free_cons_iff hnum hrange hi hfree k

theorem Sound.run {s : Sorting} (h : Sound steps s) (rounds : Nat) :
    Sound steps (run (successorLists steps) rounds s) := by
  induction rounds generalizing s with
  | zero => exact h
  | succ rounds ih =>
    simp only [Sorting.run]
    split
    · exact h
    · rename_i i ready hready
      exact ih (h.place hnum hrange hready)

theorem sound_sorting : Sound steps (sorting steps) := (sound_start hnum).run hnum hrange _

end Steps

end Sorting

end Rollout.Plan
