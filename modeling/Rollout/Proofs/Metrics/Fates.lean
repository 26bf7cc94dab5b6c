import Rollout.Fault
import Rollout.Proofs.Metrics.Queue

namespace Rollout

inductive Fate
  | waiting
  | delivered
  | dropped
  deriving DecidableEq

/-- What happens on the way of items: one is produced, or a batch is written, which may be
refused. -/
inductive Happening (α : Type)
  | produced (a : α)
  | written (batch : List α) (refusal : Option Fault)

namespace Happening

variable {α : Type}

def product? : Happening α → Option α
  | .produced a => some a
  | .written .. => none

def taken? : Happening α → Option (List α)
  | .written batch none => some batch
  | _ => none

end Happening

/-- Items in the order of their production, with their fates. -/
abbrev Fates (α : Type) := List (α × Fate)

namespace Fates

variable {α : Type} {l l' : Fates α} {a : α} {x y : Fate} {n capacity : Nat}

def having (x : Fate) (l : Fates α) : List α := (l.filter fun e ↦ e.2 = x).map Prod.fst

def settle (x : Fate) : (n : Nat) → Fates α → Fates α
  | 0, l => l
  | _ + 1, [] => []
  | n + 1, (a, .waiting) :: l => (a, x) :: settle x n l
  | n + 1, e :: l => e :: settle x (n + 1) l

/-- What becomes of the items when something happens, if at most `capacity` can wait. -/
def after (capacity : Nat) (l : Fates α) : Happening α → Fates α
  | .produced a =>
    (if (l.having .waiting).length < capacity then l else l.settle .dropped 1) ++ [(a, .waiting)]
  | .written batch none => l.settle .delivered batch.length
  | .written _ (some _) => l

def ofHistory (capacity : Nat) (history : List (Happening α)) : Fates α :=
  history.foldl (after capacity) []

def all (x : Fate) (as : List α) : Fates α := as.map fun a ↦ (a, x)

/-- Nothing waits any more. -/
def Closed (l : Fates α) : Prop := ∀ e ∈ l, e.2 ≠ .waiting

theorem closed_all (h : x ≠ .waiting) (as : List α) : (all x as).Closed := by
  intro e he
  obtain ⟨a, -, rfl⟩ := List.mem_map.mp he
  exact h

theorem Closed.append (h : l.Closed) (h' : l'.Closed) : Closed (l ++ l') :=
  fun e he ↦ (List.mem_append.mp he).elim (h e) (h' e)

@[simp] theorem having_append : having x (l ++ l') = l.having x ++ l'.having x := by
  rw [having, List.filter_append, List.map_append]
  rfl

@[simp] theorem having_all_self (as : List α) : (all x as).having x = as := by
  simp [having, all, List.filter_map, Function.comp_def]

theorem having_all_of_ne (h : x ≠ y) (as : List α) : (all x as).having y = [] := by
  simp [having, all, h]

theorem map_fst_all (x : Fate) (as : List α) : (all x as).map Prod.fst = as := by
  simp [all, Function.comp_def]

theorem Closed.having_waiting (h : l.Closed) : l.having .waiting = [] := by
  rw [having, List.map_eq_nil_iff, List.filter_eq_nil_iff]
  exact fun e he ↦ by simpa using h e he

theorem length_eq : l.length = (l.having .delivered).length + (l.having .dropped).length +
    (l.having .waiting).length := by
  induction l with
  | nil => rfl
  | cons e l ih =>
    obtain ⟨a, x⟩ := e
    cases x <;> simp only [having, List.length_map] at ih ⊢ <;> simp <;> omega

theorem map_fst_settle (x : Fate) (n : Nat) (l : Fates α) :
    (l.settle x n).map Prod.fst = l.map Prod.fst := by
  fun_induction settle x n l with
  | case1 | case2 => rfl
  | case3 n a l ih => exact congrArg (a :: ·) ih
  | case4 n e l _ ih => exact congrArg (e.1 :: ·) ih

theorem map_fst_after (m : Happening α) :
    (l.after capacity m).map Prod.fst = l.map Prod.fst ++ m.product?.toList := by
  cases m with
  | produced a =>
    rw [after, List.map_append]
    split
    · rfl
    · rw [map_fst_settle]
      rfl
  | written batch refusal =>
    cases refusal with
    | none => exact (map_fst_settle ..).trans (List.append_nil _).symm
    | some fault => exact (List.append_nil _).symm

theorem map_fst_ofHistory (capacity : Nat) (history : List (Happening α)) :
    (ofHistory capacity history).map Prod.fst = history.filterMap Happening.product? := by
  have hfrom : ∀ l : Fates α, (history.foldl (after capacity) l).map Prod.fst =
      l.map Prod.fst ++ history.filterMap Happening.product? := by
    induction history with
    | nil => exact fun l ↦ (List.append_nil _).symm
    | cons m history ih =>
      intro l
      rw [List.foldl_cons, ih, map_fst_after, List.append_assoc]
      cases hm : m.product? <;> simp [hm]
  exact hfrom []

theorem Closed.settle (h : l.Closed) (x : Fate) (n : Nat) (as : List α) :
    settle x n (l ++ all .waiting as) = l ++ all x (as.take n) ++ all .waiting (as.drop n) := by
  -- `settle` passes over what is settled, so `l` goes first; then it eats up `n` along `as`.
  induction l generalizing n with
  | nil =>
    induction as generalizing n with
    | nil => cases n <;> simp [Fates.settle, all]
    | cons a as ih =>
      cases n with
      | zero => simp [Fates.settle, all]
      | succ n => exact congrArg ((a, x) :: ·) (ih n)
  | cons e l ih =>
    obtain ⟨he, hl⟩ := List.forall_mem_cons.mp h
    cases n with
    | zero => simp [Fates.settle, all]
    | succ n =>
      obtain ⟨a, y⟩ := e
      cases y with
      | waiting => exact absurd rfl he
      | delivered | dropped => exact congrArg (_ :: ·) (ih hl (n + 1))

/-- The items that wait stand last, and are those of the queue, which has counted the others that
were dropped. -/
structure Follow (l : Fates α) (q : BoundedQueue α) : Prop where
  waiting_last : ∃ settled : Fates α, settled.Closed ∧ l = settled ++ all .waiting q.items
  dropped_eq : q.dropped = (l.having .dropped).length

namespace Follow

variable {q : BoundedQueue α}

theorem empty (capacity : Nat) : Follow ([] : Fates α) (.empty capacity) :=
  ⟨⟨[], fun _ he ↦ absurd he List.not_mem_nil, rfl⟩, rfl⟩

theorem having_waiting (h : l.Follow q) : l.having .waiting = q.items := by
  obtain ⟨settled, hclosed, rfl⟩ := h.waiting_last
  rw [having_append, hclosed.having_waiting, having_all_self, List.nil_append]

theorem items_eq (h : l.Follow q) :
    q.items = (l.map Prod.fst).drop (l.length - q.items.length) := by
  obtain ⟨settled, -, rfl⟩ := h.waiting_last
  have hlen : (settled ++ all .waiting q.items).length - q.items.length = settled.length := by
    rw [List.length_append, all, List.length_map, Nat.add_sub_cancel]
  rw [hlen, List.map_append, List.drop_left' (List.length_map _), map_fst_all]

/-- What was delivered, and then what waits: these are the items that were not dropped, in the order
of production. -/
theorem having_delivered_append (h : l.Follow q) :
    l.having .delivered ++ q.items = (l.filter fun e ↦ e.2 ≠ .dropped).map Prod.fst := by
  obtain ⟨settled, hclosed, rfl⟩ := h.waiting_last
  have hsettled : (settled.filter fun e ↦ e.2 ≠ .dropped) =
      settled.filter fun e ↦ e.2 = .delivered := List.filter_congr fun e he ↦ by
    have hne := hclosed e he
    cases hfate : e.2 <;> simp_all
  have hwaiting : ((all .waiting q.items).filter fun e ↦ e.2 ≠ .dropped) =
      all .waiting q.items := List.filter_eq_self.mpr fun e he ↦ by
    obtain ⟨a, -, rfl⟩ := List.mem_map.mp he
    rfl
  rw [having_append, having_all_of_ne (by decide), List.append_nil, List.filter_append, hsettled,
    hwaiting, List.map_append, map_fst_all]
  rfl

theorem settle (h : l.Follow q) (hx : x ≠ .waiting) (n : Nat) :
    (∃ settled : Fates α, settled.Closed ∧
      l.settle x n = settled ++ all .waiting (q.items.drop n)) ∧
    (l.settle x n).having x = l.having x ++ q.items.take n ∧
    ∀ y, y ≠ .waiting → x ≠ y → (l.settle x n).having y = l.having y := by
  obtain ⟨settled, hclosed, rfl⟩ := h.waiting_last
  rw [hclosed.settle]
  refine ⟨⟨_, hclosed.append (closed_all hx _), rfl⟩, ?_, fun y hy hxy ↦ ?_⟩
  · simp [having_all_of_ne hx.symm]
  · simp [having_all_of_ne hy.symm, having_all_of_ne hxy]

theorem push (h : l.Follow q) (hq : q.Fits) (a : α) :
    (l.after q.capacity (.produced a)).Follow (q.push a) := by
  have hwaiting : (l.having .waiting).length = q.size := congrArg List.length h.having_waiting
  rw [after, hwaiting]
  rcases Nat.lt_or_ge q.size q.capacity with hroom | hfull
  · obtain ⟨settled, hclosed, hl⟩ := h.waiting_last
    rw [if_pos hroom, BoundedQueue.push_of_lt hroom]
    refine ⟨⟨settled, hclosed, ?_⟩, ?_⟩
    · rw [hl, List.append_assoc]
      simp [all]
    · rw [having_append, h.dropped_eq]
      simp [having]
  · -- The item at the front of a full queue is the first that waits.
    obtain ⟨⟨settled, hclosed, hl⟩, hdropped, -⟩ := h.settle (x := .dropped) (by decide) 1
    rw [if_neg (Nat.not_lt.mpr hfull), BoundedQueue.push_of_le hfull]
    refine ⟨⟨settled, hclosed, ?_⟩, ?_⟩
    · rw [hl, List.append_assoc]
      simp [all]
    · have hone : 1 ≤ q.items.length := Nat.le_trans hq.capacity_pos hfull
      rw [having_append, hdropped, h.dropped_eq]
      simp [having, List.length_take, Nat.min_eq_left hone]

theorem having_delivered_push (h : l.Follow q) (capacity : Nat) (a : α) :
    (l.after capacity (.produced a)).having .delivered = l.having .delivered := by
  obtain ⟨-, -, hother⟩ := h.settle (x := .dropped) (by decide) 1
  rw [after, having_append]
  split
  · simp [having]
  · rw [hother .delivered (by decide) (by decide)]
    simp [having]

theorem consume (h : l.Follow q) (n : Nat) : (l.settle .delivered n).Follow (q.consume n) := by
  obtain ⟨hlast, -, hother⟩ := h.settle (x := .delivered) (by decide) n
  exact ⟨hlast, by rw [hother .dropped (by decide) (by decide)]; exact h.dropped_eq⟩

theorem having_delivered_settle (h : l.Follow q) (n : Nat) :
    (l.settle .delivered n).having .delivered = l.having .delivered ++ q.items.take n :=
  (h.settle (by decide) n).2.1

end Follow

end Fates

end Rollout
