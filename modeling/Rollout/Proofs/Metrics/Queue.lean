import Rollout.Metrics.Queue

namespace Rollout.BoundedQueue

variable {α : Type} {q : BoundedQueue α} {a : α}

/-- A queue that may hold something, and holds no more than it may. -/
structure Fits (q : BoundedQueue α) : Prop where
  capacity_pos : 0 < q.capacity
  size_le : q.size ≤ q.capacity

theorem fits_empty (capacity : Nat) : (empty capacity : BoundedQueue α).Fits :=
  ⟨Nat.le_max_right .., Nat.zero_le _⟩

theorem push_of_lt (h : q.size < q.capacity) : q.push a = { q with items := q.items ++ [a] } := by
  rw [push, isFull, if_neg (by simpa using h)]

theorem push_of_le (h : q.capacity ≤ q.size) :
    q.push a = { q with items := q.items.drop 1 ++ [a], dropped := q.dropped + 1 } := by
  rw [push, isFull, if_pos (decide_eq_true h)]

@[simp] theorem capacity_push : (q.push a).capacity = q.capacity := by
  unfold push
  split <;> rfl

@[simp] theorem capacity_extend (as : List α) : (q.extend as).capacity = q.capacity := by
  induction as generalizing q with
  | nil => rfl
  | cons a as ih => exact ih.trans capacity_push

def overflow (q : BoundedQueue α) (n : Nat) : Nat := q.size + n - q.capacity

namespace Fits

theorem size_push_le (h : q.Fits) : (q.push a).size ≤ q.capacity := by
  have hpos := h.capacity_pos
  have hle := h.size_le
  rcases Nat.lt_or_ge q.size q.capacity with hroom | hfull
  · rw [push_of_lt hroom, size, List.length_append]
    exact hroom
  · rw [push_of_le hfull, size, List.length_append, List.length_drop, List.length_singleton]
    rw [size] at hle hfull
    omega

theorem push (h : q.Fits) (a : α) : (q.push a).Fits :=
  ⟨by simpa using h.capacity_pos, by simpa using h.size_push_le⟩

theorem consume (h : q.Fits) (n : Nat) : (q.consume n).Fits := by
  refine ⟨h.capacity_pos, ?_⟩
  calc (q.consume n).size = q.size - n := List.length_drop
    _ ≤ q.size := Nat.sub_le ..
    _ ≤ q.capacity := h.size_le

theorem push_eq (h : q.Fits) (a : α) : q.push a = { q with
    items := (q.items ++ [a]).drop (q.overflow 1), dropped := q.dropped + q.overflow 1 } := by
  have hpos := h.capacity_pos
  have hle := h.size_le
  rcases Nat.lt_or_ge q.size q.capacity with hroom | hfull
  · have hover : q.overflow 1 = 0 := Nat.sub_eq_zero_of_le hroom
    rw [push_of_lt hroom, hover]
    rfl
  · have hover : q.overflow 1 = 1 := by
      rw [overflow]
      omega
    have hlen : 1 ≤ q.items.length := Nat.le_trans hpos hfull
    rw [push_of_le hfull, hover, List.drop_append_of_le_length hlen]

theorem extend_eq (h : q.Fits) (as : List α) : q.extend as = { q with
    items := (q.items ++ as).drop (q.overflow as.length)
    dropped := q.dropped + q.overflow as.length } := by
  induction as generalizing q with
  | nil =>
    have hover : q.overflow 0 = 0 := Nat.sub_eq_zero_of_le h.size_le
    rw [List.length_nil, hover, List.append_nil]
    rfl
  | cons a as ih =>
    have hpos := h.capacity_pos
    have hle := h.size_le
    have hfirst : q.overflow 1 ≤ (q.items ++ [a]).length := by
      rw [overflow, List.length_append, List.length_singleton, size]
      omega
    -- What the first item pushes out and what the others then push out make up the whole.
    have hsum : q.overflow 1 + (q.push a).overflow as.length = q.overflow (a :: as).length := by
      rw [h.push_eq a]
      simp only [overflow, size, List.length_drop, List.length_append, List.length_cons,
        List.length_nil] at hle ⊢
      omega
    calc (q.push a).extend as
        = { q.push a with
            items := ((q.push a).items ++ as).drop ((q.push a).overflow as.length)
            dropped := (q.push a).dropped + (q.push a).overflow as.length } := ih (h.push a)
      _ = { q with
            items := ((q.items ++ [a]) ++ as).drop (q.overflow (a :: as).length)
            dropped := q.dropped + q.overflow (a :: as).length } := by
          rw [← hsum, h.push_eq a]
          simp only [← List.drop_append_of_le_length hfirst, List.drop_drop, Nat.add_assoc]
      _ = _ := by rw [List.append_assoc, List.singleton_append]

end Fits

theorem flatten_batchesFrom (n : Nat) (piece : List α) (left : Nat) (as : List α) :
    (batchesFrom n piece left as).flatten = piece.reverse ++ as := by
  fun_induction batchesFrom n piece left as with
  | case1 piece _ hnil => simpa using hnil
  | case2 => simp
  | case3 piece a as ih | case4 piece a as ih => simp [ih]
  | case5 piece a as left ih => simp [ih]

theorem flatten_batches (n : Nat) : (q.batches n).flatten = q.items :=
  flatten_batchesFrom n [] n q.items

end Rollout.BoundedQueue
