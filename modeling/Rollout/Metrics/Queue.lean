
namespace Rollout

/-- A queue, oldest item first, with the number of items it has dropped. -/
structure BoundedQueue (α : Type) where
  items : List α
  capacity : Nat
  dropped : Nat
  deriving DecidableEq, Repr, Inhabited

namespace BoundedQueue

variable {α : Type}

def empty (capacity : Nat) : BoundedQueue α := ⟨[], max capacity 1, 0⟩

def size (q : BoundedQueue α) : Nat := q.items.length

def isFull (q : BoundedQueue α) : Bool := q.capacity ≤ q.size

def push (q : BoundedQueue α) (a : α) : BoundedQueue α :=
  if q.isFull then { q with items := q.items.drop 1 ++ [a], dropped := q.dropped + 1 }
  else { q with items := q.items ++ [a] }

def extend (q : BoundedQueue α) (as : List α) : BoundedQueue α := as.foldl push q

def peek (q : BoundedQueue α) (n : Nat) : List α := q.items.take n

def consume (q : BoundedQueue α) (n : Nat) : BoundedQueue α := { q with items := q.items.drop n }

/-- Cuts a list into pieces of `n` items, of which the last may be shorter; `left` items are still
missing in the piece being filled, which is given last item first. -/
def batchesFrom (n : Nat) (piece : List α) (left : Nat) : List α → List (List α)
  | [] => if piece.isEmpty then [] else [piece.reverse]
  | a :: as =>
    match left with
    | 0 | 1 => (a :: piece).reverse :: batchesFrom n [] n as
    | left + 2 => batchesFrom n (a :: piece) (left + 1) as

def batches (q : BoundedQueue α) (n : Nat) : List (List α) := batchesFrom n [] n q.items

end BoundedQueue

end Rollout
