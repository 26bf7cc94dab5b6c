import Rollout.Plan.Step

namespace Rollout.Plan

def insertId (n : Nat) : List Nat → List Nat
  | [] => [n]
  | m :: ms => if n < m then n :: m :: ms else if n = m then m :: ms else m :: insertId n ms

def successorLists (steps : List Step) : List (List Nat) :=
  (List.range steps.length).map fun a ↦
    (steps.filter fun s ↦ s.predecessors.contains a).map Step.id

/-- An order being built: for every step the number of its predecessors not placed yet, the ready
steps in increasing order, and the steps placed, last first. -/
structure Sorting where
  open_ : List Nat
  ready : List Nat
  placed : List Nat
  deriving DecidableEq, Repr

def Sorting.release (s : Sorting) (id : Nat) : Sorting :=
  let count := (s.open_[id]?).getD 0 - 1
  { s with
    open_ := s.open_.set id count
    ready := if count = 0 then insertId id s.ready else s.ready }

def Sorting.place (successors : List (List Nat)) (s : Sorting) (id : Nat) : Sorting :=
  ((successors[id]?).getD []).foldl Sorting.release { s with placed := id :: s.placed }

/-- Places ready steps until none is left; every round places one. -/
def Sorting.run (successors : List (List Nat)) : Nat → Sorting → Sorting
  | 0, s => s
  | rounds + 1, s =>
    match s.ready with
    | [] => s
    | id :: ready => run successors rounds (place successors { s with ready := ready } id)

def Sorting.start (steps : List Step) : Sorting where
  open_ := steps.map fun s ↦ s.predecessors.length
  ready := (steps.filter fun s ↦ s.predecessors.isEmpty).foldr (fun s ids ↦ insertId s.id ids) []
  placed := []

def sorting (steps : List Step) : Sorting :=
  Sorting.run (successorLists steps) steps.length (.start steps)

def stuck (steps : List Step) (s : Sorting) : List Step :=
  steps.filter fun x ↦ 0 < (s.open_[x.id]?).getD 0

/-- The order of the steps, or the plan's fault that there is none. It names up to five of the
steps that cannot be placed. -/
def topologicalOrder (steps : List Step) : Result (List Nat) :=
  let s := sorting steps
  if s.placed.length < steps.length then
    .error (.plan ("dependency cycle among install steps: " ++
      String.intercalate ", " (((stuck steps s).take 5).map Step.label)))
  else .ok s.placed.reverse

end Rollout.Plan
