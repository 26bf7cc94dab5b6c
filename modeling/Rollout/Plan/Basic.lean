import Rollout.Plan.Order

namespace Rollout

/-- A plan. It is made from its steps by `Plan.ofSteps`, which checks them. -/
structure Plan where
  steps : List Step
  successorTable : List (List Nat)
  order : List Nat
  deriving DecidableEq, Repr, Inhabited

namespace Plan

def numberFlaw? (count : Nat) (position : Nat) (s : Step) : Option String :=
  if s.id ≠ position then
    some ("step " ++ Step.tag s.id ++ " is stored at position " ++ Text.decimal position)
  else
    (s.predecessors.find? fun p ↦ decide (count ≤ p)).map fun p ↦
      "step " ++ s.label ++ " depends on unknown step " ++ Step.tag p

def numbersFlaw? (steps : List Step) : Option String :=
  steps.zipIdx.findSome? fun x ↦ numberFlaw? steps.length x.2 x.1

def ofSteps (steps : List Step) : Result Plan :=
  match numbersFlaw? steps with
  | some m => .error (.plan m)
  | none =>
    match topologicalOrder steps with
    | .error e => .error e
    | .ok order => .ok ⟨steps, successorLists steps, order⟩

def step? (p : Plan) (id : Nat) : Option Step := p.steps[id]?

def size (p : Plan) : Nat := p.steps.length

def successors (p : Plan) (id : Nat) : List Nat := (p.successorTable[id]?).getD []

def dependentsFrom (p : Plan) : (fuel : Nat) → (queue seen : List Nat) → List Nat
  | 0, _, seen => seen
  | _ + 1, [], seen => seen
  | fuel + 1, id :: queue, seen =>
    if seen.contains id then dependentsFrom p fuel queue seen
    else dependentsFrom p fuel (queue ++ p.successors id) (insertId id seen)

def edgeCount (p : Plan) : Nat := p.successorTable.foldr (fun ids n ↦ ids.length + n) 0

/-- The steps that wait for a step directly or through others, in increasing order. The queue
holds every successor list at most once, and at its start one of them a second time. -/
def dependents (p : Plan) (id : Nat) : List Nat :=
  dependentsFrom p (2 * p.edgeCount + 1) (p.successors id) []

def stepsForHost (p : Plan) (host : String) : List Step := p.steps.filter fun s ↦ s.host == host

def distinct (xs : List String) : List String :=
  xs.foldl (fun seen x ↦ if seen.contains x then seen else seen ++ [x]) []

def hosts (p : Plan) : List String := distinct (p.steps.map Step.host)

def find? (p : Plan) (host name : String) : Option Step :=
  p.steps.find? fun s ↦ s.host == host && s.name == name

end Plan

end Rollout

namespace Rollout.Plan

def actionText : StepAction → String
  | .run command => command
  | .push localPath remotePath => localPath ++ " -> " ++ remotePath

def foreignPredecessors (p : Plan) (s : Step) : List Step :=
  (s.predecessors.filterMap p.step?).filter fun q ↦ q.host != s.host

def stepText (p : Plan) (s : Step) : String :=
  let foreign := p.foreignPredecessors s
  "  " ++ Text.padLeft 5 (Step.tag s.id) ++ "  " ++ s.role.name ++ "/" ++ s.name ++
    " [" ++ s.kind.name ++ "] " ++ actionText s.action ++
    (if foreign.isEmpty then ""
     else "\n         after " ++ String.intercalate ", "
      (foreign.map fun q ↦ Step.tag q.id ++ " (" ++ q.label ++ ")")) ++
    (match s.check with
     | some c => "\n         skip if: " ++ c
     | none => "") ++
    "\n"

def hostText (p : Plan) (host : String) : String :=
  "\n" ++ host ++ "\n" ++ String.join ((p.stepsForHost host).map p.stepText)

def render (p : Plan) : String :=
  "Install plan: " ++ Text.decimal p.size ++ " steps on " ++ Text.decimal p.hosts.length ++
    " hosts\n" ++ String.join (p.hosts.map p.hostText)

end Rollout.Plan
