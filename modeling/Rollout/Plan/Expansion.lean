import Rollout.Inventory.Basic
import Rollout.Plan.Basic

namespace Rollout.Plan

/-- The steps of one role on one host, numbered from `next`; each waits for the one before it. -/
def roleSteps (host : String) (role : Role) : (next : Nat) → (previous : Option Nat) →
    List Template → List Step
  | _, _, [] => []
  | next, previous, t :: ts =>
    Step.ofTemplate next host role t previous.toList ::
      roleSteps host role (next + 1) (some next) ts

def hostSteps (catalog : Catalog) (host : String) : (next : Nat) → List Role → List Step
  | _, [] => []
  | next, r :: rs =>
    let own := roleSteps host r next none (catalog.stepsFor r)
    own ++ hostSteps catalog host (next + own.length) rs

def expand (catalog : Catalog) : (next : Nat) → List Host → List Step
  | _, [] => []
  | next, h :: hs =>
    let own := hostSteps catalog h.address next h.roles
    own ++ expand catalog (next + own.length) hs

def named? (steps : List Step) (host : String) (role : Role) (name : String) : Option Nat :=
  (steps.findRev? fun s ↦ s.host == host && s.role == role && s.name == name).map Step.id

def first? (steps : List Step) (host : String) (role : Role) : Option Nat :=
  (steps.find? fun s ↦ s.host == host && s.role == role).map Step.id

def addPredecessor (target pred : Nat) (steps : List Step) : List Step :=
  steps.modify target fun s ↦ { s with predecessors := insertId pred s.predecessors }

def ruleTarget (rule : Rule) (steps : List Step) (host : String) : Result Nat :=
  let found := match rule.step with
    | some name => named? steps host rule.role name
    | none => first? steps host rule.role
  match found with
  | some id => .ok id
  | none =>
    .error (.plan ("no step of role '" ++ rule.role.name ++ "' on host '" ++ host ++
      "' matches a dependency rule"))

def rulePrerequisite (rule : Rule) (steps : List Step) (host : String) : Result Nat :=
  match named? steps host rule.requiresRole rule.requiresStep with
  | some id => .ok id
  | none => .error (.plan ("host '" ++ host ++ "' has no step '" ++ rule.requiresStep ++ "'"))

def linkHost (rule : Rule) (prerequisites : List Host) (steps : List Step) (h : Host) :
    Result (List Step) := do
  let target ← ruleTarget rule steps h.address
  prerequisites.foldlM (fun steps p ↦ do
    let pred ← rulePrerequisite rule steps p.address
    return addPredecessor target pred steps) steps

/-- Applies a rule. It says nothing if no selected host holds its role. A required role that only
hosts outside the selection hold counts as installed; one that no host holds is a fault. -/
def applyRule (selected full : Inventory) (steps : List Step) (rule : Rule) :
    Result (List Step) :=
  let dependents := selected.withRole rule.role
  let prerequisites := selected.withRole rule.requiresRole
  if dependents.isEmpty then .ok steps
  else if prerequisites.isEmpty then
    if (full.withRole rule.requiresRole).isEmpty then
      .error (.plan ("role '" ++ rule.role.name ++ "' requires '" ++ rule.requiresStep ++
        "' of role '" ++ rule.requiresRole.name ++ "', but no host has role '" ++
        rule.requiresRole.name ++ "'"))
    else .ok steps
  else dependents.foldlM (linkHost rule prerequisites) steps

def ofSelection (selected full : Inventory) (catalog : Catalog) : Result Plan := do
  let steps ← catalog.rules.foldlM (applyRule selected full) (expand catalog 0 selected.hosts)
  ofSteps steps

def ofInventory (v : Inventory) (catalog : Catalog) : Result Plan := ofSelection v v catalog

end Rollout.Plan
