import Rollout.Cluster.Role
import Rollout.Retry.Policy
import Rollout.Text.Blank

namespace Rollout

/-- A step of a role. A push needs `localPath` and `remotePath`, every other kind a command. -/
structure Template where
  name : String
  kind : StepKind
  command : Option String := none
  localPath : Option String := none
  remotePath : Option String := none
  check : Option String := none
  retryable : Option Bool := none
  timeoutSeconds : Option Nat := none
  deriving DecidableEq, Repr, Inhabited

namespace Template

def isRetryable (t : Template) : Bool :=
  if t.kind = .verify then false else t.retryable.getD t.kind.defaultRetryable

def timeout (t : Template) : Option Span := t.timeoutSeconds.map Span.ofSeconds

def lacksCommand (t : Template) : Bool := (t.command.map Text.allBlank).getD true

def flaw? (role : Role) (t : Template) : Option String :=
  if Text.allBlank t.name then some ("role '" ++ role.name ++ "' has a step with an empty name")
  else if t.kind = .push && (t.localPath.isNone || t.remotePath.isNone) then
    some ("push step '" ++ t.name ++ "' of role '" ++ role.name ++
      "' needs both 'local' and 'remote'")
  else if t.kind ≠ .push && t.lacksCommand then
    some (t.kind.name ++ " step '" ++ t.name ++ "' of role '" ++ role.name ++
      "' needs a 'command'")
  else if t.kind = .verify && t.retryable = some true then
    some ("verify step '" ++ t.name ++ "' of role '" ++ role.name ++ "' cannot be retryable")
  else none

end Template

/-- A step of `role`, the first one if none is named, waits for `requiresStep` on every host with
`requiresRole`. -/
structure Rule where
  role : Role
  step : Option String
  requiresRole : Role
  requiresStep : String
  deriving DecidableEq, Repr, Inhabited

structure Catalog where
  retry : RetryPolicies
  steps? : Role → Option (List Template)
  rules : List Rule

namespace Catalog

def stepsFlaw? (role : Role) : (seen : List String) → List Template → Option String
  | _, [] => none
  | seen, t :: ts =>
    match t.flaw? role with
    | some m => some m
    | none =>
      if seen.contains t.name then
        some ("role '" ++ role.name ++ "' declares step '" ++ t.name ++ "' twice")
      else stepsFlaw? role (t.name :: seen) ts

def undefinedRole (r : Role) : String :=
  "dependency rule references undefined role '" ++ r.name ++ "'"

def noSuchStep (r : Role) (step : String) : String :=
  "role '" ++ r.name ++ "' has no step '" ++ step ++ "'"

def ruleFlaw? (steps? : Role → Option (List Template)) (rule : Rule) : Option String :=
  match steps? rule.role, steps? rule.requiresRole with
  | none, _ => some (undefinedRole rule.role)
  | _, none => some (undefinedRole rule.requiresRole)
  | some dependent, some prerequisite =>
    if !prerequisite.any fun t ↦ t.name == rule.requiresStep then
      some (noSuchStep rule.requiresRole rule.requiresStep)
    else
      match rule.step with
      | some step =>
        if dependent.any fun t ↦ t.name == step then none else some (noSuchStep rule.role step)
      | none =>
        if dependent.isEmpty then
          some ("dependency rule targets role '" ++ rule.role.name ++ "' which has no steps")
        else none

/-- The first thing wrong with a catalog: the steps of all roles come before the rules. -/
def flaw? (c : Catalog) : Option String :=
  match Role.all.findSome? fun r ↦ (c.steps? r).bind (stepsFlaw? r []) with
  | some m => some m
  | none => c.rules.findSome? (ruleFlaw? c.steps?)

def new (steps? : Role → Option (List Template)) (rules : List Rule) (retry : RetryPolicies) :
    Result Catalog :=
  let c : Catalog := ⟨retry, steps?, rules⟩
  match c.flaw? with
  | some m => .error (.config m)
  | none => .ok c

def hasRole (c : Catalog) (r : Role) : Bool := (c.steps? r).isSome

def stepsFor (c : Catalog) (r : Role) : List Template := (c.steps? r).getD []

def roles (c : Catalog) : List Role := Role.all.filter c.hasRole

end Catalog

end Rollout
