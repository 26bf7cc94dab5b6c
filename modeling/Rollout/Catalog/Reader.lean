import Rollout.Catalog.Basic
import Rollout.Document.TomlReader
import Rollout.Document.TomlRecord
import Rollout.Number.Binary64

namespace Rollout

namespace RetryPolicy

def ofToml? (v : Toml) : Option RetryPolicy := do
  match ← v.fields? ["max_attempts", "initial_backoff_ms", "max_backoff_ms", "multiplier"] with
  | [maxAttempts, initialBackoff, maxBackoff, multiplier] =>
    let d : RetryPolicy := {}
    return {
      maxAttempts := ← Toml.orElse d.maxAttempts (Toml.natural? word32) maxAttempts
      initialBackoff := ← Toml.orElse d.initialBackoff (Toml.natural? word64) initialBackoff
      maxBackoff := ← Toml.orElse d.maxBackoff (Toml.natural? word64) maxBackoff
      multiplier := ← Toml.orElse d.multiplier Toml.real? multiplier }
  | _ => none

end RetryPolicy

namespace RetryPolicies

def ofToml? (v : Toml) : Option RetryPolicies := do
  match ← v.onlyFields? ["push", "command", "service_start"] with
  | [push, command, serviceStart] =>
    return {
      push := ← Toml.orElse {} RetryPolicy.ofToml? push
      command := ← Toml.orElse {} RetryPolicy.ofToml? command
      serviceStart := ← Toml.orElse {} RetryPolicy.ofToml? serviceStart }
  | _ => none

end RetryPolicies

namespace Template

def ofToml? (v : Toml) : Option Template := do
  match ← v.fields? ["name", "kind", "command", "local", "remote", "check", "retryable",
      "timeout_secs"] with
  | [name, kind, command, localPath, remotePath, check, retryable, timeoutSeconds] =>
    return {
      name := ← Toml.required Toml.string? name
      kind := ← Toml.required (Toml.choice? StepKind.ofName?) kind
      command := ← Toml.optional Toml.string? command
      localPath := ← Toml.optional Toml.string? localPath
      remotePath := ← Toml.optional Toml.string? remotePath
      check := ← Toml.optional Toml.string? check
      retryable := ← Toml.optional Toml.boolean? retryable
      timeoutSeconds := ← Toml.optional (Toml.natural? word64) timeoutSeconds }
  | _ => none

end Template

namespace Catalog

structure RuleEntry where
  role : String
  step : Option String
  requiresRole : String
  requiresStep : String

structure File where
  retry : RetryPolicies
  roles : List (String × List Template)
  rules : List RuleEntry

def RuleEntry.ofToml? (v : Toml) : Option RuleEntry := do
  match ← v.fields? ["role", "step", "requires_role", "requires_step"] with
  | [role, step, requiresRole, requiresStep] =>
    return {
      role := ← Toml.required Toml.string? role
      step := ← Toml.optional Toml.string? step
      requiresRole := ← Toml.required Toml.string? requiresRole
      requiresStep := ← Toml.required Toml.string? requiresStep }
  | _ => none

def roleSteps? (v : Toml) : Option (List Template) := do
  match ← v.fields? ["steps"] with
  | [steps] => Toml.orElse [] (Toml.array? Template.ofToml?) steps
  | _ => none

def File.ofToml? (v : Toml) : Option File := do
  match ← v.fields? ["retry", "roles", "dependencies"] with
  | [retry, roles, rules] =>
    return {
      retry := ← Toml.orElse {} RetryPolicies.ofToml? retry
      roles := ← Toml.orElse [] (Toml.table? roleSteps?) roles
      rules := ← Toml.orElse [] (Toml.array? RuleEntry.ofToml?) rules }
  | _ => none

def parseRole (s : String) : Result Role :=
  match Role.parse? s with
  | some r => .ok r
  | none => .error (.config (Role.invalidMessage s))

/-- Collects the sections of roles, each of which may stand under one of its names only. -/
def collectRoles : (found : List (Role × List Template)) → List (String × List Template) →
    Result (List (Role × List Template))
  | found, [] => .ok found
  | found, (name, steps) :: rest => do
    let role ← parseRole name
    if found.any fun p ↦ p.1 == role then
      .error (.config ("role '" ++ role.name ++ "' is declared more than once"))
    else collectRoles (found ++ [(role, steps)]) rest

def RuleEntry.resolve (e : RuleEntry) : Result Rule := do
  let role ← parseRole e.role
  let requiresRole ← parseRole e.requiresRole
  return ⟨role, e.step, requiresRole, e.requiresStep⟩

/-- The checked catalog of a file. Sections of roles are taken in the order of their names. -/
def ofFile (f : File) : Result Catalog := do
  let roles ← collectRoles [] (f.roles.mergeSort fun a b ↦ Text.le a.1 b.1)
  let rules ← f.rules.mapM RuleEntry.resolve
  new (fun r ↦ (roles.find? fun p ↦ p.1 == r).map (·.2)) rules f.retry

def read (s : String) : Result Catalog :=
  match (Toml.read? s).bind File.ofToml? with
  | some f => ofFile f
  | none => .error (.config "Failed to parse catalog")

end Catalog

end Rollout
