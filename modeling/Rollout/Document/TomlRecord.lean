import Rollout.Document.Toml

namespace Rollout.Toml

def fields? (names : List String) : Toml → Option (List (Option Toml))
  | .table entries => some (names.map fun n ↦ (entries.find? fun e ↦ e.1 == n).map (·.2))
  | .array items => some ((List.range names.length).map fun i ↦ items[i]?)
  | _ => none

def onlyFields? (names : List String) (v : Toml) : Option (List (Option Toml)) :=
  match v with
  | .table entries => if entries.all fun e ↦ names.contains e.1 then v.fields? names else none
  | v => v.fields? names

def required {α : Type} (read : Toml → Option α) : Option Toml → Option α
  | some v => read v
  | none => none

def orElse {α : Type} (default : α) (read : Toml → Option α) : Option Toml → Option α
  | some v => read v
  | none => some default

def optional {α : Type} (read : Toml → Option α) : Option Toml → Option (Option α)
  | some v => (read v).map some
  | none => some none

def string? : Toml → Option String
  | .string s => some s
  | _ => none

def boolean? : Toml → Option Bool
  | .boolean b => some b
  | _ => none

def natural? (bound : Nat) : Toml → Option Nat
  | .integer n => if 0 ≤ n && n < bound then some n.toNat else none
  | _ => none

def real? : Toml → Option Binary64
  | .float x => some x
  | .integer n => some (.ofRatio (decide (n < 0)) n.natAbs 1)
  | _ => none

def array? {α : Type} (read : Toml → Option α) : Toml → Option (List α)
  | .array items => items.mapM read
  | _ => none

def table? {α : Type} (read : Toml → Option α) : Toml → Option (List (String × α))
  | .table entries => entries.mapM fun e ↦ (read e.2).map fun a ↦ (e.1, a)
  | _ => none

/-- One of a few names, as a string or as the only key of a table, for an empty value. -/
def choice? {α : Type} (ofName : String → Option α) : Toml → Option α
  | .string s => ofName s
  | .table [(s, .table [])] | .table [(s, .array [])] => ofName s
  | _ => none

end Rollout.Toml
