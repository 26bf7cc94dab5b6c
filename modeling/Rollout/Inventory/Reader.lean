import Rollout.Document.TomlReader
import Rollout.Document.TomlRecord
import Rollout.Inventory.Basic
import Rollout.Text.Blank

namespace Rollout.Inventory

structure Entry where
  address : String
  roles : List String
  login : Login

def Entry.ofToml? (v : Toml) : Option Entry := do
  match ← v.fields? ["address", "roles", "hostname", "user", "identity_file"] with
  | [address, roles, hostname, user, identityFile] =>
    return {
      address := ← Toml.required Toml.string? address
      roles := ← Toml.orElse [] (Toml.array? Toml.string?) roles
      login := {
        hostname := ← Toml.optional Toml.string? hostname
        user := ← Toml.optional Toml.string? user
        identityFile := ← Toml.optional Toml.string? identityFile } }
  | _ => none

def entries? (v : Toml) : Option (List Entry) := do
  match ← v.fields? ["hosts"] with
  | [hosts] => Toml.orElse [] (Toml.array? Entry.ofToml?) hosts
  | _ => none

/-- The host of an entry. Blanks around its address do not count. -/
def Entry.resolve (e : Entry) : Result Host := do
  let roles ← e.roles.mapM fun s ↦
    match Role.parse? s with
    | some r => Except.ok r
    | none =>
      Except.error (Fault.config ("host '" ++ e.address ++ "': " ++ Role.invalidMessage s))
  return { address := Text.trim e.address, roles := Role.sorted roles, login := e.login }

def read (s : String) (catalog : Catalog) : Result Inventory := do
  match (Toml.read? s).bind entries? with
  | some es => new (← es.mapM Entry.resolve) catalog
  | none => .error (.config "Failed to parse host list")

def sampleLines : List String :=
  ["# pfsmon host list",
   "",
   "[[hosts]]",
   "address = \"mgs01\"",
   "roles = [\"management\", \"monitor\"]",
   "",
   "[[hosts]]",
   "address = \"mds01\"",
   "roles = [\"metadata\"]",
   "",
   "[[hosts]]",
   "address = \"oss01\"",
   "roles = [\"object_storage\"]",
   "",
   "[[hosts]]",
   "address = \"oss02\"",
   "roles = [\"object_storage\"]",
   "",
   "[[hosts]]",
   "address = \"client01\"",
   "roles = [\"client\"]"]

def sample : String := String.join (sampleLines.map fun l ↦ l ++ "\n")

end Rollout.Inventory
