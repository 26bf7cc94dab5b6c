import Rollout.Cluster.Role
import Rollout.Cluster.Status
import Rollout.Document.Json
import Rollout.Document.JsonReader
import Rollout.Document.JsonWriter

namespace Rollout

structure Login where
  hostname : Option String := none
  user : Option String := none
  identityFile : Option String := none
  deriving DecidableEq, Repr, Inhabited

def Login.isEmpty (l : Login) : Bool :=
  l.hostname.isNone && l.user.isNone && l.identityFile.isNone

/-- A host. Its roles stand in their order, each once. -/
structure Host where
  address : String
  roles : List Role
  state : Status := .pending
  lastError : Option String := none
  login : Login := {}
  deriving DecidableEq, Repr, Inhabited

namespace Host

def hasRole (h : Host) (r : Role) : Bool := h.roles.contains r

end Host

namespace Login

def toJson (l : Login) : Json :=
  .record <|
    Json.optionalMember "hostname" .string l.hostname ++
    Json.optionalMember "user" .string l.user ++
    Json.optionalMember "identity_file" .string l.identityFile

def ofJson? (v : Json) : Option Login := do
  match ← v.fields? ["hostname", "user", "identity_file"] with
  | [hostname, user, identityFile] =>
    return {
      hostname := ← Json.orElse none (Json.nullable Json.string?) hostname
      user := ← Json.orElse none (Json.nullable Json.string?) user
      identityFile := ← Json.orElse none (Json.nullable Json.string?) identityFile }
  | _ => none

end Login

namespace Host

def toJson (h : Host) : Json :=
  .record <|
    [("address", .string h.address),
     ("roles", .array (h.roles.map fun r ↦ .string r.name)),
     ("state", .string h.state.name)] ++
    Json.optionalMember "last_error" .string h.lastError ++
    (if h.login.isEmpty then [] else [("login", h.login.toJson)])

def ofJson? (v : Json) : Option Host := do
  match ← v.fields? ["address", "roles", "state", "last_error", "login"] with
  | [address, roles, state, lastError, login] =>
    return {
      address := ← Json.required Json.string? address
      roles := Role.sorted (← Json.required (Json.array? (Json.choice? Role.ofName?)) roles)
      state := ← Json.orElse .pending (Json.choice? Status.ofName?) state
      lastError := ← Json.orElse none (Json.nullable Json.string?) lastError
      login := ← Json.orElse {} Login.ofJson? login }
  | _ => none

def read? (s : String) : Option Host := (Json.read? s).bind ofJson?

def text (h : Host) : String := h.toJson.compact

end Host

end Rollout
