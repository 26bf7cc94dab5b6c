import Rollout.Catalog.Basic
import Rollout.Cluster.Host

namespace Rollout

structure Inventory where
  hosts : List Host
  deriving DecidableEq, Repr, Inhabited

namespace Inventory

/-- What is wrong with a host, if anything, given the addresses that stand before it. -/
def hostFlaw? (catalog : Catalog) (seen : List String) (h : Host) : Option String :=
  if h.address.isEmpty then some "host with an empty address"
  else if seen.contains h.address then
    some ("host '" ++ h.address ++ "' is listed more than once")
  else if h.roles.isEmpty then some ("host '" ++ h.address ++ "' has no roles")
  else
    (h.roles.find? fun r ↦ !catalog.hasRole r).map fun r ↦
      "host '" ++ h.address ++ "' has role '" ++ r.name ++ "' which the catalog does not define"

def flaw? (catalog : Catalog) : (seen : List String) → List Host → Option String
  | _, [] => none
  | seen, h :: hs =>
    match hostFlaw? catalog seen h with
    | some m => some m
    | none => flaw? catalog (h.address :: seen) hs

def new (hosts : List Host) (catalog : Catalog) : Result Inventory :=
  match flaw? catalog [] hosts with
  | some m => .error (.config m)
  | none => .ok ⟨hosts⟩

def find? (v : Inventory) (address : String) : Option Host :=
  v.hosts.find? fun h ↦ h.address == address

def unknownHost (address : String) : Fault := .config ("unknown host '" ++ address ++ "'")

def rolesOf (v : Inventory) (address : String) : Result (List Role) :=
  match v.find? address with
  | some h => .ok h.roles
  | none => .error (unknownHost address)

def addresses (v : Inventory) : List String := v.hosts.map Host.address

def withRole (v : Inventory) (r : Role) : List Host := v.hosts.filter fun h ↦ h.hasRole r

/-- The host with only those of its roles that are selected; no roles select all. -/
def narrow (roles : List Role) (h : Host) : Host :=
  if roles.isEmpty then h else { h with roles := h.roles.filter fun r ↦ roles.contains r }

/-- The selected hosts with their selected roles; an empty list selects all. Hosts without a
selected role are left out. -/
def select (v : Inventory) (hosts : List String) (roles : List Role) : Result Inventory :=
  match hosts.find? fun a ↦ (v.find? a).isNone with
  | some a => .error (unknownHost a)
  | none =>
    .ok ⟨((v.hosts.filter fun h ↦ hosts.isEmpty || hosts.contains h.address).map
      (narrow roles)).filter fun h ↦ !h.roles.isEmpty⟩

end Inventory

end Rollout
