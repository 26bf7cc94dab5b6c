import Rollout.Catalog.Reader
import Rollout.CommandLine.Arguments
import Rollout.Inventory.Reader
import Rollout.Machine.Files
import Rollout.Plan.Expansion

namespace Rollout.CommandLine

structure Outcome where
  exitCode : Nat := 0
  stdout : String := ""
  stderr : String := ""
  deriving DecidableEq, Repr, Inhabited

/-- Why the program failed, with what led to that, outermost first. -/
structure Failure where
  message : String
  causes : List String := []
  deriving DecidableEq, Repr, Inhabited

namespace Failure

def faultCauses : Fault → List String
  | .io m | .serialization m => [m]
  | _ => []

def ofFault (e : Fault) : Failure := ⟨e.message, faultCauses e⟩

def ofFile (e : FileFault) : Failure := ⟨e.text, []⟩

def inContext (context : String) (f : Failure) : Failure := ⟨context, f.message :: f.causes⟩

def indented (blanks : String) (t : String) : String := Text.replace t "\n" ("\n" ++ blanks)

def causeLines : List String → String
  | [] => ""
  | [c] => "\n    " ++ indented "    " c
  | cs =>
    String.join (cs.zipIdx.map fun c ↦
      "\n" ++ Text.padLeft 5 (Text.decimal c.2) ++ ": " ++ indented "       " c.1)

def text (f : Failure) : String :=
  "Error: " ++ f.message ++
    (if f.causes.isEmpty then "" else "\n\nCaused by:" ++ causeLines f.causes) ++ "\n"

end Failure

structure Project where
  catalog : Catalog
  inventory : Inventory
  plan : Plan

def readFile (files : FileTree) (what path : String) : Result String :=
  match files.read path with
  | .ok content => .ok content
  | .error e => .error (.config ("Failed to read " ++ what ++ " " ++ path ++ ": " ++ e.text))

def loadCatalog (files : FileTree) (path : String) : Result Catalog := do
  Catalog.read (← readFile files "catalog" path)

def loadInventory (files : FileTree) (path : String) (catalog : Catalog) : Result Inventory := do
  Inventory.read (← readFile files "host list" path) catalog

def within {α : Type} (context : String) : Result α → Except Failure α
  | .ok a => .ok a
  | .error e => .error ((Failure.ofFault e).inContext context)

def parseRole (t : String) : Except Failure Role :=
  match Role.parse? t with
  | some r => .ok r
  | none => .error ⟨Role.invalidMessage t, []⟩

namespace Project

def load (files : FileTree) (s : Selection) : Except Failure Project := do
  let catalog ← within "Failed to load catalog" (loadCatalog files s.catalog)
  let all ← within "Failed to load host list" (loadInventory files s.hosts catalog)
  if s.onlyHosts.isEmpty && s.onlyRoles.isEmpty then
    return ⟨catalog, all, ← within "Failed to build plan" (Plan.ofInventory all catalog)⟩
  else
    let roles ← s.onlyRoles.mapM parseRole
    let selected ← within "Invalid host selection" (all.select s.onlyHosts roles)
    return ⟨catalog, selected,
      ← within "Failed to build plan" (Plan.ofSelection selected all catalog)⟩

end Project

end Rollout.CommandLine
