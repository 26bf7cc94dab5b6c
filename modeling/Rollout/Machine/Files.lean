import Rollout.Fault
import Rollout.Text.LossyUtf8

namespace Rollout

/-- Why a file operation fails, or a program is not started. The tree of files below knows the first
four reasons; a machine has others. -/
inductive FileFault
  | notFound
  | exists
  | notDirectory
  | isDirectory
  | other (text : String)
  deriving DecidableEq, Repr, Inhabited

def FileFault.text : FileFault → String
  | .notFound => "No such file or directory (os error 2)"
  | .exists => "File exists (os error 17)"
  | .notDirectory => "Not a directory (os error 20)"
  | .isDirectory => "Is a directory (os error 21)"
  | .other text => text

def Fault.ofFile (e : FileFault) : Fault := .io e.text

inductive FileNode
  | file (content : String)
  | directory
  deriving DecidableEq, Repr, Inhabited

/-- A file tree: the nodes below the root, each with the parts of its path, and the directory where
paths start that do not begin at the root. Every node's parents are nodes too. -/
structure FileTree where
  nodes : List (List String × FileNode)
  current : List String
  deriving DecidableEq, Repr, Inhabited

namespace FileTree

def slashPieces (piece : List Char) : List Char → List String
  | [] => [String.ofList piece.reverse]
  | c :: cs =>
    if c == '/' then String.ofList piece.reverse :: slashPieces [] cs
    else slashPieces (c :: piece) cs

/-- Follows the parts of a path from a directory: empty parts and `.` stay, `..` goes up. -/
def follow (start : List String) (parts : List String) : List String :=
  parts.foldl (fun path part ↦
    if part == "" || part == "." then path
    else if part == ".." then path.dropLast
    else path ++ [part]) start

def resolve (t : FileTree) (path : String) : List String :=
  let parts := slashPieces [] path.toList
  if path.toList.head? == some '/' then follow [] parts else follow t.current parts

def parentText? (path : String) : Option String :=
  let cs := (path.toList.reverse.dropWhile (· == '/'))
  if cs.isEmpty then none
  else
    let rest := cs.dropWhile (· != '/')
    let trimmed := rest.dropWhile (· == '/')
    if trimmed.isEmpty && !rest.isEmpty then some "/" else some (String.ofList trimmed.reverse)

def join (directory path : String) : String :=
  if path.toList.head? == some '/' || directory.isEmpty then path
  else if directory.toList.getLast? == some '/' then directory ++ path
  else directory ++ "/" ++ path

def nodeAt? (t : FileTree) (place : List String) : Option FileNode :=
  if place.isEmpty then some .directory
  else (t.nodes.find? fun n ↦ n.1 == place).map (·.2)

def find (t : FileTree) (place : List String) : Except FileFault FileNode :=
  match t.nodeAt? place with
  | some n => .ok n
  | none =>
    let isFile (p : List String) : Bool :=
      match t.nodeAt? p with
      | some (.file _) => true
      | _ => false
    if (List.range place.length).any fun n ↦ isFile (place.take n) then .error .notDirectory
    else .error .notFound

def existsAt (t : FileTree) (path : String) : Bool :=
  !path.isEmpty && (t.nodeAt? (t.resolve path)).isSome

def isDirectory (t : FileTree) (path : String) : Bool :=
  !path.isEmpty && t.nodeAt? (t.resolve path) == some .directory

def findPath (t : FileTree) (path : String) : Except FileFault FileNode :=
  if path.isEmpty then .error .notFound else t.find (t.resolve path)

def read (t : FileTree) (path : String) : Except FileFault String := do
  match ← t.findPath path with
  | .file content => return content
  | .directory => .error .isDirectory

def put (t : FileTree) (place : List String) (n : FileNode) : FileTree :=
  { t with nodes := t.nodes.filter (fun m ↦ m.1 != place) ++ [(place, n)] }

def write (t : FileTree) (path content : String) : Except FileFault FileTree :=
  let place := t.resolve path
  match t.findPath path with
  | .ok .directory => .error .isDirectory
  | .ok (.file _) => .ok (t.put place (.file content))
  | .error .notDirectory => .error .notDirectory
  | .error _ =>
    match t.find place.dropLast with
    | .ok .directory =>
      if path.isEmpty then .error .notFound
      else if path.toList.getLast? == some '/' then .error .isDirectory
      else .ok (t.put place (.file content))
    | .ok (.file _) => .error .notDirectory
    | .error e => .error e

def makeDirectories (t : FileTree) (path : String) : Except FileFault FileTree :=
  let place := t.resolve path
  (List.range (place.length + 1)).foldlM (fun t n ↦
    match t.nodeAt? (place.take n) with
    | some .directory => .ok t
    | some (.file _) => .error (if n = place.length then .exists else .notDirectory)
    | none => .ok (t.put (place.take n) .directory)) t

def remove (t : FileTree) (path : String) : Except FileFault FileTree :=
  let place := t.resolve path
  match t.find place with
  | .ok .directory => .error .isDirectory
  | .ok (.file _) => .ok { t with nodes := t.nodes.filter fun m ↦ m.1 != place }
  | .error e => .error e

def filesBelow (t : FileTree) (path : String) : List (List String × String) :=
  let place := t.resolve path
  t.nodes.filterMap fun n ↦
    match n.2 with
    | .file content =>
      if place.isPrefixOf n.1 then some (n.1.drop place.length, content) else none
    | .directory => none

def empty (directory : String) : FileTree :=
  let place := follow [] (slashPieces [] directory.toList)
  ⟨(List.range place.length).map fun n ↦ (place.take (n + 1), .directory), place⟩

end FileTree

structure Program where
  name : String
  arguments : List String := []
  deriving DecidableEq, Repr, Inhabited

/-- How a program ended: its exit code, which is −1 after a signal, and the bytes that it wrote. -/
structure Ending where
  exitCode : Int := 0
  stdout : List UInt8 := []
  stderr : List UInt8 := []
  deriving DecidableEq, Repr, Inhabited

inductive ProgramOutcome
  | ended (e : Ending)
  | notStarted (why : FileFault)
  | late
  deriving DecidableEq, Repr, Inhabited

end Rollout
