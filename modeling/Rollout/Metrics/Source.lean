import Rollout.Machine.Files
import Rollout.Metrics.Reading

namespace Rollout

inductive Source
  | load (root : String)
  | memory (root : String)
  | statistics (root : String)
  deriving DecidableEq, Repr, Inhabited

namespace Source

def subsystem : Source → String
  | .load _ => "load"
  | .memory _ => "memory"
  | .statistics _ => "pfs"

def readFile (files : FileTree) (path : String) : Result String :=
  match files.read path with
  | .ok content => .ok content
  | .error e => .error (.other ("Failed to read " ++ path ++ ": " ++ e.text))

def isStatisticsName (name : String) : Bool := name == "stats" || name.endsWith "_stats"

def pathLe : List String → List String → Bool
  | [], _ => true
  | _ :: _, [] => false
  | a :: as, b :: bs => if a == b then pathLe as bs else Text.le a b

def statisticsFiles (files : FileTree) (root : String) : List (List String × String) :=
  ((files.filesBelow root).filter fun f ↦ (f.1.getLast?.map isStatisticsName).getD false).mergeSort
    fun a b ↦ pathLe a.1 b.1

/-- The readings of all statistics files, named by path and key with points between the parts. -/
def statisticsReadings (files : FileTree) (root : String) : List Reading :=
  (statisticsFiles files root).flatMap fun f ↦
    (Reading.statistics f.2).map fun r ↦ (String.intercalate "." f.1 ++ "." ++ r.1, r.2)

def sample (files : FileTree) : Source → Result (List Reading)
  | .load root => do Reading.loadAverages (← readFile files (FileTree.join root "loadavg"))
  | .memory root => do return Reading.memory (← readFile files (FileTree.join root "meminfo"))
  | .statistics root =>
    if files.isDirectory root then .ok (statisticsReadings files root)
    else .error (.other ("No stats directory at " ++ root))

end Source

end Rollout
