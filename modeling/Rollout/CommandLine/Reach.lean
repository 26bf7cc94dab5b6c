import Rollout.CommandLine.Perform

namespace Rollout.CommandLine

def Command.selection? : Command → Option Selection
  | .plan s | .install s _ _ _ | .supervise s | .stop s => some s
  | _ => none

def Invocation.paths (i : Invocation) : List String :=
  i.config :: match i.command.selection? with
    | some s => [s.hosts, s.catalog]
    | none => []

def Project.pushedPaths (p : Project) : List String :=
  p.plan.steps.filterMap fun s ↦
    match s.action with
    | .push localPath _ => some localPath
    | .run _ => none

def Invocation.furtherPaths (i : Invocation) (files : FileTree) : List String :=
  let settings := (Settings.load files i.config).toOption.getD {}
  let state : StateFiles := ⟨settings.run.stateDir⟩
  let pushed := (i.command.selection?.bind fun s ↦ (Project.load files s).toOption).map
    Project.pushedPaths
  let root := settings.pipeline.procRoot
  [state.status, state.cancel, FileTree.join root "loadavg", FileTree.join root "meminfo"] ++
    pushed.getD []

def Invocation.statisticsRoot? (i : Invocation) (files : FileTree) : Option String :=
  match i.command with
  | .collect .. => (Settings.load files i.config).toOption.bind fun s ↦ s.pipeline.statsDir
  | _ => none

/-- The name of a run for a random number: its hexadecimal digits in five groups, with the marks of
such names. -/
def runName (n : Nat) : String :=
  let digits := ((Text.hexDigits 32 n).set 12 '4').set 16 (Text.hexDigit (8 + n % 4))
  let group (first count : Nat) := String.ofList ((digits.drop first).take count)
  String.intercalate "-" [group 0 8, group 8 4, group 12 4, group 16 4, group 20 12]

def changes (before after : FileTree) : List (List String × Option String) :=
  (after.nodes.filterMap fun n ↦
    match n.2 with
    | .file content =>
      if before.nodeAt? n.1 == some (.file content) then none else some (n.1, some content)
    | .directory => none) ++
  before.nodes.filterMap fun n ↦
    match n.2 with
    | .file _ => if (after.nodeAt? n.1).isNone then some (n.1, none) else none
    | .directory => none

end Rollout.CommandLine
