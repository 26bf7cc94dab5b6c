import Rollout.Rehearsal.ShellRun
import Rollout.Remote.Call
import Rollout.Remote.Ssh

namespace Rollout

/-- A rule for programs: it applies to one program if that is given, to programs with an argument
that holds a text if that is given, and to a limited number of programs if `remaining` is given. -/
structure ProgramRule where
  program : Option String := none
  argument : Option String := none
  remaining : Option Nat := none
  duration : Span := .zero
  ending : Ending := {}
  deriving DecidableEq, Repr, Inhabited

namespace ProgramRule

def applies (r : ProgramRule) (p : Program) : Bool :=
  r.remaining != some 0 && (r.program.map fun name ↦ name == p.name).getD true &&
    (r.argument.map fun t ↦ p.arguments.any fun a ↦ Text.contains a t).getD true

def use (r : ProgramRule) : ProgramRule := { r with remaining := r.remaining.map (· - 1) }

end ProgramRule

/-- The machine. `standIns` are the paths of programs for which rules stand in, with their names,
and `log` holds the ones that were started. -/
structure Workstation where
  files : FileTree
  standIns : List (String × String) := []
  rules : List ProgramRule := []
  log : List Program := []
  deriving Inhabited

namespace Workstation

def useRule (p : Program) : List ProgramRule → Option ProgramRule × List ProgramRule
  | [] => (none, [])
  | r :: rs =>
    if r.applies p then (some r, r.use :: rs)
    else
      let (found, rs) := useRule p rs
      (found, r :: rs)

def launch (s : Workstation) (p : Program) : Workstation × Except FileFault (Span × Ending) :=
  match s.standIns.lookup p.name, p with
  | some name, p =>
    let p := { p with name := name }
    let (rule, rules) := useRule p s.rules
    let s := { s with rules := rules, log := s.log ++ [p] }
    (s, .ok ((rule.map fun r ↦ (r.duration, r.ending)).getD (.zero, {})))
  | none, ⟨"sh", ["-c", line]⟩ =>
    let (files, result) := ShellState.run s.files line
    ({ s with files := files }, .ok result)
  | none, _ => (s, .error .notFound)

abbrev Started := ProgramOutcome × SshStage

def carryOut (s : Workstation) : SshMove → Workstation × Progress Started
  | .done r => (s, .done r)
  | .launch p bound stage =>
    match s.launch p with
    | (s, .error why) => (s, .wait .zero (.notStarted why, stage))
    | (s, .ok (duration, ending)) =>
      if bound ≤ duration then (s, .wait bound (.late, stage))
      else (s, .wait duration (.ended ending, stage))

def executor (ssh : Ssh) : Executor Workstation Started where
  start := fun _ s c ↦
    let (files, m) := ssh.begin s.files c
    { s with files := files }.carryOut m
  resume := fun _ s started ↦ s.carryOut (ssh.proceed started.2 started.1)

end Workstation

end Rollout
