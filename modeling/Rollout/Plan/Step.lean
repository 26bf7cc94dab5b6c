import Rollout.Catalog.Basic

namespace Rollout

inductive StepAction
  | run (command : String)
  | push (localPath remotePath : String)
  deriving DecidableEq, Repr, Inhabited

/-- One unit of work. `predecessors` are the numbers of the steps that have to succeed before,
in increasing order, each once. -/
structure Step where
  id : Nat
  host : String
  role : Role
  name : String
  kind : StepKind
  action : StepAction
  check : Option String := none
  retryable : Bool := false
  timeout : Option Span := none
  predecessors : List Nat := []
  deriving DecidableEq, Repr, Inhabited

namespace Step

/-- The action of a template: a push exactly if it is of that kind and has both paths. -/
def actionOf (t : Template) : StepAction :=
  match t.kind, t.localPath, t.remotePath with
  | .push, some l, some r => .push l r
  | _, _, _ => .run (t.command.getD "")

def ofTemplate (id : Nat) (host : String) (role : Role) (t : Template)
    (predecessors : List Nat) : Step where
  id := id
  host := host
  role := role
  name := t.name
  kind := t.kind
  action := actionOf t
  check := t.check
  retryable := t.isRetryable
  timeout := t.timeout
  predecessors := predecessors

def label (s : Step) : String := s.host ++ "/" ++ s.role.name ++ "/" ++ s.name

def tag (id : Nat) : String := "#" ++ Text.decimal id

end Step

end Rollout
