import Rollout.Number.Binary64
import Rollout.Remote.Call

namespace Rollout

inductive ScriptOutcome
  | success (stdout : String)
  | exit (code : Int) (stderr : String)
  | connectFailure
  | timeout
  deriving DecidableEq, Repr, Inhabited

/-- A rule for calls whose command holds `pattern`, on one host if one is given, and for a limited
number of calls if `remaining` is given. -/
structure ScriptRule where
  pattern : String
  outcome : ScriptOutcome
  host : Option String := none
  remaining : Option Nat := none
  delay : Span := .zero
  deriving DecidableEq, Repr, Inhabited

structure LoggedCall where
  time : Span
  call : Call
  deriving DecidableEq, Repr, Inhabited

structure Script where
  rules : List ScriptRule := []
  defaultDelay : Span := .zero
  log : List LoggedCall := []
  deriving DecidableEq, Repr, Inhabited

def Span.longest : Span := ⟨(word64 - 1) * 1000000000 + 999999999⟩

namespace Operation

def searchText : Operation → String
  | .run command _ => command
  | .push _ remotePath => "push " ++ remotePath

def limit : Operation → Span
  | .run _ timeout => timeout
  | .push _ _ => .longest

end Operation

namespace ScriptRule

def applies (r : ScriptRule) (host command : String) : Bool :=
  r.remaining != some 0 && (r.host.map fun h ↦ h == host).getD true &&
    Text.contains command r.pattern

def use (r : ScriptRule) : ScriptRule := { r with remaining := r.remaining.map (· - 1) }

end ScriptRule

namespace Script

def addRule (s : Script) (r : ScriptRule) : Script := { s with rules := s.rules ++ [r] }

def useRule (host command : String) : List ScriptRule → Option ScriptRule × List ScriptRule
  | [] => (none, [])
  | r :: rs =>
    if r.applies host command then (some r, r.use :: rs)
    else
      let (found, rs) := useRule host command rs
      (found, r :: rs)

def reply (host : String) (limit : Span) : ScriptOutcome → Reply
  | .success stdout => .ok { stdout := stdout }
  | .exit code stderr => .error (.exec host code stderr)
  | .connectFailure => .error (.connect host "connection refused")
  | .timeout => .error (.timeout host limit)

/-- A call on a scripted host. What would take longer than its limit is a timeout at the limit. -/
def start (now : Span) (s : Script) (c : Call) : Script × Progress Reply :=
  let (rule, rules) := useRule c.host c.operation.searchText s.rules
  let s := { s with rules := rules, log := s.log ++ [⟨now, c⟩] }
  let delay := (rule.map ScriptRule.delay).getD s.defaultDelay
  let limit := c.operation.limit
  if limit < delay then (s, .wait limit (.error (.timeout c.host limit)))
  else
    let outcome := (rule.map ScriptRule.outcome).getD (.success "")
    let r := reply c.host limit outcome
    if delay = .zero then (s, .done r) else (s, .wait delay r)

def executor : Executor Script Reply where
  start := start
  resume := fun _ s r ↦ (s, .done r)

def callsFor (s : Script) (host : String) : List LoggedCall :=
  s.log.filter fun l ↦ l.call.host == host

def countMatching (s : Script) (host pattern : String) : Nat :=
  ((s.callsFor host).filter fun l ↦ Text.contains l.call.operation.searchText pattern).length

end Script

end Rollout
