import Rollout.Run.Report

namespace Rollout.Report

def countText (r : Report) (state : Status) : String := Text.decimal (r.countSteps state)

def reasonText (h : HostRecord) : String :=
  match h.failedStep, h.skippedBecause with
  | some step, _ =>
    "      failed at '" ++ step ++ "': " ++ h.lastError.getD "unknown error" ++ "\n"
  | none, some reason => "      " ++ reason ++ "\n"
  | none, none => ""

def hostText (h : HostRecord) : String :=
  "  " ++ Text.padRight 20 h.address ++ " " ++ h.state.name ++ " [" ++
    String.intercalate "," (h.roles.map Role.name) ++ "]" ++
    (match h.agentHealth with
     | some health => " agent: " ++ health.name
     | none => "") ++
    (if h.monitoringDegraded then " (monitoring degraded)" else "") ++ "\n" ++ reasonText h

def render (r : Report) : String :=
  "Run " ++ r.runId ++ " (" ++ r.outcome.text ++ ")\n" ++
    "Steps: " ++ r.countText .succeeded ++ " succeeded, " ++ r.countText .failed ++ " failed, " ++
    r.countText .skipped ++ " skipped, " ++ r.countText .pending ++ " pending, " ++
    r.countText .inProgress ++ " in progress\n\n" ++
    String.join (r.hosts.map hostText)

end Rollout.Report

namespace Rollout.Journal

def beginning (r : Report) (workers : Nat) : String :=
  "Starting install run " ++ r.runId ++ ": " ++ Text.decimal r.steps.length ++ " steps on " ++
    Text.decimal r.hosts.length ++ " hosts, " ++ Text.decimal workers ++ " workers"

def stepLines (before after : StepRecord) : List String :=
  if before.state = after.state then []
  else
    match after.state with
    | .succeeded => [after.label ++ " succeeded"]
    | .failed => [after.label ++ " failed: " ++ after.error.getD ""]
    | _ => []

def hostLines (agents : Bool) (before after : HostRecord) : List String :=
  (if before.state = after.state then []
  else
    match after.state with
    | .succeeded =>
      ("Host " ++ after.address ++ " installed") ::
        (if agents then ["Starting collector agent on " ++ after.address] else [])
    | .failed => ["Host " ++ after.address ++ " failed"]
    | .skipped => ["Host " ++ after.address ++ " skipped"]
    | _ => []) ++
  (if before.agentHealth = after.agentHealth then []
  else
    match after.agentHealth with
    | some .healthy => ["Collector agent on " ++ after.address ++ " is healthy"]
    | some .unhealthy => ["Monitoring degraded on " ++ after.address]
    | _ => [])

def lines (agents : Bool) (before after : Report) : List String :=
  (before.steps.zip after.steps).flatMap (fun p ↦ stepLines p.1 p.2) ++
    (before.hosts.zip after.hosts).flatMap fun p ↦ hostLines agents p.1 p.2

end Rollout.Journal
