import Rollout.Document.Json
import Rollout.Document.JsonReader
import Rollout.Document.JsonWriter
import Rollout.Number.Binary64
import Rollout.Run.Report

namespace Rollout

namespace Moment

def toJson (t : Moment) : Json := .string t.text

def ofJson? : Json → Option Moment
  | .string s => read? s
  | _ => none

end Moment

def Json.optional {α : Type} (read : Json → Option α) : Option Json → Option (Option α) :=
  Json.orElse none (Json.nullable read)

namespace StepRecord

def toJson (s : StepRecord) : Json :=
  .record <|
    [("id", .natural s.id), ("host", .string s.host), ("role", .string s.role.name),
      ("name", .string s.name), ("kind", .string s.kind.name), ("state", .string s.state.name),
      ("attempts", .natural s.attempts), ("already_satisfied", .boolean s.alreadySatisfied)] ++
    Json.optionalMember "error" .string s.error ++
    Json.optionalMember "skipped_because" .string s.skippedBecause ++
    Json.optionalMember "started_at" Moment.toJson s.startedAt ++
    Json.optionalMember "finished_at" Moment.toJson s.finishedAt

def ofJson? (v : Json) : Option StepRecord := do
  match ← v.fields? ["id", "host", "role", "name", "kind", "state", "attempts",
      "already_satisfied", "error", "skipped_because", "started_at", "finished_at"] with
  | [id, host, role, name, kind, state, attempts, alreadySatisfied, error, skippedBecause,
      startedAt, finishedAt] =>
    return {
      id := ← Json.required (Json.natural? word64) id
      host := ← Json.required Json.string? host
      role := ← Json.required (Json.choice? Role.ofName?) role
      name := ← Json.required Json.string? name
      kind := ← Json.required (Json.choice? StepKind.ofName?) kind
      state := ← Json.required (Json.choice? Status.ofName?) state
      attempts := ← Json.required (Json.natural? word32) attempts
      alreadySatisfied := ← Json.orElse false Json.boolean? alreadySatisfied
      error := ← Json.optional Json.string? error
      skippedBecause := ← Json.optional Json.string? skippedBecause
      startedAt := ← Json.optional Moment.ofJson? startedAt
      finishedAt := ← Json.optional Moment.ofJson? finishedAt }
  | _ => none

end StepRecord

namespace HostRecord

def toJson (h : HostRecord) : Json :=
  .record <|
    [("address", .string h.address), ("roles", .array (h.roles.map fun r ↦ .string r.name)),
      ("state", .string h.state.name)] ++
    Json.optionalMember "failed_step" .string h.failedStep ++
    Json.optionalMember "last_error" .string h.lastError ++
    Json.optionalMember "skipped_because" .string h.skippedBecause ++
    Json.optionalMember "agent_health" (fun a ↦ .string a.name) h.agentHealth ++
    [("monitoring_degraded", .boolean h.monitoringDegraded)]

def ofJson? (v : Json) : Option HostRecord := do
  match ← v.fields? ["address", "roles", "state", "failed_step", "last_error", "skipped_because",
      "agent_health", "monitoring_degraded"] with
  | [address, roles, state, failedStep, lastError, skippedBecause, agentHealth, degraded] =>
    return {
      address := ← Json.required Json.string? address
      roles := ← Json.required (Json.array? (Json.choice? Role.ofName?)) roles
      state := ← Json.required (Json.choice? Status.ofName?) state
      failedStep := ← Json.optional Json.string? failedStep
      lastError := ← Json.optional Json.string? lastError
      skippedBecause := ← Json.optional Json.string? skippedBecause
      agentHealth := ← Json.optional (Json.choice? AgentHealth.ofName?) agentHealth
      monitoringDegraded := ← Json.orElse false Json.boolean? degraded }
  | _ => none

end HostRecord

namespace Report

def toJson (r : Report) : Json :=
  .record
    [("run_id", .string r.runId), ("started_at", r.startedAt.toJson),
      ("finished_at", (r.finishedAt.map Moment.toJson).getD .null),
      ("cancelled", .boolean r.cancelled),
      ("hosts", .array (r.hosts.map HostRecord.toJson)),
      ("steps", .array (r.steps.map StepRecord.toJson))]

def ofJson? (v : Json) : Option Report := do
  match ← v.fields? ["run_id", "started_at", "finished_at", "cancelled", "hosts", "steps"] with
  | [runId, startedAt, finishedAt, cancelled, hosts, steps] =>
    return {
      runId := ← Json.required Json.string? runId
      startedAt := ← Json.required Moment.ofJson? startedAt
      finishedAt := ← Json.optional Moment.ofJson? finishedAt
      cancelled := ← Json.orElse false Json.boolean? cancelled
      hosts := ← Json.required (Json.array? HostRecord.ofJson?) hosts
      steps := ← Json.required (Json.array? StepRecord.ofJson?) steps }
  | _ => none

def read? (s : String) : Option Report := (Json.read? s).bind ofJson?

def pretty (r : Report) : String := r.toJson.pretty

end Report

end Rollout
