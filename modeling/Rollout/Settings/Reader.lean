import Rollout.Document.TomlReader
import Rollout.Document.TomlRecord
import Rollout.Fault
import Rollout.Number.Binary64
import Rollout.Settings.Basic

namespace Rollout

def RunSettings.ofToml? (v : Toml) : Option RunSettings := do
  let d : RunSettings := {}
  match ← v.fields? ["workers", "command_timeout_secs", "state_dir", "start_agents"] with
  | [workers, commandTimeout, stateDir, startAgents] =>
    return {
      workers := ← Toml.orElse d.workers (Toml.natural? word64) workers
      commandTimeoutSeconds :=
        ← Toml.orElse d.commandTimeoutSeconds (Toml.natural? word64) commandTimeout
      stateDir := ← Toml.orElse d.stateDir Toml.string? stateDir
      startAgents := ← Toml.orElse d.startAgents Toml.boolean? startAgents }
  | _ => none

def TransportSettings.ofToml? (v : Toml) : Option TransportSettings := do
  let d : TransportSettings := {}
  match ← v.fields? ["ssh_program", "scp_program", "user", "identity_file", "port",
      "connect_timeout_secs", "max_in_flight", "breaker_threshold", "breaker_cooldown_secs"] with
  | [ssh, scp, user, identityFile, port, connectTimeout, maxInFlight, threshold, cooldown] =>
    return {
      sshProgram := ← Toml.orElse d.sshProgram Toml.string? ssh
      scpProgram := ← Toml.orElse d.scpProgram Toml.string? scp
      user := ← Toml.optional Toml.string? user
      identityFile := ← Toml.optional Toml.string? identityFile
      port := ← Toml.optional (Toml.natural? word16) port
      connectTimeoutSeconds :=
        ← Toml.orElse d.connectTimeoutSeconds (Toml.natural? word64) connectTimeout
      maxInFlight := ← Toml.orElse d.maxInFlight (Toml.natural? word64) maxInFlight
      breakerThreshold := ← Toml.orElse d.breakerThreshold (Toml.natural? word32) threshold
      breakerCooldownSeconds :=
        ← Toml.orElse d.breakerCooldownSeconds (Toml.natural? word64) cooldown }
  | _ => none

def AgentSettings.ofToml? (v : Toml) : Option AgentSettings := do
  let d : AgentSettings := {}
  match ← v.fields? ["start_command", "health_command", "stop_command", "interval_secs",
      "start_timeout_secs", "poll_initial_backoff_ms", "poll_max_backoff_ms",
      "supervise_interval_secs"] with
  | [start, health, stop, interval, startTimeout, pollInitial, pollMax, supervise] =>
    return {
      startCommand := ← Toml.orElse d.startCommand Toml.string? start
      healthCommand := ← Toml.orElse d.healthCommand Toml.string? health
      stopCommand := ← Toml.orElse d.stopCommand Toml.string? stop
      intervalSeconds := ← Toml.orElse d.intervalSeconds (Toml.natural? word64) interval
      startTimeoutSeconds :=
        ← Toml.orElse d.startTimeoutSeconds (Toml.natural? word64) startTimeout
      pollInitialBackoff := ← Toml.orElse d.pollInitialBackoff (Toml.natural? word64) pollInitial
      pollMaxBackoff := ← Toml.orElse d.pollMaxBackoff (Toml.natural? word64) pollMax
      superviseIntervalSeconds :=
        ← Toml.orElse d.superviseIntervalSeconds (Toml.natural? word64) supervise }
  | _ => none

def PipelineSettings.ofToml? (v : Toml) : Option PipelineSettings := do
  let d : PipelineSettings := {}
  match ← v.fields? ["sink_url", "sample_interval_secs", "flush_interval_secs", "batch_size",
      "buffer_capacity", "sink_initial_backoff_ms", "sink_max_backoff_ms", "proc_root",
      "stats_dir"] with
  | [url, sample, flush, batch, capacity, sinkInitial, sinkMax, procRoot, statsDir] =>
    return {
      sinkUrl := ← Toml.orElse d.sinkUrl Toml.string? url
      sampleIntervalSeconds := ← Toml.orElse d.sampleIntervalSeconds (Toml.natural? word64) sample
      flushIntervalSeconds := ← Toml.orElse d.flushIntervalSeconds (Toml.natural? word64) flush
      batchSize := ← Toml.orElse d.batchSize (Toml.natural? word64) batch
      bufferCapacity := ← Toml.orElse d.bufferCapacity (Toml.natural? word64) capacity
      sinkInitialBackoff := ← Toml.orElse d.sinkInitialBackoff (Toml.natural? word64) sinkInitial
      sinkMaxBackoff := ← Toml.orElse d.sinkMaxBackoff (Toml.natural? word64) sinkMax
      procRoot := ← Toml.orElse d.procRoot Toml.string? procRoot
      statsDir := ← Toml.optional Toml.string? statsDir }
  | _ => none

namespace Settings

def ofToml? (v : Toml) : Option Settings := do
  match ← v.fields? ["orchestrator", "transport", "agent", "pipeline"] with
  | [run, transport, agent, pipeline] =>
    return {
      run := ← Toml.orElse {} RunSettings.ofToml? run
      transport := ← Toml.orElse {} TransportSettings.ofToml? transport
      agent := ← Toml.orElse {} AgentSettings.ofToml? agent
      pipeline := ← Toml.orElse {} PipelineSettings.ofToml? pipeline }
  | _ => none

def read (s : String) : Result Settings :=
  match (Toml.read? s).bind ofToml? with
  | some settings => .ok settings
  | none => .error (.config "Failed to parse config file")

end Settings

end Rollout
