import Rollout.Catalog.Sample
import Rollout.CommandLine.Installation
import Rollout.Inventory.Reader
import Rollout.Metrics.Rehearsal
import Rollout.Plan.Basic
import Rollout.Run.Summary
import Rollout.Settings.Store
import Rollout.Text.Quoted

namespace Rollout.CommandLine

/-- The machine on which the program runs, the name for an install run, what the program has
printed, and when it is interrupted. -/
structure Desk where
  machine : Workstation
  runId : String
  interrupt : Interrupt := .never
  printed : String := ""

/-- Work of the program, which may fail. What was done before a failure stays done. -/
abbrev Work := ExceptT Failure (StateM Desk)

def printLine (t : String) : Work Unit :=
  modify fun d ↦ { d with printed := d.printed ++ t ++ "\n" }

def files : Work FileTree := do return (← get).machine.files

def change (toFailure : FileFault → Failure) (f : FileTree → Except FileFault FileTree) :
    Work Unit := do
  match f (← files) with
  | .ok files => modify fun d ↦ { d with machine.files := files }
  | .error e => throw (toFailure e)

def setMachine (m : Workstation) : Work Unit := modify fun d ↦ { d with machine := m }

/-- A path as it is told: quoted, with single quotes behind backslashes. -/
def quotedPath (path : String) : String := Text.replace (Text.quoted path) "'" "\\'"

def startProject (directory : String) : Work Unit := do
  change .ofFile fun files ↦ files.makeDirectories directory
  match Settings.writeSample (← files) (FileTree.join directory "pfsmon.toml") with
  | .ok files => modify fun d ↦ { d with machine.files := files }
  | .error e => throw (Failure.ofFault e)
  change .ofFile fun files ↦ files.write (FileTree.join directory "catalog.toml") Catalog.sample
  change .ofFile fun files ↦ files.write (FileTree.join directory "hosts.toml") Inventory.sample
  printLine ("Initialized pfsmon in " ++ quotedPath directory)
  printLine "Created:\n  pfsmon.toml\n  catalog.toml\n  hosts.toml"
  printLine ("\nNext steps:\n  1. List your hosts and their roles in hosts.toml\n" ++
    "  2. Run 'pfsmon plan' to review the install order\n" ++
    "  3. Run 'pfsmon install' and follow it with 'pfsmon status'")

def loadProject (s : Selection) : Work Project := do
  match Project.load (← files) s with
  | .ok p => return p
  | .error f => throw f

def printReport (json : Bool) (r : Report) : Work Unit :=
  printLine (if json then r.pretty else r.render)

def supervise (s : AgentStage Workstation Workstation.Started) : Work Unit := do
  let (s, lines) := superviseUntilInterrupted (← get).interrupt s
  setMachine s.hosts
  if s.brokeOff then throw ⟨"Agent supervisor panicked", []⟩
  lines.forM printLine

def runInstall (settings : Settings) (s : Selection) (workers : Option Nat)
    (json supervised : Bool) : Work Nat := do
  let p ← loadProject s
  let state : StateFiles := ⟨settings.run.stateDir⟩
  change (fun e ↦ (Failure.ofFile e).inContext ("Failed to create " ++ state.directory))
    fun files ↦ files.makeDirectories state.directory
  if (← files).existsAt state.cancel then change .ofFile fun files ↦ files.remove state.cancel
  let d ← get
  let w := install d.runId settings p workers d.interrupt d.machine
  setMachine w.stage.hosts
  printReport json w.report
  modify fun d ↦
    { d with interrupt := w.interrupt.observeAll w.stage.now (Text.lines d.printed) }
  if supervised && settings.run.startAgents && !w.report.cancelled then supervise w.agents
  return w.report.exitCode

def showStatus (settings : Settings) (json : Bool) : Work Unit := do
  let path := StateFiles.status ⟨settings.run.stateDir⟩
  match (← files).read path with
  | .error e => throw ((Failure.ofFile e).inContext ("No run status at " ++ path))
  | .ok content =>
    match Report.read? content with
    | some r => printReport json r
    | none => throw ⟨"Failed to parse run status", []⟩

def requestCancel (settings : Settings) : Work Unit := do
  let state : StateFiles := ⟨settings.run.stateDir⟩
  change .ofFile fun files ↦ files.makeDirectories state.directory
  change .ofFile fun files ↦ files.write state.cancel "cancel\n"
  printLine "Cancellation requested; steps not yet started will be skipped"

def sources (s : PipelineSettings) : List Source :=
  [.load s.procRoot, .memory s.procRoot] ++ (s.statsDir.map Source.statistics).toList

/-- Collects samples until the program is interrupted. No sink is in reach. -/
def collect (settings : Settings) (host : String) (sink : Option String) (interval : Option Nat) :
    Work Unit := do
  let s := settings.pipeline
  let s := { s with
    sinkUrl := sink.getD s.sinkUrl
    sampleIntervalSeconds := (interval.map fun n ↦ max n 1).getD s.sampleIntervalSeconds }
  let samplers := (sources s).map Pipeline.Sampler.source
  let line := "Metric pipeline started for " ++ host ++ " (" ++ Text.decimal samplers.length ++
    " samplers, every " ++ s.sampleInterval.text ++ ")"
  let interrupt := (← get).interrupt.observe 0 line
  let r := (Pipeline.Rehearsal.start (.new host s) samplers (← files)).setFailing true
  if !r.canRun then throw ⟨"Collector panicked", []⟩
  let p := (r.runTo (interrupt.patience 0)).stop.pipeline
  printLine ("Collector stopped: " ++ Text.decimal p.sampled ++ " sampled, " ++
    Text.decimal p.flushed ++ " flushed, " ++ Text.decimal p.dropped ++ " dropped, " ++
    Text.decimal p.pending ++ " unsent")

def adoptAgents (settings : Settings) (s : Selection) :
    Work (Project × AgentStage Workstation Workstation.Started) := do
  let p ← loadProject s
  let fleet := p.inventory.addresses.foldl Fleet.adopt (fleetFor settings)
  return (p, agentStage settings p.inventory (← get).machine fleet)

def stopAgents (settings : Settings) (s : Selection) : Work Unit := do
  let (p, stage) ← adoptAgents settings s
  let (stage, answer) := stage.request .stopAll
  setMachine stage.hosts
  let stopped := match answer with
    | some (.count n) => n
    | _ => 0
  let all := p.inventory.hosts.length
  printLine ("Stopped " ++ Text.decimal stopped ++ " of " ++ Text.decimal all ++
    " collector agents")

def carryOut (settings : Settings) : Command → Work Nat
  | .start directory => do
    startProject directory
    return 0
  | .plan s => do
    printLine (← loadProject s).plan.render
    return 0
  | .install s workers json supervised => runInstall settings s workers json supervised
  | .status json => do
    showStatus settings json
    return 0
  | .cancel => do
    requestCancel settings
    return 0
  | .collect host sink interval => do
    collect settings host sink interval
    return 0
  | .supervise s => do
    supervise (← adoptAgents settings s).2
    return 0
  | .stop s => do
    stopAgents settings s
    return 0

def perform (i : Invocation) : Work Nat := do
  match Settings.load (← files) i.config with
  | .ok settings => carryOut settings i.command
  | .error e => throw ((Failure.ofFault e).inContext ("Failed to load " ++ i.config))

def usageText : String :=
  "Usage: pfsmon [-v] [-c FILE] init|plan|install|status|cancel|agent [OPTIONS]\n"

def Refusal.outcome : Refusal → Outcome
  | .usage => { exitCode := 2, stderr := "error: invalid arguments\n\n" ++ usageText }
  | .help => { stdout := usageText }
  | .version => { stdout := "pfsmon 0.1.0\n" }

/-- Runs the program with some arguments on a machine. `runId` names an install run. -/
def run (runId : String) (interrupt : Interrupt) (m : Workstation) (arguments : List String) :
    Workstation × Outcome :=
  match read arguments with
  | .error r => (m, r.outcome)
  | .ok i =>
    let (r, d) := (perform i).run { machine := m, runId, interrupt }
    (d.machine, match r with
      | .ok code => { exitCode := code, stdout := d.printed }
      | .error f => { exitCode := 1, stdout := d.printed, stderr := f.text })

end Rollout.CommandLine
