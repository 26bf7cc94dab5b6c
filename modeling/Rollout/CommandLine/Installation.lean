import Rollout.CommandLine.Project
import Rollout.Rehearsal.Agents
import Rollout.Rehearsal.Install
import Rollout.Rehearsal.Workstation
import Rollout.Run.ReportJson
import Rollout.Run.Summary
import Rollout.Text.Search

namespace Rollout.CommandLine

/-- When the program is interrupted: never, some milliseconds after it has told something that holds
a text, or at a time. -/
inductive Interrupt
  | never
  | after (text : String) (delay : Nat)
  | due (time : Nat)
  deriving DecidableEq, Repr, Inhabited

namespace Interrupt

def observe (now : Nat) (i : Interrupt) (line : String) : Interrupt :=
  match i with
  | .after text delay => if Text.contains line text then .due (now + delay) else i
  | i => i

def observeAll (now : Nat) (i : Interrupt) (lines : List String) : Interrupt :=
  lines.foldl (observe now) i

def time? : Interrupt → Option Nat
  | .due t => some t
  | _ => none

def isDue (now : Nat) (i : Interrupt) : Bool := (i.time?.map fun t ↦ decide (t ≤ now)).getD false

/-- How long work that goes on until it is interrupted is let go on, so that it is done at least
once. -/
def patience (now : Nat) : Interrupt → Nat
  | .never => 1
  | .after _ delay => delay
  | .due t => t - now

end Interrupt

def clock (now : Nat) : UInt64 := 946684800000 + now.toUInt64

structure StateFiles where
  directory : String
  deriving DecidableEq, Repr, Inhabited

def StateFiles.status (s : StateFiles) : String := FileTree.join s.directory "status.json"

def StateFiles.cancel (s : StateFiles) : String := FileTree.join s.directory "cancel"

def sshFor (settings : Settings) (inventory : Inventory) : Ssh :=
  Ssh.withLogins inventory.hosts
    { transport := settings.transport, transferTimeout := settings.run.commandTimeout }

def guardFor {τ : Type} (t : TransportSettings) : Guard τ :=
  .new t.maxInFlight t.breakerThreshold.toUInt32 (.ofSeconds t.breakerCooldownSeconds)

def fleetFor (settings : Settings) : Fleet where
  settings := settings.agent
  sink := settings.pipeline.sinkUrl

def agentStage (settings : Settings) (inventory : Inventory) (m : Workstation) (fleet : Fleet) :
    AgentStage Workstation Workstation.Started :=
  { play := AgentScene.play, executor := Workstation.executor (sshFor settings inventory), clock
    hosts := m, shared := { fleet }, guard := some (guardFor settings.transport) }

/-- Looks after the agents until the program is interrupted, and tells how often each was started
again. -/
def superviseUntilInterrupted (interrupt : Interrupt)
    (s : AgentStage Workstation Workstation.Started) :
    AgentStage Workstation Workstation.Started × List String :=
  let line := "Supervising " ++ Text.decimal s.shared.fleet.agents.length ++
    " collector agents, press Ctrl-C to stop"
  let interrupt := interrupt.observe s.now line
  let s := s.supervise (interrupt.patience s.now)
  (s, (s.shared.fleet.agents.filter fun a ↦ 0 < a.restarts).map fun a ↦
    a.host ++ ": restarted " ++ Text.decimal a.restarts.toNat ++ " times")

structure Watch where
  files : StateFiles
  stage : InstallStage Workstation Workstation.Started
  interrupt : Interrupt
  /-- When the files are looked after next, in milliseconds. -/
  nextTick : Nat := 0
  seen : Report

namespace Watch

def report (w : Watch) : Report := InstallStage.report w.stage

def start (files : StateFiles) (interrupt : Interrupt) (job : Job)
    (stage : InstallStage Workstation Workstation.Started) : Watch where
  files := files
  stage := stage
  interrupt := interrupt.observe stage.now
    (Journal.beginning (InstallStage.report stage) job.workers)
  seen := InstallStage.report stage

def isOver (w : Watch) : Bool := w.stage.shared.endedAt.isSome

def settle (w : Watch) : Watch :=
  let stage := Stage.run (some (w.stage.now + 1)) Stage.longestPlay w.stage
  let report := InstallStage.report stage
  { w with
    stage := stage
    interrupt := w.interrupt.observeAll stage.now
      (Journal.lines stage.shared.job.agents w.seen report)
    seen := report }

def changeFiles (f : FileTree → Except FileFault FileTree) (w : Watch) : Watch :=
  match f w.stage.hosts.files with
  | .ok files => { w with stage := { w.stage with hosts.files := files } }
  | .error _ => w

def writeStatus (w : Watch) : Watch :=
  w.changeFiles fun files ↦ files.write w.files.status w.report.pretty

def cancel (w : Watch) : Watch := { w with stage := InstallStage.requestCancel w.stage }

def isCancelMarked (w : Watch) : Bool := w.stage.hosts.files.existsAt w.files.cancel

def tick (w : Watch) : Watch :=
  let w := { w.writeStatus with nextTick := w.nextTick + 1000 }
  if w.isCancelMarked then w.cancel else w

def advance (w : Watch) : Watch :=
  let times := w.nextTick :: ((Stage.nextDue? w.stage).toList ++ w.interrupt.time?.toList)
  { w with stage := Stage.jump (times.min?.getD w.nextTick) w.stage }

/-- Watches a run to its end, or for at most `fuel` looks. -/
def run : (fuel : Nat) → Watch → Watch
  | 0, w => w
  | fuel + 1, w =>
    let w := w.settle
    if w.isOver then w
    else if w.nextTick ≤ w.stage.now then run fuel w.tick
    else if w.interrupt.isDue w.stage.now then run fuel { w.cancel with interrupt := .never }
    else run fuel w.advance

def finish (w : Watch) : Watch :=
  let w := w.writeStatus
  if w.isCancelMarked then w.changeFiles fun files ↦ files.remove w.files.cancel else w

end Watch

def install (runId : String) (settings : Settings) (p : Project) (workers : Option Nat)
    (interrupt : Interrupt) (m : Workstation) : Watch :=
  let job : Job := {
    plan := p.plan
    inventory := p.inventory
    workers := max (workers.getD settings.run.workers) 1
    commandTimeout := settings.run.commandTimeout
    retry := p.catalog.retry
    agents := settings.run.startAgents }
  let scene := InstallScene.initial job (fleetFor settings) runId .zero
  let stage := InstallStage.new (Workstation.executor (sshFor settings p.inventory)) clock m
    (some (guardFor settings.transport)) scene
  ((Watch.start ⟨settings.run.stateDir⟩ interrupt job stage).run Stage.longestPlay).finish

def Watch.agents (w : Watch) : AgentStage Workstation Workstation.Started :=
  { play := AgentScene.play, executor := w.stage.executor, clock, hosts := w.stage.hosts
    shared := { fleet := w.stage.shared.fleet }, guard := w.stage.guard.map Guard.withoutCalls
    now := w.stage.now }

end Rollout.CommandLine
