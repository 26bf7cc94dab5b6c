import Rollout.CommandLine.Perform
import Rollout.Proofs.Run.Saved

namespace Rollout

namespace FileTree

variable {t t' : FileTree} {path content : String} {place : List String}

theorem nodeAt?_put (hplace : place ≠ []) (n : FileNode) :
    (t.put place n).nodeAt? place = some n := by
  have hothers : (t.nodes.filter fun m ↦ m.1 != place).find? (fun m ↦ m.1 == place) = none := by
    rw [List.find?_eq_none]
    intro m hm heq
    rw [List.mem_filter, bne_iff_ne] at hm
    exact hm.2 (beq_iff_eq.mp heq)
  rw [nodeAt?, if_neg (by simpa using hplace), put, List.find?_append, hothers]
  simp

theorem eq_put_of_write (h : t.write path content = .ok t') :
    path.isEmpty = false ∧ t.findPath path ≠ .ok .directory ∧
      t' = t.put (t.resolve path) (.file content) := by
  simp only [write] at h
  split at h
  · cases h
  · rename_i old hfind
    have hpath : path.isEmpty = false := by
      rw [← Bool.not_eq_true]
      intro hempty
      rw [findPath, if_pos hempty] at hfind
      cases hfind
    cases h
    exact ⟨hpath, by rw [hfind]; nofun, rfl⟩
  · cases h
  · rename_i hfind
    split at h
    · split at h
      · cases h
      · rename_i hpath
        split at h
        · cases h
        · cases h
          exact ⟨Bool.eq_false_iff.mpr hpath, by rw [hfind]; nofun, rfl⟩
    · cases h
    · cases h

theorem read_of_write (h : t.write path content = .ok t') : t'.read path = .ok content := by
  obtain ⟨hpath, hfind, rfl⟩ := eq_put_of_write h
  have hplace : t.resolve path ≠ [] := by
    intro hnil
    rw [findPath, hpath, hnil] at hfind
    exact hfind rfl
  have hresolve : (t.put (t.resolve path) (.file content)).resolve path = t.resolve path := rfl
  rw [read, findPath, hpath, hresolve, find]
  simp only [Bool.false_eq_true, if_false, nodeAt?_put hplace]
  rfl

end FileTree

namespace CommandLine

theorem showStatus_of_read {settings : Settings} {d : Desk} {content : String} {r : Report}
    (hfile : d.machine.files.read (StateFiles.status ⟨settings.run.stateDir⟩) = .ok content)
    (hread : Report.read? content = some r) (json : Bool) :
    (showStatus settings json).run d = (printReport json r).run d := by
  have hfiles : ∀ k : FileTree → Work Unit, (files >>= k).run d = (k d.machine.files).run d :=
    fun _ ↦ rfl
  rw [showStatus, hfiles, hfile]
  simp only [hread]

theorem showStatus_of_write {w : Watch} (hfits : w.report.Fits) {written : FileTree}
    (hwrite : w.stage.hosts.files.write w.files.status w.report.pretty = .ok written)
    {settings : Settings} {d : Desk} (hdirectory : settings.run.stateDir = w.files.directory)
    (hfiles : d.machine.files = w.writeStatus.stage.hosts.files) (json : Bool) :
    (showStatus settings json).run d = (printReport json w.report).run d := by
  have hwritten : w.writeStatus.stage.hosts.files = written := by
    simp only [Watch.writeStatus, Watch.changeFiles, hwrite]
  have hfile : d.machine.files.read (StateFiles.status ⟨settings.run.stateDir⟩) =
      .ok w.report.pretty := by
    rw [hfiles, hwritten, hdirectory]
    exact FileTree.read_of_write hwrite
  exact showStatus_of_read hfile (Report.read?_pretty hfits) json

/-- Every report and every host is read back from its text, on one line as well as on many. The
status that a run has written is shown as the same report. What was read from any text is read back
once more. -/
theorem saved :
    (∀ r : Report, r.Fits →
      Report.read? r.pretty = some r ∧ Report.read? r.toJson.compact = some r) ∧
    (∀ h : Host, Role.sorted h.roles = h.roles →
      Host.read? h.text = some h ∧ Host.read? h.toJson.pretty = some h) ∧
    (∀ (w : Watch) (written : FileTree) (settings : Settings) (d : Desk) (json : Bool),
      w.report.Fits →
      w.stage.hosts.files.write w.files.status w.report.pretty = .ok written →
      settings.run.stateDir = w.files.directory →
      d.machine.files = w.writeStatus.stage.hosts.files →
      (showStatus settings json).run d = (printReport json w.report).run d) ∧
    (∀ (s : String) (r : Report), Report.read? s = some r → Report.read? r.pretty = some r) ∧
    ∀ (s : String) (h : Host), Host.read? s = some h → Host.read? h.text = some h := by
  refine ⟨fun r hr ↦ ⟨Report.read?_pretty hr, Report.read?_compact hr⟩,
    fun h hh ↦ ⟨Host.read?_text hh, Host.read?_pretty hh⟩,
    fun w written settings d json hfits hwrite hdirectory hfiles ↦
      showStatus_of_write hfits hwrite hdirectory hfiles json,
    fun s r hr ↦ Report.read?_pretty (Report.fits_of_read? hr),
    fun s h hh ↦ Host.read?_text ?_⟩
  obtain ⟨v, -, hv⟩ := Option.bind_eq_some_iff.mp hh
  exact Host.sorted_of_ofJson? hv

def oddReport : Report where
  runId := "run \"1\"\\\n\x00é𝄞"
  startedAt := ⟨-44, 3, 15, 12, 0, 60, 1000⟩
  cancelled := true
  hosts := [{
    address := ""
    roles := [.monitor, .client, .monitor]
    failedStep := some "/\t\x7f"
    agentHealth := some .unhealthy }]
  steps := [{
    id := word64 - 1
    host := "oss01"
    role := .client
    name := "\u2028"
    kind := .push
    attempts := word32 - 1
    error := some "\r\x1b[0m"
    startedAt := some ⟨12026, 2, 28, 23, 59, 59, 999999999⟩ }]

theorem fits_oddReport : oddReport.Fits where
  startedAt := Moment.isValid_iff.mp rfl
  finishedAt := nofun
  steps := by
    intro s hs
    obtain rfl := List.mem_singleton.mp hs
    refine ⟨by decide, by decide, fun t ht ↦ ?_, nofun⟩
    obtain rfl := Option.some.inj ht
    exact Moment.isValid_iff.mp rfl

def oddHost : Host where
  address := "oss\x08"
  roles := [.objectStorage, .monitor]
  login := { identityFile := some "/keys/\\id" }

/-- A run of a program in an empty directory that is about to write its status. -/
def oddWatch : Watch :=
  let job : Job := {
    plan := default
    inventory := default
    workers := 1
    commandTimeout := .zero
    retry := default
    agents := false }
  let scene := InstallScene.initial job default "" .zero
  let machine : Workstation := { files := .empty "/state" }
  let stage := InstallStage.new (Workstation.executor default) clock machine none
    { scene with control.report := oddReport }
  .start ⟨"/state"⟩ .never job stage

theorem saved_odd :
    Report.read? oddReport.pretty = some oddReport ∧ Host.read? oddHost.text = some oddHost ∧
      (showStatus { run.stateDir := "/state" } true).run
          { machine := oddWatch.writeStatus.stage.hosts, runId := "" } =
        (printReport true oddReport).run
          { machine := oddWatch.writeStatus.stage.hosts, runId := "" } := by
  obtain ⟨hreport, hhost, hstatus, -⟩ := saved
  have hwatch : oddWatch.report = oddReport := rfl
  have hwrite : ∀ content, ∃ written,
      oddWatch.stage.hosts.files.write oddWatch.files.status content = .ok written := by
    intro content
    exact ⟨_, rfl⟩
  obtain ⟨written, hwritten⟩ := hwrite oddWatch.report.pretty
  exact ⟨(hreport oddReport fits_oddReport).1, (hhost oddHost rfl).1,
    hstatus oddWatch written _ _ true fits_oddReport hwritten rfl rfl⟩

end CommandLine

end Rollout
