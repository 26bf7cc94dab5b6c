import Rollout.Proofs.Remote.Checksum
import Rollout.Remote.Ssh

namespace Rollout

namespace Text

theorem occursIn_iff {piece cs : List Char} : occursIn piece cs = true ↔ piece <:+: cs := by
  induction cs with
  | nil => simp [occursIn]
  | cons c cs ih =>
    rw [occursIn, Bool.or_eq_true, List.isPrefixOf_iff_prefix, ih, List.infix_cons_iff]

theorem contains_iff {s piece : String} :
    contains s piece = true ↔ piece.toList <:+: s.toList := occursIn_iff

end Text

def ProgramOutcome.succeeds : ProgramOutcome → Bool
  | .ended e => decide (e.exitCode = 0)
  | _ => false

theorem ProgramOutcome.succeeds_iff {o : ProgramOutcome} :
    o.succeeds = true ↔ ∃ e, o = .ended e ∧ e.exitCode = 0 := by
  cases o <;> simp [succeeds]

structure Launched where
  stage : SshStage
  program : Program
  bound : Span
  outcome : ProgramOutcome
  deriving Repr

namespace Launched

/-- An ending that is laid to the connection. The program for remote shells says so by its code, the
one for remote copies only by what it writes. -/
def Blames : SshStage → Ending → Prop
  | .copy _, e => ∃ mark ∈ Ssh.connectionMarks, mark.toList <:+: (Ssh.output e).stderr.toList
  | _, e => e.exitCode = 255

def Disconnected (x : Launched) : Prop :=
  ∃ e, x.outcome = .ended e ∧ e.exitCode ≠ 0 ∧ Blames x.stage e

def Refused (x : Launched) : Prop :=
  ∃ e, x.outcome = .ended e ∧ e.exitCode ≠ 0 ∧ ¬ Blames x.stage e

inductive Fails (host : String) (x : Launched) : Fault → Prop
  | late (h : x.outcome = .late) : Fails host x (.timeout host x.bound)
  | notStarted {why : FileFault} (h : x.outcome = .notStarted why) : Fails host x (.io why.text)
  | disconnected {e : Ending} (h : x.outcome = .ended e) (hcode : e.exitCode ≠ 0)
      (hblames : Blames x.stage e) : Fails host x (.connect host (Text.trim (Ssh.output e).stderr))
  | refused {e : Ending} (h : x.outcome = .ended e) (hcode : e.exitCode ≠ 0)
      (hblames : ¬ Blames x.stage e) :
      Fails host x (.exec host e.exitCode (Text.trim (Ssh.output e).stderr))

def move (x : Launched) : SshMove := .launch x.program x.bound x.stage

variable {host : String} {x : Launched} {fault : Fault}

theorem Fails.succeeds (h : x.Fails host fault) : x.outcome.succeeds = false := by
  cases h with
  | late h | notStarted h => simp [h, ProgramOutcome.succeeds]
  | disconnected h hcode | refused h hcode => simp [h, hcode, ProgramOutcome.succeeds]

theorem Disconnected.succeeds (h : x.Disconnected) : x.outcome.succeeds = false := by
  obtain ⟨e, he, hcode, -⟩ := h
  simp [he, hcode, ProgramOutcome.succeeds]

theorem Refused.succeeds (h : x.Refused) : x.outcome.succeeds = false := by
  obtain ⟨e, he, hcode, -⟩ := h
  simp [he, hcode, ProgramOutcome.succeeds]

theorem not_succeeds_of_late (h : x.outcome = .late) : x.outcome.succeeds = false := by
  rw [h]
  rfl

theorem not_succeeds_of_notStarted (h : ∃ why, x.outcome = .notStarted why) :
    x.outcome.succeeds = false := by
  obtain ⟨why, h⟩ := h
  rw [h]
  rfl

theorem Fails.connect_iff (h : x.Fails host fault) :
    (∃ a m, fault = .connect a m) ↔ x.Disconnected := by
  cases h with
  | late h | notStarted h => simp [Disconnected, h]
  | disconnected h hcode hblames => simp [Disconnected, h, hcode, hblames]
  | refused h hcode hblames => simp [Disconnected, h, hblames]

theorem Fails.timeout_iff (h : x.Fails host fault) :
    (∃ a b, fault = .timeout a b) ↔ x.outcome = .late := by
  cases h with
  | late h | notStarted h | disconnected h | refused h => simp [h]

theorem Fails.exec_iff (h : x.Fails host fault) :
    (∃ a c m, fault = .exec a c m) ↔ x.Refused := by
  cases h with
  | late h | notStarted h => simp [Refused, h]
  | disconnected h hcode hblames => simp [Refused, h, hblames]
  | refused h hcode hblames => simp [Refused, h, hcode, hblames]

theorem Fails.io_iff (h : x.Fails host fault) :
    (∃ m, fault = .io m) ↔ ∃ why, x.outcome = .notStarted why := by
  cases h with
  | late h | notStarted h | disconnected h | refused h => simp [h]

theorem Fails.not_other (h : x.Fails host fault) : ¬ ∃ m, fault = .other m := by
  cases h <;> simp

def upToFailure : List Launched → List Launched
  | [] => []
  | x :: xs => if x.outcome.succeeds then x :: upToFailure xs else [x]

theorem upToFailure_of_succeeds {xs : List Launched} (h : ∀ x ∈ xs, x.outcome.succeeds = true) :
    upToFailure xs = xs := by
  induction xs with
  | nil => rfl
  | cons x xs ih =>
    obtain ⟨hx, hxs⟩ := List.forall_mem_cons.mp h
    rw [upToFailure, if_pos hx, ih hxs]

end Launched

namespace Ssh

open Launched

variable {s : Ssh} {host : String}

/-- The programs that an operation starts, one after the other, with what comes of them, and its
reply when it has ended. -/
def carryOn (s : Ssh) : SshMove → List ProgramOutcome → List Launched × Option Reply
  | .done r, _ => ([], some r)
  | .launch _ _ _, [] => ([], none)
  | .launch p bound stage, o :: os =>
    let later := s.carryOn (s.proceed stage o) os
    (⟨stage, p, bound, o⟩ :: later.1, later.2)

section Programs

variable (s : Ssh) (t : Transfer) (o : ProgramOutcome)

def probing : Launched := ⟨.probe t s.probeBound, s.commandProgram t.host "true", s.probeBound, o⟩

def copying : Launched := ⟨.copy t, s.copyProgram t, s.transferTimeout, o⟩

def checking : Launched :=
  ⟨.checksum t, s.commandProgram t.host (checksumCommand t.remotePath), s.transferTimeout, o⟩

end Programs

def programs (s : Ssh) (t : Transfer) (probe copy sum : ProgramOutcome) : List Launched :=
  [s.probing t probe, s.copying t copy, s.checking t sum]

theorem commandReply_cases (hlocal : isLocal host = false) {x : Launched}
    (hstage : ∀ t, x.stage ≠ .copy t) :
    (∃ e, x.outcome = .ended e ∧ e.exitCode = 0 ∧
      commandReply host x.bound x.outcome = .ok (output e)) ∨
    ∃ fault, x.Fails host fault ∧ commandReply host x.bound x.outcome = .error fault := by
  cases ho : x.outcome with
  | late => exact .inr ⟨_, .late ho, rfl⟩
  | notStarted why => exact .inr ⟨_, .notStarted ho, rfl⟩
  | ended e =>
    have hblames : Blames x.stage e ↔ e.exitCode = 255 := by
      cases hx : x.stage with
      | copy t => exact absurd hx (hstage t)
      | _ => rfl
    by_cases hzero : e.exitCode = 0
    · exact .inl ⟨e, rfl, hzero, if_pos hzero⟩
    · simp only [commandReply, hzero, if_false, hlocal, connectFailureCode]
      by_cases hcode : e.exitCode = 255
      · exact .inr ⟨_, .disconnected ho hzero (hblames.mpr hcode), by simp [hcode, connectFault]⟩
      · exact .inr ⟨_, .refused ho hzero (mt hblames.mp hcode), by simp [hcode, execFault]⟩

theorem copyReply_cases {x : Launched} {t : Transfer} (hstage : x.stage = .copy t) :
    (∃ e, x.outcome = .ended e ∧ e.exitCode = 0 ∧ copyReply host x.bound x.outcome = .ok {}) ∨
    ∃ fault, x.Fails host fault ∧ copyReply host x.bound x.outcome = .error fault := by
  cases ho : x.outcome with
  | late => exact .inr ⟨_, .late ho, rfl⟩
  | notStarted why => exact .inr ⟨_, .notStarted ho, rfl⟩
  | ended e =>
    have hblames : Blames x.stage e ↔ tellsConnectFailure (output e).stderr = true := by
      rw [hstage, tellsConnectFailure, List.any_eq_true]
      simp only [Text.contains_iff]
      rfl
    by_cases hzero : e.exitCode = 0
    · exact .inl ⟨e, rfl, hzero, if_pos hzero⟩
    · simp only [copyReply, hzero, if_false]
      by_cases hmark : tellsConnectFailure (output e).stderr = true
      · exact .inr ⟨_, .disconnected ho hzero (hblames.mpr hmark), by simp [hmark, connectFault]⟩
      · exact .inr ⟨_, .refused ho hzero (mt hblames.mp hmark), by simp [hmark, execFault]⟩

def onward (s : Ssh) : SshStage → Ending → SshMove
  | .command _ _, e => .done (.ok (output e))
  | .probe t _, _ => .launch (s.copyProgram t) s.transferTimeout (.copy t)
  | .copy t, _ => s.launchChecksum t
  | .checksum t, e => .done (checksumReply t (output e).stdout)

section Run

variable {t : Transfer} {probe copy sum : ProgramOutcome}

theorem proceed_cases (hlocal : isLocal t.host = false) {x : Launched}
    (hx : x ∈ s.programs t probe copy sum) :
    (∃ e, x.outcome = .ended e ∧ e.exitCode = 0 ∧
      s.proceed x.stage x.outcome = s.onward x.stage e) ∨
    ∃ fault, x.Fails t.host fault ∧ s.proceed x.stage x.outcome = .done (.error fault) := by
  have hcommand : (∀ u, x.stage ≠ .copy u) → _ := commandReply_cases (x := x) hlocal
  simp only [programs, probing, copying, checking, List.mem_cons, List.not_mem_nil, or_false] at hx
  rcases hx with rfl | rfl | rfl
  · simp only [proceed, onward]
    rcases hcommand (by simp) with ⟨e, he, hcode, hr⟩ | ⟨fault, hfails, hr⟩
    · exact .inl ⟨e, he, hcode, by simp only [hr]⟩
    · exact .inr ⟨fault, hfails, by simp only [hr]⟩
  · simp only [proceed, onward]
    have hcopy : _ ∨ ∃ fault, (s.copying t copy).Fails t.host fault ∧ _ := copyReply_cases rfl
    simp only [copying] at hcopy
    rcases hcopy with ⟨e, he, hcode, hr⟩ | ⟨fault, hfails, hr⟩
    · exact .inl ⟨e, he, hcode, by simp only [hr]⟩
    · exact .inr ⟨fault, hfails, by simp only [hr]⟩
  · simp only [proceed, onward]
    rcases hcommand (by simp) with ⟨e, he, hcode, hr⟩ | ⟨fault, hfails, hr⟩
    · exact .inl ⟨e, he, hcode, by simp only [hr]⟩
    · exact .inr ⟨fault, hfails, by simp only [hr]⟩

theorem carryOn_cases (hlocal : isLocal t.host = false) {x : Launched}
    (hx : x ∈ s.programs t probe copy sum) (os : List ProgramOutcome) :
    (∃ e, x.outcome = .ended e ∧ x.outcome.succeeds = true ∧
      s.carryOn x.move (x.outcome :: os) =
        (x :: (s.carryOn (s.onward x.stage e) os).1, (s.carryOn (s.onward x.stage e) os).2)) ∨
    ∃ fault, x.Fails t.host fault ∧
      s.carryOn x.move (x.outcome :: os) = ([x], some (.error fault)) := by
  rcases proceed_cases hlocal hx with ⟨e, he, hcode, hmove⟩ | ⟨fault, hfails, hmove⟩
  · exact .inl ⟨e, he, ProgramOutcome.succeeds_iff.mpr ⟨e, he, hcode⟩, by
      rw [move, carryOn, hmove]⟩
  · exact .inr ⟨fault, hfails, by rw [move, carryOn, hmove, carryOn]⟩

/-- How a copy ended whose file could be read: with the failure of the last program that was
started, or with what the last program showed. -/
inductive Ended (t : Transfer) (all : List Launched) (sum : ProgramOutcome) :
    List Launched → Reply → Prop
  | failed {front : List Launched} {x : Launched} {fault : Fault} (hx : x ∈ all)
      (hfront : ∀ y ∈ front, y.outcome.succeeds = true) (hfails : x.Fails t.host fault) :
      Ended t all sum (front ++ [x]) (.error fault)
  | answered {e : Ending} (hall : ∀ y ∈ all, y.outcome.succeeds = true) (hsum : sum = .ended e) :
      Ended t all sum all (checksumReply t (output e).stdout)

theorem carryOn_programs (probe copy sum : ProgramOutcome) (hlocal : isLocal t.host = false) :
    ∃ reply, s.carryOn (s.probing t probe).move [probe, copy, sum] =
      (upToFailure (s.programs t probe copy sum), some reply) ∧
    Ended t (s.programs t probe copy sum) sum (upToFailure (s.programs t probe copy sum))
      reply := by
  have hprobe : s.probing t probe ∈ s.programs t probe copy sum := List.mem_cons_self
  have hcopy : s.copying t copy ∈ s.programs t probe copy sum :=
    List.mem_cons_of_mem _ List.mem_cons_self
  have hsum : s.checking t sum ∈ s.programs t probe copy sum :=
    List.mem_cons_of_mem _ (List.mem_cons_of_mem _ List.mem_cons_self)
  have hrest : ∀ {m : SshMove} {x : Launched} {os xs r}, s.carryOn m os = (xs, some r) →
      (x :: (s.carryOn m os).1, (s.carryOn m os).2) = (x :: xs, some r) := fun h ↦ by rw [h]
  rcases carryOn_cases hlocal hprobe [copy, sum] with
    ⟨e, -, hfirst, hrun⟩ | ⟨fault, hfails, hrun⟩
  · rcases carryOn_cases hlocal hcopy [sum] with
      ⟨e, -, hsecond, hmore⟩ | ⟨fault, hfails, hmore⟩
    · rcases carryOn_cases hlocal hsum [] with ⟨e, he, hthird, hlast⟩ | ⟨fault, hfails, hlast⟩
      · have hall : ∀ x ∈ s.programs t probe copy sum, x.outcome.succeeds = true := by
          simp [programs, hfirst, hsecond, hthird]
        rw [upToFailure_of_succeeds hall]
        exact ⟨_, hrun.trans (hrest (hmore.trans (hrest hlast))), .answered hall he⟩
      · have hstages : upToFailure (s.programs t probe copy sum) =
            [s.probing t probe, s.copying t copy] ++ [s.checking t sum] := by
          simp [programs, upToFailure, hfirst, hsecond]
        rw [hstages]
        refine ⟨_, hrun.trans (hrest (hmore.trans (hrest hlast))), .failed hsum ?_ hfails⟩
        simp [hfirst, hsecond]
    · have hstages : upToFailure (s.programs t probe copy sum) =
          [s.probing t probe] ++ [s.copying t copy] := by
        simp [programs, upToFailure, hfirst, hfails.succeeds]
      rw [hstages]
      refine ⟨_, hrun.trans (hrest hmore), .failed hcopy ?_ hfails⟩
      simp [hfirst]
  · have hstages : upToFailure (s.programs t probe copy sum) = [] ++ [s.probing t probe] := by
      simp [programs, upToFailure, hfails.succeeds]
    rw [hstages]
    exact ⟨_, hrun, .failed hprobe (by simp) hfails⟩

end Run

section Checked

variable {t : Transfer} {shown : String}

theorem checksumReply_of_read (hread : Checksum.read shown = .ok t.digest) :
    checksumReply t shown = .ok {} := by
  simp only [checksumReply, hread]
  exact if_pos rfl

theorem checksumReply_of_other {digest : String} (hread : Checksum.read shown = .ok digest)
    (hne : digest ≠ t.digest) : ∃ m, checksumReply t shown = .error (.exec t.host 1 m) := by
  simp only [checksumReply, hread]
  exact ⟨_, if_neg hne⟩

theorem checksumReply_of_unread {fault : Fault} (hread : Checksum.read shown = .error fault) :
    checksumReply t shown = .error fault := by
  simp only [checksumReply, hread]
  rfl

theorem checksumReply_cases (t : Transfer) (shown : String) :
    (∃ w, (Text.words shown).head? = some w ∧ Checksum.IsDigest w ∧ Checksum.lower w = t.digest ∧
      checksumReply t shown = .ok {}) ∨
    (∃ w, (Text.words shown).head? = some w ∧ Checksum.IsDigest w ∧ Checksum.lower w ≠ t.digest ∧
      ∃ m, checksumReply t shown = .error (.exec t.host 1 m)) ∨
    (∀ w, (Text.words shown).head? = some w → ¬ Checksum.IsDigest w) ∧
      ∃ m, checksumReply t shown = .error (.other m) := by
  cases hfirst : (Text.words shown).head? with
  | none => exact .inr (.inr ⟨nofun, _, checksumReply_of_unread (Checksum.read_of_blank hfirst)⟩)
  | some w =>
    by_cases hdigest : Checksum.IsDigest w
    · have hread := Checksum.read_of_isDigest hfirst hdigest
      by_cases heq : Checksum.lower w = t.digest
      · exact .inl ⟨w, rfl, hdigest, heq, checksumReply_of_read (heq ▸ hread)⟩
      · exact .inr (.inl ⟨w, rfl, hdigest, heq, checksumReply_of_other hread heq⟩)
    · refine .inr (.inr ⟨?_, _, checksumReply_of_unread
        (Checksum.read_of_not_isDigest hfirst hdigest)⟩)
      rintro v hv
      cases hv
      exact hdigest

theorem checksumReply_ok_iff (hdigest : Checksum.IsDigest t.digest) : checksumReply t shown = .ok {} ↔
      ∃ w, (Text.words shown).head? = some w ∧ Checksum.lower w = t.digest := by
  rcases checksumReply_cases t shown with ⟨w, hw, -, heq, hr⟩ | ⟨w, hw, -, hne, m, hr⟩ | ⟨hw, m, hr⟩
  · simp [hr, hw, heq]
  · simp [hr, hw, hne]
  · rw [hr]
    refine iff_of_false nofun fun ⟨w, hfirst, heq⟩ ↦ hw w hfirst ?_
    exact Checksum.isDigest_of_lower (heq ▸ hdigest)

theorem checksumReply_exec_iff : (∃ a c m, checksumReply t shown = .error (.exec a c m)) ↔
    ∃ w, (Text.words shown).head? = some w ∧ Checksum.IsDigest w ∧
      Checksum.lower w ≠ t.digest := by
  rcases checksumReply_cases t shown with
    ⟨w, hw, -, heq, hr⟩ | ⟨w, hw, hdigest, hne, m, hr⟩ | ⟨hw, m, hr⟩
  · simp [hr, hw, heq]
  · simp [hr, hw, hne, hdigest]
  · rw [hr]
    exact iff_of_false (by simp) fun ⟨w, hfirst, hdigest, _⟩ ↦ hw w hfirst hdigest

theorem checksumReply_other_iff : (∃ m, checksumReply t shown = .error (.other m)) ↔
    ∀ w, (Text.words shown).head? = some w → ¬ Checksum.IsDigest w := by
  rcases checksumReply_cases t shown with
    ⟨w, hw, hdigest, -, hr⟩ | ⟨w, hw, hdigest, -, m, hr⟩ | ⟨hw, m, hr⟩
  · simp [hr, hw, hdigest]
  · simp [hr, hw, hdigest]
  · rw [hr]
    exact iff_of_true ⟨m, rfl⟩ hw

end Checked

/-- The file could be read, all three programs ended without a failure, and this is the first word
that the last one wrote. -/
structure Shows (source : Except FileFault (List UInt8)) (probe copy sum : ProgramOutcome)
    (content : List UInt8) (first : Option String) : Prop where
  source_eq : source = .ok content
  probe_succeeds : probe.succeeds = true
  copy_succeeds : copy.succeeds = true
  sum_succeeds : ∃ e, sum = .ended e ∧ e.exitCode = 0 ∧
    (Text.words (output e).stdout).head? = first

/-- What is started for a copy to another machine, and what is reported of it. -/
structure Pushed (s : Ssh) (host localPath remotePath : String)
    (source : Except FileFault (List UInt8)) (probe copy sum : ProgramOutcome)
    (ran : List Launched) (reply : Reply) : Prop where
  unread : ∀ why, source = .error why → ran = []
  started : ∀ content, source = .ok content → ran = upToFailure
    (s.programs ⟨host, localPath, remotePath, Sha256.hex content⟩ probe copy sum)
  told : ∀ x ∈ ran, x.outcome.succeeds = false → ∃ fault, x.Fails host fault ∧ reply = .error fault
  ok_iff : reply = .ok {} ↔ ∃ content w, Shows source probe copy sum content (some w) ∧
    Checksum.lower w = Sha256.hex content
  connect_iff : (∃ a m, reply = .error (.connect a m)) ↔ ∃ x ∈ ran, x.Disconnected
  timeout_iff : (∃ a b, reply = .error (.timeout a b)) ↔ ∃ x ∈ ran, x.outcome = .late
  exec_iff : (∃ a c m, reply = .error (.exec a c m)) ↔ (∃ x ∈ ran, x.Refused) ∨
    ∃ content w, Shows source probe copy sum content (some w) ∧ Checksum.IsDigest w ∧
      Checksum.lower w ≠ Sha256.hex content
  io_iff : (∃ m, reply = .error (.io m)) ↔ (∃ why, source = .error why) ∨
    ∃ x ∈ ran, ∃ why, x.outcome = .notStarted why
  other_iff : (∃ m, reply = .error (.other m)) ↔ ∃ content first,
    Shows source probe copy sum content first ∧ ∀ w, first = some w → ¬ Checksum.IsDigest w
  exhaustive : reply = .ok {} ∨ (∃ a m, reply = .error (.connect a m)) ∨
    (∃ a b, reply = .error (.timeout a b)) ∨ (∃ a c m, reply = .error (.exec a c m)) ∨
    (∃ m, reply = .error (.io m)) ∨ ∃ m, reply = .error (.other m)

section Pushed

variable {localPath remotePath : String} {source : Except FileFault (List UInt8)}
  {probe copy sum : ProgramOutcome} {content : List UInt8} {first : Option String}

theorem Shows.succeeds (h : Shows source probe copy sum content first) {t : Transfer} :
    ∀ x ∈ s.programs t probe copy sum, x.outcome.succeeds = true := by
  obtain ⟨e, he, hcode, -⟩ := h.sum_succeeds
  have hsum : sum.succeeds = true := ProgramOutcome.succeeds_iff.mpr ⟨e, he, hcode⟩
  simp [programs, probing, copying, checking, h.probe_succeeds, h.copy_succeeds, hsum]

theorem pushed_of_unread {why : FileFault} (hsource : source = .error why) :
    Pushed s host localPath remotePath source probe copy sum [] (.error (.ofFile why)) := by
  subst hsource
  have hno : ∀ content first, ¬ Shows (.error why) probe copy sum content first :=
    fun _ _ h ↦ nomatch h.source_eq
  refine ⟨fun _ _ ↦ rfl, nofun, nofun, ?_, ?_, ?_, ?_, ?_, ?_, ?_⟩
  all_goals simp [Fault.ofFile, hno]

theorem pushed_of_failed {front : List Launched} {x : Launched} {fault : Fault}
    (hsource : source = .ok content)
    (hran : front ++ [x] =
      upToFailure (s.programs ⟨host, localPath, remotePath, Sha256.hex content⟩ probe copy sum))
    (hx : x ∈ s.programs ⟨host, localPath, remotePath, Sha256.hex content⟩ probe copy sum)
    (hfront : ∀ y ∈ front, y.outcome.succeeds = true) (hfails : x.Fails host fault) :
    Pushed s host localPath remotePath source probe copy sum (front ++ [x]) (.error fault) := by
  have hno : ∀ content first, ¬ Shows source probe copy sum content first := fun _ _ h ↦
    absurd (h.succeeds x hx) (by simp [hfails.succeeds])
  have hlast : ∀ {P : Launched → Prop}, (∀ y, P y → y.outcome.succeeds = false) →
      ((∃ y ∈ front ++ [x], P y) ↔ P x) := by
    intro P hP
    refine ⟨?_, fun h ↦ ⟨x, by simp, h⟩⟩
    rintro ⟨y, hy, h⟩
    rcases List.mem_append.mp hy with hy | hy
    · exact absurd (hfront y hy) (by simp [hP y h])
    · rwa [← List.mem_singleton.mp hy]
  refine ⟨fun why h ↦ ?_, fun c h ↦ ?_, fun y hy hnot ↦ ?_, ?_, ?_, ?_, ?_, ?_, ?_, ?_⟩
  · cases hsource.symm.trans h
  · cases hsource.symm.trans h
    exact hran
  · rcases List.mem_append.mp hy with hy | hy
    · exact absurd (hfront y hy) (by simp [hnot])
    · obtain rfl := List.mem_singleton.mp hy
      exact ⟨fault, hfails, rfl⟩
  · simp [hno]
  · rw [hlast fun _ ↦ Disconnected.succeeds, ← hfails.connect_iff]
    simp
  · rw [hlast fun _ ↦ not_succeeds_of_late, ← hfails.timeout_iff]
    simp
  · rw [hlast fun _ ↦ Refused.succeeds, ← hfails.exec_iff]
    simp [hno]
  · rw [hlast fun _ ↦ not_succeeds_of_notStarted, ← hfails.io_iff]
    simp [hsource]
  · simp only [hno, false_and, exists_false, iff_false]
    simpa using hfails.not_other
  · cases hfails <;> simp

theorem pushed_of_answered {e : Ending} (hsource : source = .ok content)
    (hall : ∀ y ∈ s.programs ⟨host, localPath, remotePath, Sha256.hex content⟩ probe copy sum,
      y.outcome.succeeds = true) (hsum : sum = .ended e) :
    Pushed s host localPath remotePath source probe copy sum
      (s.programs ⟨host, localPath, remotePath, Sha256.hex content⟩ probe copy sum)
      (checksumReply ⟨host, localPath, remotePath, Sha256.hex content⟩ (output e).stdout) := by
  subst hsource hsum
  have hshows : ∀ c f, Shows (.ok content) probe copy (.ended e) c f ↔
      c = content ∧ f = (Text.words (output e).stdout).head? := by
    simp only [programs, probing, copying, checking, List.forall_mem_cons] at hall
    obtain ⟨hprobe, hcopy, hsum, -⟩ := hall
    refine fun c f ↦ ⟨fun h ↦ ?_, ?_⟩
    · obtain ⟨_, he, -, hfirst⟩ := h.sum_succeeds
      cases he
      cases h.source_eq
      exact ⟨rfl, hfirst.symm⟩
    · rintro ⟨rfl, rfl⟩
      obtain ⟨_, he, hcode⟩ := ProgramOutcome.succeeds_iff.mp hsum
      exact ⟨rfl, hprobe, hcopy, _, he, hcode, by cases he; rfl⟩
  have hfine : ∀ y ∈ s.programs ⟨host, localPath, remotePath, Sha256.hex content⟩ probe copy
      (.ended e), ¬ y.outcome.succeeds = false := fun y hy ↦ by simp [hall y hy]
  have hnone : ∀ {P : Launched → Prop}, (∀ y, P y → y.outcome.succeeds = false) →
      ¬ ∃ y ∈ s.programs ⟨host, localPath, remotePath, Sha256.hex content⟩ probe copy (.ended e),
        P y := fun hP ⟨y, hy, h⟩ ↦ hfine y hy (hP y h)
  have hconnect := hnone fun _ ↦ Disconnected.succeeds
  have hlate := hnone fun _ ↦ not_succeeds_of_late
  have hrefused := hnone fun _ ↦ Refused.succeeds
  have hnotStarted := hnone fun _ ↦ not_succeeds_of_notStarted
  have hword : ∀ {P : List UInt8 → String → Prop},
      (∃ c v, Shows (.ok content) probe copy (.ended e) c (some v) ∧ P c v) ↔
        ∃ v, (Text.words (output e).stdout).head? = some v ∧ P content v := by
    simp [hshows, eq_comm]
  have hother : (∃ c f, Shows (.ok content) probe copy (.ended e) c f ∧
      ∀ v, f = some v → ¬ Checksum.IsDigest v) ↔
        ∀ v, (Text.words (output e).stdout).head? = some v → ¬ Checksum.IsDigest v := by
    simp [hshows]
  have hreply := checksumReply_cases ⟨host, localPath, remotePath, Sha256.hex content⟩
    (output e).stdout
  refine ⟨nofun, fun c h ↦ Except.ok.inj h ▸ (upToFailure_of_succeeds hall).symm,
    fun y hy h ↦ absurd h (hfine y hy), ?_, iff_of_false ?_ hconnect, iff_of_false ?_ hlate, ?_,
    iff_of_false ?_ (by simpa using hnotStarted), ?_, ?_⟩
  · rw [hword]
    exact checksumReply_ok_iff (Sha256.isDigest_hex content)
  · rcases hreply with ⟨_, -, -, -, hr⟩ | ⟨_, -, -, -, m, hr⟩ | ⟨-, m, hr⟩ <;> simp [hr]
  · rcases hreply with ⟨_, -, -, -, hr⟩ | ⟨_, -, -, -, m, hr⟩ | ⟨-, m, hr⟩ <;> simp [hr]
  · rw [hword, or_iff_right hrefused]
    exact checksumReply_exec_iff
  · rcases hreply with ⟨_, -, -, -, hr⟩ | ⟨_, -, -, -, m, hr⟩ | ⟨-, m, hr⟩ <;> simp [hr]
  · rw [hother]
    exact checksumReply_other_iff
  · rcases hreply with ⟨_, -, -, -, hr⟩ | ⟨_, -, -, -, m, hr⟩ | ⟨-, m, hr⟩ <;> simp [hr]

end Pushed

/-- A copy to another machine is carried out: whether its file can be read, and whatever comes of the
three programs, what is started and what is reported. -/
theorem pushed (s : Ssh) {host : String} (localPath remotePath : String)
    (source : Except FileFault (List UInt8)) (probe copy sum : ProgramOutcome)
    (hlocal : isLocal host = false) :
    (∀ files : FileTree, s.begin files ⟨host, .push localPath remotePath⟩ =
      (files, s.beginTransfer host localPath remotePath
        ((files.read localPath).map Text.toBytes))) ∧
    ∃ ran reply, s.carryOn (s.beginTransfer host localPath remotePath source) [probe, copy, sum] =
        (ran, some reply) ∧
      Pushed s host localPath remotePath source probe copy sum ran reply := by
  refine ⟨fun files ↦ by simp [begin, hlocal], ?_⟩
  cases hsource : source with
  | error why => exact ⟨_, _, rfl, pushed_of_unread rfl⟩
  | ok content =>
    obtain ⟨reply, hrun, hended⟩ := carryOn_programs (s := s)
      (t := ⟨host, localPath, remotePath, Sha256.hex content⟩) probe copy sum hlocal
    refine ⟨_, reply, hrun, ?_⟩
    generalize hran : upToFailure (s.programs ⟨host, localPath, remotePath, Sha256.hex content⟩
      probe copy sum) = ran at hended
    cases hended with
    | failed hx hfront hfails => exact pushed_of_failed rfl hran.symm hx hfront hfails
    | answered hall hsum => exact pushed_of_answered rfl hall hsum

/-- A host that does not answer: no other program is started. -/
theorem pushed_unreachable : isLocal "oss01" = false ∧
    ∃ ran, carryOn {} (beginTransfer {} "oss01" "conf/agent" "/etc/agent" (.ok []))
        [.ended ⟨255, [], []⟩, .late, .late] = (ran, some (.error (.connect "oss01" ""))) ∧
      Pushed {} "oss01" "conf/agent" "/etc/agent" (.ok []) (.ended ⟨255, [], []⟩) .late .late ran
        (.error (.connect "oss01" "")) := by
  have hlocal : isLocal "oss01" = false := by decide
  have hreply : (carryOn {} (beginTransfer {} "oss01" "conf/agent" "/etc/agent" (.ok []))
      [.ended ⟨255, [], []⟩, .late, .late]).2 = some (.error (.connect "oss01" "")) := rfl
  obtain ⟨-, ran, reply, hrun, hpushed⟩ := pushed {} "conf/agent" "/etc/agent" (.ok [])
    (.ended ⟨255, [], []⟩) .late .late hlocal
  rw [hrun] at hreply
  cases hreply
  exact ⟨hlocal, ran, hrun, hpushed⟩

end Ssh

end Rollout
