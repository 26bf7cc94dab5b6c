import Rollout.Proofs.Run.Fieldwork

namespace Rollout

/-- A call with the time at which it was made, and with what came of it and when. -/
structure TimedCall where
  call : Call
  made : Span
  came : Option (Span × Reply)

def TimedCall.notes (v : TimedCall) : List (Span × FieldNote) :=
  (v.made, .made v.call) :: (v.came.map fun p ↦ (p.1, .came p.2)).toList

def TimedCall.outcome (v : TimedCall) : Option (Span × Result Bool) :=
  v.came.map fun p ↦ (p.1, p.2.map fun _ ↦ false)

/-- The calls of one attempt, and when and how it ended. -/
structure Bout where
  calls : List TimedCall
  ended : Option (Span × Result Bool)

def Bout.notes (b : Bout) : List (Span × FieldNote) := b.calls.flatMap TimedCall.notes

def FieldNote.isSuccess : FieldNote → Bool
  | .came (.ok _) => true
  | _ => false

namespace Step

/-- What an attempt has done when it comes to its action: nothing if there is no check, and else the
check, which has found something to do. -/
inductive ComesToAct (s : Step) (timeout : Span) : List TimedCall → Prop
  | direct : s.check = none → ComesToAct s timeout []
  | checked {command : String} {made came : Span} {fault : Fault} :
      s.check = some command → fault.isExec = true →
      ComesToAct s timeout [⟨s.checkCall timeout command, made, some (came, .error fault)⟩]

/-- What an attempt does, as far as it has come: the check alone if it succeeds or cannot be carried
out, and else the action, after the check if there is one. -/
inductive Goes (s : Step) (timeout : Span) : Bout → Prop
  | checking {command : String} {made : Span} :
      s.check = some command →
      Goes s timeout ⟨[⟨s.checkCall timeout command, made, none⟩], none⟩
  | satisfied {command : String} {made came : Span} {out : CommandOutput} :
      s.check = some command →
      Goes s timeout
        ⟨[⟨s.checkCall timeout command, made, some (came, .ok out)⟩], some (came, .ok true)⟩
  | unclear {command : String} {made came : Span} {fault : Fault} :
      s.check = some command → fault.isExec = false →
      Goes s timeout
        ⟨[⟨s.checkCall timeout command, made, some (came, .error fault)⟩],
          some (came, .error fault)⟩
  | acting {first : List TimedCall} {v : TimedCall} :
      s.ComesToAct timeout first → v.call = (s.actionCall timeout).1 →
      Goes s timeout ⟨first ++ [v], v.outcome⟩

end Step

namespace Job

variable (j : Job) (s : Step)

structure Repeats (k : Nat) (fault : Fault) : Prop where
  kind : s.kind ≠ .verify
  reason : fault.isTransient = true ∨ s.retryable = true ∧ fault.isExec = true
  attempts : k < (j.retry.forKind s.kind).maxAttempts

/-- Attempt number `k` failed, and by a certain time the delay after it is over. -/
def Rests (k : Nat) (b : Bout) (t : Span) : Prop :=
  ∃ ended fault, b.ended = some (ended, .error fault) ∧ j.Repeats s k fault ∧
    ended.nanos + ((j.retry.forKind s.kind).backoffFor k).nanos ≤ t.nanos

/-- After these bouts, the latest first, another one may begin at a certain time. -/
def MayGo (t : Span) : List Bout → Prop
  | [] => True
  | b :: bs => j.Rests s (bs.length + 1) b t

inductive Series : List Bout → Prop
  | nil : Series []
  | cons {b : Bout} {v : TimedCall} {vs : List TimedCall} {bs : List Bout} :
      s.Goes (j.timeoutOf s) b → b.calls = v :: vs → j.MayGo s v.made bs → Series bs →
      Series (b :: bs)

/-- How what is under way for a step goes with its bouts, at a certain time and in a certain
state. -/
inductive Phase (now : Span) (state : Option Status) : List Bout → List Duty → Prop
  | idle {bs : List Bout} :
      (state = some .pending → j.MayGo s now bs) → Phase now state bs []
  | ordered {bs : List Bout} : j.MayGo s now bs → Phase now state bs [.ordered]
  | checking {command : String} {made : Span} {bs : List Bout} :
      s.check = some command →
      Phase now state (⟨[⟨s.checkCall (j.timeoutOf s) command, made, none⟩], none⟩ :: bs)
        [.waiting .check]
  | acting {first : List TimedCall} {made : Span} {bs : List Bout} :
      s.ComesToAct (j.timeoutOf s) first →
      Phase now state (⟨first ++ [⟨(s.actionCall (j.timeoutOf s)).1, made, none⟩], none⟩ :: bs)
        [.waiting .action]
  | ended {b : Bout} {came : Span} {outcome : Result Bool} {bs : List Bout} :
      b.ended = some (came, outcome) → came.nanos ≤ now.nanos →
      Phase now state (b :: bs) [.ended outcome]
  | resting {due : Span} {bs : List Bout} : j.MayGo s due bs → Phase now state bs [.resting due]

end Job

section Series

variable {j : Job} {s : Step} {t t' now now' : Span} {state state' : Option Status} {b b' : Bout}
  {bs : List Bout} {ds : List Duty}

theorem Job.MayGo.mono (h : j.MayGo s t bs) (hle : t.nanos ≤ t'.nanos) : j.MayGo s t' bs := by
  cases bs with
  | nil => trivial
  | cons b bs =>
    obtain ⟨ended, fault, hended, hrepeats, hrest⟩ := h
    exact ⟨ended, fault, hended, hrepeats, hrest.trans hle⟩

theorem Job.Phase.frame (h : j.Phase s now state bs ds) (hnow : now.nanos ≤ now'.nanos)
    (hstate : ds = [] → state' = some .pending → state = some .pending) :
    j.Phase s now' state' bs ds := by
  cases h with
  | idle hgo => exact .idle fun hpending ↦ (hgo (hstate rfl hpending)).mono hnow
  | ordered hgo => exact .ordered (hgo.mono hnow)
  | checking hcheck => exact .checking hcheck
  | acting hfirst => exact .acting hfirst
  | ended hended hle => exact .ended hended (hle.trans hnow)
  | resting hgo => exact .resting hgo

/-- What is under way is one thing at most. -/
theorem Job.Phase.eq_singleton (h : j.Phase s now state bs ds) {d : Duty} (hd : d ∈ ds) :
    ds = [d] := by
  cases h with
  | idle => cases hd
  | _ =>
    rw [List.mem_singleton] at hd
    rw [hd]

theorem Job.Series.goOn (h : j.Series s (b :: bs)) (hgoes : s.Goes (j.timeoutOf s) b')
    (hmade : b'.calls.head?.map TimedCall.made = b.calls.head?.map TimedCall.made) :
    j.Series s (b' :: bs) := by
  cases h with
  | @cons b v vs bs _ hcalls hgo hseries =>
    rw [hcalls, List.head?_cons, Option.map_some] at hmade
    obtain ⟨v', hv', hmade⟩ := Option.map_eq_some_iff.mp hmade
    obtain ⟨vs', hcalls'⟩ := List.head?_eq_some_iff.mp hv'
    exact .cons hgoes hcalls' (hmade ▸ hgo) hseries

end Series

namespace Step.Goes

variable {s : Step} {timeout : Span} {b : Bout}

theorem hosts (h : s.Goes timeout b) : ∀ v ∈ b.calls, v.call.host = s.host := by
  have hcheck : ∀ command, (s.checkCall timeout command).host = s.host := fun _ ↦ rfl
  have haction : (s.actionCall timeout).1.host = s.host := by
    unfold Step.actionCall
    split <;> rfl
  cases h with
  | checking | satisfied | unclear => simp [hcheck]
  | acting hfirst hcall => cases hfirst <;> simp [hcheck, hcall, haction]

theorem failed (h : s.Goes timeout b) {ended : Span} {fault : Fault}
    (hended : b.ended = some (ended, .error fault)) : ∀ n ∈ b.notes, n.2.isSuccess = false := by
  cases h with
  | checking | satisfied => cases hended
  | unclear => simp [Bout.notes, TimedCall.notes, FieldNote.isSuccess]
  | @acting first v hfirst hcall =>
    obtain ⟨⟨came, r⟩, hcame, heq⟩ := Option.map_eq_some_iff.mp hended
    cases r with
    | ok out => cases heq
    | error e => cases hfirst <;> simp [Bout.notes, TimedCall.notes, FieldNote.isSuccess, hcame]

theorem settled (h : s.Goes timeout b) :
    b.notes ≠ [] ∧ ∀ n ∈ b.notes.dropLast, n.2.isSuccess = false := by
  cases h with
  | checking | satisfied | unclear => simp [Bout.notes, TimedCall.notes, FieldNote.isSuccess]
  | @acting first v hfirst hcall =>
    obtain ⟨call, made, came⟩ := v
    cases hfirst <;> cases came <;> simp [Bout.notes, TimedCall.notes, FieldNote.isSuccess]

end Step.Goes

namespace Job.Series

variable {j : Job} {s : Step} {bs : List Bout}

theorem goes (h : j.Series s bs) : ∀ b ∈ bs, s.Goes (j.timeoutOf s) b := by
  induction h with
  | nil => simp
  | cons hgoes _ _ _ ih => exact List.forall_mem_cons.mpr ⟨hgoes, ih⟩

theorem failed (h : j.Series s bs) {t : Span} (hgo : j.MayGo s t bs) :
    ∀ n ∈ bs.reverse.flatMap Bout.notes, n.2.isSuccess = false := by
  induction h generalizing t with
  | nil => simp
  | @cons b v vs bs hgoes _ hbefore _ ih =>
    obtain ⟨ended, fault, hended, -⟩ := hgo
    intro n hn
    rw [List.reverse_cons, List.flatMap_append, List.mem_append, List.flatMap_singleton] at hn
    exact hn.elim (ih hbefore n) (hgoes.failed hended n)

theorem settled (h : j.Series s bs) :
    ∀ n ∈ (bs.reverse.flatMap Bout.notes).dropLast, n.2.isSuccess = false := by
  cases h with
  | nil => simp
  | @cons b v vs bs hgoes _ hbefore hseries =>
    obtain ⟨hne, hlast⟩ := hgoes.settled
    intro n hn
    rw [List.reverse_cons, List.flatMap_append, List.flatMap_singleton,
      List.dropLast_append_of_ne_nil hne, List.mem_append] at hn
    exact hn.elim (hseries.failed hbefore n) (hlast n)

theorem follows (h : j.Series s bs) {later earlier : List Bout} {b b' : Bout}
    (heq : bs = later ++ b' :: b :: earlier) :
    ∃ v vs, b'.calls = v :: vs ∧ j.Rests s (earlier.length + 1) b v.made := by
  induction later generalizing bs with
  | nil =>
    subst heq
    cases h with
    | cons _ hcalls hgo _ => exact ⟨_, _, hcalls, hgo⟩
  | cons _ later ih =>
    subst heq
    cases h with
    | cons _ _ _ hseries => exact ih hseries rfl

end Job.Series

end Rollout
