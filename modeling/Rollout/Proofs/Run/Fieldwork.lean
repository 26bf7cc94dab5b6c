import Mathlib.Logic.Function.Basic
import Rollout.Proofs.Run.Orders
import Rollout.Proofs.Run.Records

namespace Rollout

/-- What is under way for a step. -/
inductive Duty
  | ordered
  | waiting (stage : AttemptStage)
  | ended (outcome : Result Bool)
  | resting (due : Span)
  deriving DecidableEq

namespace Duty

def isAttempt : Duty → Bool
  | .resting _ => false
  | _ => true

def isRest : Duty → Bool
  | .resting _ => true
  | _ => false

def isDue (now : Span) : Duty → Bool
  | .resting due => decide (due.nanos ≤ now.nanos)
  | _ => false

end Duty

def RunOrder.duties (now : Span) (id : Nat) : RunOrder → List Duty
  | .attempt i => if i = id then [.ordered] else []
  | .retryLater i delay => if i = id then [.resting ⟨now.nanos + delay.nanos⟩] else []
  | .startAgent _ | .abandonAgent _ => []

/-- A call that was made, or what came of the last one. -/
inductive FieldNote
  | made (c : Call)
  | came (r : Reply)

structure FieldEntry where
  moment : Span
  step : Nat
  note : FieldNote

/-- A run with what is under way for each step, and everything that was written down, the latest
first. -/
structure Fieldwork where
  course : Course
  now : Span := .zero
  duties : Nat → List Duty := fun _ ↦ []
  log : List FieldEntry := []

namespace Fieldwork

inductive Event
  | passes (d : Span)
  | begins (id : Nat)
  | answers (id : Nat) (stage : AttemptStage) (r : Reply)
  | hears (now : Moment) (σ : Signal)
  | ends (now : Moment)

def Event.heard : Event → List Signal
  | .hears _ σ => [σ]
  | _ => []

def write (x : Fieldwork) (id : Nat) (n : FieldNote) : Fieldwork :=
  { x with log := ⟨x.now, id, n⟩ :: x.log }

def replace (x : Fieldwork) (id : Nat) (d d' : Duty) : Fieldwork :=
  { x with duties := Function.update x.duties id (d' :: (x.duties id).erase d) }

def carryOut (x : Fieldwork) (id : Nat) (d : Duty) :
    Move AttemptStage (Result Bool) → Fieldwork
  | .call c _ stage => (x.write id (.made c)).replace id d (.waiting stage)
  | .pause _ stage => x.replace id d (.waiting stage)
  | .done outcome => x.replace id d (.ended outcome)

def asked (j : Job) (x : Fieldwork) (now : Moment) (σ : Signal) (id : Nat) : List Duty :=
  (x.course.orders j now σ).flatMap (RunOrder.duties x.now id)

def left (x : Fieldwork) : Signal → Nat → List Duty
  | .message (.finished id outcome) =>
    Function.update x.duties id ((x.duties id).erase (.ended outcome))
  | .message (.retryDue id) =>
    Function.update x.duties id ((x.duties id).eraseP (Duty.isDue x.now))
  | .message (.agentDone _ _) | .cancel => x.duties

def launch (j : Job) (l : Launch) (now : Moment) : Fieldwork where
  course := .launch j l now
  duties id := (Course.firstOrders j l now).flatMap (RunOrder.duties .zero id)

def act (j : Job) (x : Fieldwork) : Event → Fieldwork
  | .passes d => { x with now := ⟨x.now.nanos + d.nanos⟩ }
  | .begins id =>
    match j.plan.step? id with
    | some s => x.carryOut id .ordered (s.beginAttempt (j.timeoutOf s))
    | none => x
  | .answers id stage r =>
    match j.plan.step? id with
    | some s => (x.write id (.came r)).carryOut id (.waiting stage)
        (s.continueAttempt (j.timeoutOf s) stage (.reply r))
    | none => x
  | .hears now σ =>
    { x with
      course := x.course.hear j now σ
      duties := fun id ↦ x.asked j now σ id ++ x.left σ id }
  | .ends now => { x with course := x.course.finish j now }

def Brings (x : Fieldwork) : Signal → Prop
  | .message (.finished id outcome) => .ended outcome ∈ x.duties id
  | .message (.retryDue id) => ∃ d ∈ x.duties id, d.isDue x.now = true
  | .message (.agentDone host _) => host ∈ x.course.outside.starts
  | .cancel => x.course.control.cancelled = false

instance (x : Fieldwork) (σ : Signal) : Decidable (x.Brings σ) :=
  match σ with
  | .message (.finished id outcome) => inferInstanceAs (Decidable (.ended outcome ∈ x.duties id))
  | .message (.retryDue id) =>
    inferInstanceAs (Decidable (∃ d ∈ x.duties id, d.isDue x.now = true))
  | .message (.agentDone host _) => inferInstanceAs (Decidable (host ∈ x.course.outside.starts))
  | .cancel => inferInstanceAs (Decidable (x.course.control.cancelled = false))

/-- Whether something can happen. Whatever comes of a call may come at any time. -/
def CanAct (x : Fieldwork) : Event → Prop
  | .passes _ => True
  | .begins id => .ordered ∈ x.duties id
  | .answers id stage _ => .waiting stage ∈ x.duties id
  | .hears _ σ => x.course.control.isOver = false ∧ x.Brings σ
  | .ends _ => x.course.control.isOver = true ∧ x.course.control.report.finishedAt = none

instance (x : Fieldwork) (e : Event) : Decidable (x.CanAct e) :=
  match e with
  | .passes _ => inferInstanceAs (Decidable True)
  | .begins id => inferInstanceAs (Decidable (.ordered ∈ x.duties id))
  | .answers id stage _ => inferInstanceAs (Decidable (.waiting stage ∈ x.duties id))
  | .hears _ σ => inferInstanceAs (Decidable (x.course.control.isOver = false ∧ x.Brings σ))
  | .ends _ => inferInstanceAs (Decidable
    (x.course.control.isOver = true ∧ x.course.control.report.finishedAt = none))

def follow (j : Job) (x : Fieldwork) (es : List Event) : Fieldwork := es.foldl (act j) x

def CanFollow (j : Job) : Fieldwork → List Event → Prop
  | _, [] => True
  | x, e :: es => x.CanAct e ∧ CanFollow j (x.act j e) es

instance decidableCanFollow (j : Job) :
    (x : Fieldwork) → (es : List Event) → Decidable (x.CanFollow j es)
  | _, [] => inferInstanceAs (Decidable True)
  | x, e :: es =>
    have := decidableCanFollow j (x.act j e) es
    inferInstanceAs (Decidable (x.CanAct e ∧ (x.act j e).CanFollow j es))

/-- What a run can come to, with the signals heard so far, the latest first. -/
inductive Reached (j : Job) (l : Launch) : List Signal → Fieldwork → Prop
  | launch (now : Moment) : Reached j l [] (launch j l now)
  | act {σs : List Signal} {x : Fieldwork} {e : Event} :
      Reached j l σs x → x.CanAct e → Reached j l (e.heard ++ σs) (x.act j e)

def notes (x : Fieldwork) (id : Nat) : List (Span × FieldNote) :=
  ((x.log.filter fun e ↦ e.step = id).map fun e ↦ (e.moment, e.note)).reverse

variable {j : Job} {l : Launch} {σs : List Signal} {x : Fieldwork} {s : Step} {id : Nat}

theorem Reached.follow {es : List Event} (h : Reached j l σs x) (hcan : x.CanFollow j es) :
    Reached j l (es.foldl (fun σs e ↦ e.heard ++ σs) σs) (x.follow j es) := by
  induction es generalizing x σs with
  | nil => exact h
  | cons e es ih => exact ih (h.act hcan.1) hcan.2

theorem duties_replace_self (x : Fieldwork) (id : Nat) (d d' : Duty) :
    (x.replace id d d').duties id = d' :: (x.duties id).erase d := Function.update_self ..

theorem duties_replace_of_ne {i : Nat} (hi : i ≠ id) (d d' : Duty) :
    (x.replace id d d').duties i = x.duties i := Function.update_of_ne hi ..

theorem notes_write_self (x : Fieldwork) (id : Nat) (n : FieldNote) :
    (x.write id n).notes id = x.notes id ++ [(x.now, n)] := by
  simp [notes, write]

theorem notes_write_of_ne {i : Nat} (hi : i ≠ id) (n : FieldNote) :
    (x.write i n).notes id = x.notes id := by
  simp [notes, write, hi]

section CarryOut

variable {d : Duty} {c : Call} {within : Option Span} {stage : AttemptStage} {outcome : Result Bool}

theorem course_carryOut (x : Fieldwork) (id : Nat) (d : Duty)
    (mv : Move AttemptStage (Result Bool)) : (x.carryOut id d mv).course = x.course := by
  cases mv <;> rfl

theorem notes_call : (x.carryOut id d (.call c within stage)).notes id =
    x.notes id ++ [(x.now, .made c)] := notes_write_self ..

theorem duties_call (hd : x.duties id = [d]) :
    (x.carryOut id d (.call c within stage)).duties id = [.waiting stage] := by
  rw [carryOut, duties_replace_self]
  simp [write, hd]

theorem duties_done (hd : x.duties id = [d]) :
    (x.carryOut id d (.done outcome)).duties id = [.ended outcome] := by
  rw [carryOut, duties_replace_self]
  simp [hd]

end CarryOut

structure Written (j : Job) (x : Fieldwork) : Prop where
  chronological : x.log.Pairwise fun e f ↦ f.moment.nanos ≤ e.moment.nanos
  past : ∀ e ∈ x.log, e.moment.nanos ≤ x.now.nanos
  steps : ∀ e ∈ x.log, ∃ s ∈ j.plan.steps, s.id = e.step

namespace Written

theorem write (h : x.Written j) (hs : s ∈ j.plan.steps) (n : FieldNote) :
    (x.write s.id n).Written j where
  chronological := List.pairwise_cons.mpr ⟨h.past, h.chronological⟩
  past := List.forall_mem_cons.mpr ⟨Nat.le_refl _, h.past⟩
  steps := List.forall_mem_cons.mpr ⟨⟨s, hs, rfl⟩, h.steps⟩

theorem carryOut (h : x.Written j) (hs : s ∈ j.plan.steps) (d : Duty)
    (mv : Move AttemptStage (Result Bool)) : (x.carryOut s.id d mv).Written j := by
  cases mv with
  | call c within stage =>
    have hcall := h.write hs (.made c)
    exact ⟨hcall.chronological, hcall.past, hcall.steps⟩
  | pause | done => exact ⟨h.chronological, h.past, h.steps⟩

theorem act (hp : j.plan.WellFormed) (h : x.Written j) (e : Event) : (x.act j e).Written j := by
  cases e with
  | hears | ends => exact ⟨h.chronological, h.past, h.steps⟩
  | passes d =>
    exact ⟨h.chronological, fun e he ↦ (h.past e he).trans (Nat.le_add_right ..), h.steps⟩
  | begins id =>
    simp only [Fieldwork.act]
    split
    · rename_i s hs
      obtain rfl := hp.id_of_step? hs
      exact h.carryOut (List.mem_of_getElem? hs) _ _
    · exact h
  | answers id stage r =>
    simp only [Fieldwork.act]
    split
    · rename_i s hs
      obtain rfl := hp.id_of_step? hs
      have hmem := List.mem_of_getElem? hs
      exact (h.write hmem (.came r)).carryOut hmem _ _
    · exact h

end Written

theorem Reached.written (hp : j.plan.WellFormed) (h : Reached j l σs x) : x.Written j := by
  induction h with
  | launch now => exact ⟨.nil, by simp [Fieldwork.launch], by simp [Fieldwork.launch]⟩
  | act _ _ ih => exact ih.act hp _

end Fieldwork

end Rollout
