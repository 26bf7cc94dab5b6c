import Rollout.Proofs.Run.Growth
import Rollout.Proofs.Run.Reached

namespace Rollout

namespace Status

/-- The events that a state allows. -/
inductive Allows : Status → StepEvent → Prop
  | dispatched : Allows .pending .dispatched
  | completed (alreadySatisfied : Bool) : Allows .inProgress (.completed alreadySatisfied)
  | failed (error : String) (retryAfter : Option Span) :
      Allows .inProgress (.failed error retryAfter)
  | dependencyFailed (cause : String) : Allows .pending (.dependencyFailed cause)
  | cancelled : Allows .pending .cancelled

theorem next_of_not_allows {x : Status} {e : StepEvent} (h : ¬ x.Allows e) :
    x.next e = (.failed, [.recordError ("Invalid step transition: " ++ x.name ++
      " cannot handle event " ++ e.text)]) := by
  cases x with
  | pending =>
    cases e with
    | dispatched => exact absurd .dispatched h
    | dependencyFailed cause => exact absurd (.dependencyFailed cause) h
    | cancelled => exact absurd .cancelled h
    | completed | failed => rfl
  | inProgress =>
    cases e with
    | completed b => exact absurd (.completed b) h
    | failed t retryAfter => exact absurd (.failed t retryAfter) h
    | dispatched | dependencyFailed | cancelled => rfl
  | succeeded | failed | skipped => cases e <;> rfl

end Status

def Outcomes.heard (σs : List Signal) : Outcomes :=
  fun id _ outcome ↦ .message (.finished id outcome) ∈ σs

variable {j : Job} {told : Outcomes} {l : Launch} {σs : List Signal} {r : Report}

theorem Job.Fits.allows {s : Step} {e : StepEvent} (h : j.Fits told r s e) :
    ∃ state, r.stepState s.id = some state ∧ state.Allows e := by
  cases h with
  | dispatched hp => exact ⟨_, hp, .dispatched⟩
  | completed b hp => exact ⟨_, hp, .completed b⟩
  | retried fault delay hp => exact ⟨_, hp, .failed _ _⟩
  | failed fault hp => exact ⟨_, hp, .failed _ _⟩
  | dependencyFailed cause hp => exact ⟨_, hp, .dependencyFailed _⟩
  | cancelled hp => exact ⟨_, hp, .cancelled⟩

/-- An error in a report is the message of a failure that was told of the step. -/
theorem Job.Holds.error_told (hp : j.plan.WellFormed) (h : j.Holds told r) {y : StepRecord}
    (hy : y ∈ r.steps) {t : String} (ht : y.error = some t) :
    ∃ k fault, told y.id k (.error fault) ∧ fault.message = t := by
  obtain ⟨i, hi⟩ := List.mem_iff_getElem?.mp hy
  have hlt := (List.getElem?_eq_some_iff.mp hi).1
  rw [h.length_steps] at hlt
  have hs : j.plan.step? i = some j.plan.steps[i] := List.getElem?_eq_getElem hlt
  have hid := hp.id_of_step? hs
  have haccounts := h.accounts j.plan.steps[i] y (by rwa [hid]) (by rwa [hid])
  rw [haccounts.describes.id_eq]
  exact haccounts.error_told t ht

namespace Course

/-- The course of a run in which everything is done in order. A snapshot is the report after some
part of the history. -/
structure Orderly (j : Job) (l : Launch) (σs : List Signal) (x : Course) : Prop where
  /-- The history leads to the report, and nothing that comes takes back any of it. -/
  report_eq : x.control.report = (l.report j).after x.control.history
  grows : ∀ now, (∀ σ, x.control.history <:+ (x.hear j now σ).control.history) ∧
    x.control.history <:+ (x.finish j now).control.history
  /-- In every snapshot, steps have begun only after all that they wait for has succeeded. -/
  founded : ∀ xs, xs <:+ x.control.history → ∀ b y, ((l.report j).after xs).steps[b]? = some y →
    y.state.isBegun = true ∨ 0 < y.attempts →
    ∀ a, j.plan.Awaits b a → ((l.report j).after xs).stepState a = some .succeeded
  lasting : ∀ xs, xs <:+ x.control.history → ∀ ys, ys <:+ xs → ∀ i state,
    ((l.report j).after ys).stepState i = some state → state.isTerminal = true →
    ((l.report j).after xs).stepState i = some state
  /-- Every event was handed to a step in a state that allows it. -/
  allowed : ∀ now id e xs, .event now id e :: xs <:+ x.control.history →
    ∃ state, ((l.report j).after xs).stepState id = some state ∧ state.Allows e
  dispatched : ∀ now id xs, .event now id .dispatched :: xs <:+ x.control.history →
    (((l.report j).after xs).apply now id .dispatched).2.state = .inProgress
  /-- An error in a snapshot is the message of a failure that was heard of, for steps and hosts. -/
  errors : ∀ xs, xs <:+ x.control.history → ∀ y ∈ ((l.report j).after xs).steps,
    ∀ t, y.error = some t →
    ∃ fault, .message (.finished y.id (.error fault)) ∈ σs ∧ fault.message = t
  lastErrors : ∀ xs, xs <:+ x.control.history → ∀ g ∈ ((l.report j).after xs).hosts,
    ∀ t, g.lastError = some t →
    ∃ id fault, .message (.finished id (.error fault)) ∈ σs ∧ fault.message = t

/-- Every run of an accepted plan is orderly, whatever is heard in whatever order. -/
theorem Reached.orderly {steps : List Step} {x : Course} (hplan : Plan.ofSteps steps = .ok j.plan)
    (h : Reached j l σs x) : x.Orderly j l σs := by
  have hp := Plan.wellFormed_of_ofSteps hplan
  have hcourse : x.Sound j (Outcomes.heard σs) l σs :=
    h.sound hp (Outcomes.attested_of_heard fun _ _ hmem _ ↦ hmem)
  have hsound := hcourse.invariant.steady.sound
  have hholds : ∀ xs, xs <:+ x.control.history →
      j.Holds (Outcomes.heard σs) ((l.report j).after xs) :=
    fun xs hxs ↦ (Job.Holds.start j _ l.runId l.createdAt).after hp
      (hsound.chronicle.of_suffix hxs)
  have hinLine : ∀ xs, xs <:+ x.control.history → ((l.report j).after xs).InLine :=
    fun xs hxs ↦ (Report.inLine_start l.runId j.plan j.inventory).after hp
      (hsound.chronicle.of_suffix hxs)
  have hallowed : ∀ now id e xs, .event now id e :: xs <:+ x.control.history →
      ∃ state, ((l.report j).after xs).stepState id = some state ∧ state.Allows e := by
    intro now id e xs hxs
    obtain ⟨⟨s, hs, hfits⟩, -⟩ := hsound.chronicle.of_suffix hxs
    obtain rfl := hp.id_of_step? hs
    exact hfits.allows
  have herrors : ∀ xs, xs <:+ x.control.history → ∀ y ∈ ((l.report j).after xs).steps,
      ∀ t, y.error = some t →
      ∃ fault, .message (.finished y.id (.error fault)) ∈ σs ∧ fault.message = t := by
    intro xs hxs y hy t ht
    obtain ⟨_, fault, hmem, hmessage⟩ := (hholds xs hxs).error_told hp hy ht
    exact ⟨fault, hmem, hmessage⟩
  refine ⟨hsound.report_eq, fun now ↦ ⟨history_hear j now x, history_finish j now x⟩,
    fun xs hxs b y hy hbegun a hab ↦ (hholds xs hxs).awaited hab hy hbegun, ?_, hallowed, ?_,
    herrors, ?_⟩
  · intro xs hxs ys hys i state hstate hend
    obtain ⟨y, hy, rfl⟩ := Option.map_eq_some_iff.mp hstate
    have hy' := (hsound.chronicle.of_suffix hxs).terminal hp hys hy hend
    rw [Report.stepState, hy', Option.map_some]
  · intro now id xs hxs
    obtain ⟨state, hstate, hallows⟩ := hallowed now id .dispatched xs hxs
    rw [Report.state_apply_of_eq hstate]
    cases hallows
    rfl
  · intro xs hxs g hg t ht
    rw [(hinLine xs hxs g hg).lastError_eq] at ht
    obtain ⟨y, hfind, ht⟩ := Option.bind_eq_some_iff.mp ht
    obtain ⟨hy, -⟩ := Report.mem_stepsOfHost.mp (List.mem_of_find?_eq_some hfind)
    obtain ⟨fault, hmem, hmessage⟩ := herrors xs hxs y hy t ht
    exact ⟨y.id, fault, hmem, hmessage⟩

theorem orderly_trio :
    let heard : List Signal :=
      [.message (.finished 1 (.error (.exec "b" 1 "disk full"))),
        .message (.finished 0 (.ok false))]
    (play (.trio 2) ⟨"run", .origin, false⟩ .origin heard).Orderly (.trio 2)
      ⟨"run", .origin, false⟩ heard :=
  Reached.orderly (Job.ofSteps_trio 2)
    (.hear _ (.hear _ (.launch _) (by decide)) (by decide))

end Course

end Rollout
