import Rollout.Run.Report

namespace Rollout

namespace Status

/-- States of steps of which an attempt has begun and has not been given back. -/
def isBegun : Status → Bool
  | .inProgress | .succeeded | .failed => true
  | _ => false

@[simp] theorem isBegun_pending : isBegun .pending = false := rfl

@[simp] theorem isBegun_inProgress : isBegun .inProgress = true := rfl

@[simp] theorem isBegun_succeeded : isBegun .succeeded = true := rfl

@[simp] theorem isBegun_failed : isBegun .failed = true := rfl

@[simp] theorem isBegun_skipped : isBegun .skipped = false := rfl

@[simp] theorem isTerminal_iff {x : Status} :
    x.isTerminal = true ↔ x = .succeeded ∨ x = .failed ∨ x = .skipped := by
  cases x <;> simp [isTerminal]

end Status

namespace StepRecord

structure Describes (x : StepRecord) (s : Step) : Prop where
  id_eq : x.id = s.id
  host_eq : x.host = s.host
  role_eq : x.role = s.role
  name_eq : x.name = s.name
  kind_eq : x.kind = s.kind

theorem describes_ofStep (s : Step) : (ofStep s).Describes s := ⟨rfl, rfl, rfl, rfl, rfl⟩

theorem Describes.note {x : StepRecord} {s : Step} (h : x.Describes s) (now : Moment)
    (effects : List StepEffect) (f : StepEffect) : (x.note now effects f).Describes s := by
  cases f <;> exact ⟨h.id_eq, h.host_eq, h.role_eq, h.name_eq, h.kind_eq⟩

theorem Describes.foldl_note {x : StepRecord} {s : Step} (h : x.Describes s) (now : Moment)
    (effects fs : List StepEffect) : (fs.foldl (StepRecord.note now effects) x).Describes s := by
  induction fs generalizing x with
  | nil => exact h
  | cons f fs ih => exact ih (h.note now effects f)

theorem Describes.apply {x : StepRecord} {s : Step} (h : x.Describes s) (now : Moment)
    (e : StepEvent) : (x.apply now e).1.Describes s := by
  have hset : { x with state := (x.state.next e).1 }.Describes s :=
    ⟨h.id_eq, h.host_eq, h.role_eq, h.name_eq, h.kind_eq⟩
  have hfold := hset.foldl_note now (x.state.next e).2 (x.state.next e).2
  simp only [StepRecord.apply]
  split
  · exact ⟨hfold.id_eq, hfold.host_eq, hfold.role_eq, hfold.name_eq, hfold.kind_eq⟩
  · exact hfold

theorem state_foldl_note (now : Moment) (effects fs : List StepEffect) (x : StepRecord) :
    (fs.foldl (note now effects) x).state = x.state := by
  induction fs generalizing x with
  | nil => rfl
  | cons f fs ih =>
    rw [List.foldl_cons, ih]
    cases f <;> rfl

@[simp] theorem state_apply (now : Moment) (x : StepRecord) (e : StepEvent) :
    (x.apply now e).1.state = (x.state.next e).1 := by
  simp only [apply]
  split <;> simp [state_foldl_note]

@[simp] theorem host_apply (now : Moment) (x : StepRecord) (e : StepEvent) :
    (x.apply now e).1.host = x.host :=
  (Describes.apply (s := ⟨x.id, x.host, x.role, x.name, x.kind, .run "", none, false, none, []⟩)
    ⟨rfl, rfl, rfl, rfl, rfl⟩ now e).host_eq

theorem attempts_foldl_note (now : Moment) (effects fs : List StepEffect) (x : StepRecord)
    (h : .execute ∉ fs) : (fs.foldl (note now effects) x).attempts = x.attempts := by
  induction fs generalizing x with
  | nil => rfl
  | cons f fs ih =>
    obtain ⟨hf, hfs⟩ := List.ne_and_not_mem_of_not_mem_cons h
    rw [List.foldl_cons, ih _ hfs]
    cases f with
    | execute => exact absurd rfl hf
    | _ => rfl

theorem execute_not_mem_next {e : StepEvent} (he : e ≠ .dispatched) (x : Status) :
    .execute ∉ (x.next e).2 := by
  cases e with
  | dispatched => exact absurd rfl he
  | completed b => cases x <;> cases b <;> simp [Status.next]
  | failed t retryAfter => cases x <;> cases retryAfter <;> simp [Status.next]
  | dependencyFailed cause => cases x <;> simp [Status.next]
  | cancelled => cases x <;> simp [Status.next]

theorem attempts_apply {now : Moment} {x : StepRecord} {e : StepEvent} (he : e ≠ .dispatched) :
    (x.apply now e).1.attempts = x.attempts := by
  simp only [apply]
  split <;> simp [attempts_foldl_note _ _ _ _ (execute_not_mem_next he _)]

@[simp] theorem effects_apply (now : Moment) (x : StepRecord) (e : StepEvent) :
    (x.apply now e).2 = (x.state.next e).2 := rfl

section Events

variable {x : StepRecord} (now : Moment)

theorem apply_dispatched (h : x.state = .pending) :
    (x.apply now .dispatched).1 =
      { x with
        state := .inProgress
        attempts := x.attempts + 1
        startedAt := some (x.startedAt.getD now) } := by
  simp [apply, h, Status.next, note]

theorem apply_completed (h : x.state = .inProgress) (b : Bool) :
    (x.apply now (.completed b)).1 =
      { x with
        state := .succeeded
        error := none
        alreadySatisfied := b
        finishedAt := some now } := by
  cases b <;> simp [apply, h, Status.next, note, isLog]

theorem apply_retried (h : x.state = .inProgress) (t : String) (delay : Span) :
    (x.apply now (.failed t (some delay))).1 =
      { x with state := .pending, error := some t } := by
  simp [apply, h, Status.next, note]

theorem apply_failed (h : x.state = .inProgress) (t : String) :
    (x.apply now (.failed t none)).1 =
      { x with state := .failed, error := some t, finishedAt := some now } := by
  simp [apply, h, Status.next, note]

theorem apply_dependencyFailed (h : x.state = .pending) (cause : String) :
    (x.apply now (.dependencyFailed cause)).1 =
      { x with
        state := .skipped
        skippedBecause := some ("dependency failed: " ++ cause)
        finishedAt := some now } := by
  simp [apply, h, Status.next, note]

theorem apply_cancelled (h : x.state = .pending) :
    (x.apply now .cancelled).1 =
      { x with
        state := .skipped
        skippedBecause := some "run cancelled"
        finishedAt := some now } := by
  simp [apply, h, Status.next, note]

end Events

end StepRecord

namespace Report

variable {r : Report} {now : Moment} {id : Nat} {e : StepEvent}

theorem stepState_start (runId : String) (now : Moment) (plan : Plan) (inventory : Inventory)
    (i : Nat) :
    (start runId now plan inventory).stepState i = (plan.step? i).map fun _ ↦ .pending := by
  simp only [stepState, start, List.getElem?_map, Option.map_map, Plan.step?]
  rfl

theorem steps_apply (r : Report) (now : Moment) (id : Nat) (e : StepEvent) :
    (r.apply now id e).1.steps = r.steps.modify id fun x ↦ (x.apply now e).1 := by
  unfold apply
  split
  · rename_i h
    rw [List.modify_eq_self]
    exact List.getElem?_eq_none_iff.mp h
  · rename_i x h
    refine List.ext_getElem? fun k ↦ ?_
    simp only [rollUp, modifyHost, List.getElem?_set, List.getElem?_modify]
    by_cases hk : id = k
    · subst k
      rw [if_pos rfl, if_pos (List.getElem?_eq_some_iff.mp h).1, h]
      simp
    · simp [hk]

theorem getElem?_steps_apply (r : Report) (now : Moment) (id : Nat) (e : StepEvent) (i : Nat) :
    (r.apply now id e).1.steps[i]? =
      if i = id then (r.steps[i]?).map fun x ↦ (x.apply now e).1 else r.steps[i]? := by
  rw [steps_apply, List.getElem?_modify]
  by_cases h : i = id
  · simp [h]
  · simp [h, Ne.symm h]

@[simp] theorem length_steps_apply (r : Report) (now : Moment) (id : Nat) (e : StepEvent) :
    (r.apply now id e).1.steps.length = r.steps.length := by
  rw [steps_apply, List.length_modify]

theorem stepState_apply (r : Report) (now : Moment) (id : Nat) (e : StepEvent) (i : Nat) :
    (r.apply now id e).1.stepState i =
      if i = id then (r.stepState i).map fun x ↦ (x.next e).1 else r.stepState i := by
  simp only [stepState, getElem?_steps_apply]
  split
  · cases r.steps[i]? <;> simp
  · rfl

theorem stepState_apply_of_ne {i : Nat} (h : i ≠ id) :
    (r.apply now id e).1.stepState i = r.stepState i := by
  rw [stepState_apply, if_neg h]

theorem stepState_apply_self {x : Status} (h : r.stepState id = some x) :
    (r.apply now id e).1.stepState id = some (x.next e).1 := by
  rw [stepState_apply, if_pos rfl, h, Option.map_some]

theorem attempts_apply (he : e ≠ .dispatched) :
    (r.apply now id e).1.attempts = r.attempts := by
  funext i
  simp only [attempts, getElem?_steps_apply]
  split
  · cases r.steps[i]? <;> simp [StepRecord.attempts_apply he]
  · rfl

theorem attempts_dispatched (h : r.stepState id = some .pending) (i : Nat) :
    (r.apply now id .dispatched).1.attempts i = r.attempts i + if i = id then 1 else 0 := by
  obtain ⟨x, hx, hstate⟩ := Option.map_eq_some_iff.mp h
  simp only [attempts, getElem?_steps_apply]
  split
  · rename_i hi
    subst hi
    simp [hx, StepRecord.apply_dispatched now hstate]
  · rfl

theorem state_apply_of_eq {x : Status} (h : r.stepState id = some x) :
    (r.apply now id e).2.state = (x.next e).1 := by
  obtain ⟨s, hs, rfl⟩ := Option.map_eq_some_iff.mp h
  simp [apply, hs]

theorem effects_apply_of_eq {x : Status} (h : r.stepState id = some x) :
    (r.apply now id e).2.effects = (x.next e).2 := by
  obtain ⟨s, hs, rfl⟩ := Option.map_eq_some_iff.mp h
  simp [apply, hs]

@[simp] theorem cancelled_apply (r : Report) (now : Moment) (id : Nat) (e : StepEvent) :
    (r.apply now id e).1.cancelled = r.cancelled := by
  unfold apply
  split <;> rfl

section Change

variable (r : Report)

@[simp] theorem change_event : r.change (.event now id e) = (r.apply now id e).1 := rfl

end Change

theorem attempts_congr {r r' : Report} (h : r.steps = r'.steps) : r.attempts = r'.attempts := by
  funext i
  rw [attempts, h, attempts]

end Report

end Rollout
