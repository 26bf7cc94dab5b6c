import Rollout.Proofs.Run.Control

namespace Rollout

namespace Control

variable {j : Job} {now : Moment} {c : Control}

theorem history_write (x : Change) : c.history <:+ (c.write x).history := List.suffix_cons _ _

theorem history_hostChanged (host : String) (change : Option Status) :
    (c.hostChanged j host change).history = c.history :=
  (congrArg Control.history (bare_hostChanged (j := j) (c := c) host change) :)

theorem history_skipDependents (id : Nat) (cause : String) :
    c.history <:+ (c.skipDependents j now id cause).history :=
  foldl_skipStep_induct (P := fun c' ↦ c.history <:+ c'.history) List.suffix_rfl
    fun _ _ _ hc' _ ↦ hc'.trans (history_write _)

theorem history_applyToPending (e : StepEvent) :
    c.history <:+ (c.applyToPending j now e).history :=
  foldl_applyIfPending_induct (P := fun c' ↦ c.history <:+ c'.history) List.suffix_rfl
    fun _ _ _ hc' _ ↦ hc'.trans (history_write _)

theorem history_perform (id : Nat) (label : String) (f : StepEffect) :
    c.history <:+ (c.perform j now id label f).history := by
  cases f with
  | skipDependents => exact history_skipDependents id label
  | releaseDependents =>
    have heq : (c.perform j now id label .releaseDependents).history = c.history :=
      (congrArg Control.history (foldl_releaseStep_eq (j.plan.successors id) c) :)
    exact heq ▸ List.suffix_rfl
  | _ => exact List.suffix_rfl

theorem history_foldl_perform (id : Nat) (label : String) (fs : List StepEffect) :
    c.history <:+ (fs.foldl (perform j now id label) c).history := by
  induction fs generalizing c with
  | nil => exact List.suffix_rfl
  | cons f fs ih => exact (history_perform id label f).trans ih

theorem history_stepFinished (s : Step) (outcome : Result Bool) :
    c.history <:+ (c.stepFinished j now s outcome).history := by
  rw [stepFinished, history_hostChanged, apply_fst]
  exact (history_write _).trans (history_foldl_perform _ _ _)

theorem history_handle (m : RunMessage) : c.history <:+ (c.handle j now m).history := by
  cases m with
  | finished id outcome =>
    simp only [handle]
    split
    · exact history_stepFinished (c := { c with inFlight := c.inFlight - 1 }) _ _
    · exact List.suffix_rfl
  | retryDue id =>
    simp only [handle]
    split <;> exact List.suffix_rfl
  | agentDone host outcome =>
    rw [handle_agentDone]
    split
    · exact history_write _
    · exact List.suffix_rfl

theorem history_foldl_abandonAgent (hosts : List String) :
    c.history <:+ (hosts.foldl abandonAgent c).history := by
  induction hosts generalizing c with
  | nil => exact List.suffix_rfl
  | cons host hosts ih => exact (history_write _).trans (ih (c := c.abandonAgent host))

theorem history_stopped : .cancelled :: c.history <:+ c.stopped.history :=
  history_foldl_abandonAgent (c := { c with
    cancelled := true, ready := [], waitingRetry := 0, agentStarts := [] }.write .cancelled)
    c.agentStarts

theorem history_cancelled : .cancelled :: c.history <:+ (c.cancel j now).history := by
  rw [cancel_eq]
  exact history_stopped.trans (history_applyToPending _)

theorem history_cancel : c.history <:+ (c.cancel j now).history :=
  (List.suffix_cons _ _).trans history_cancelled

theorem history_dispatch (id : Nat) : c.history <:+ (c.dispatch j now id).history := by
  simp only [dispatch]
  split
  · exact List.suffix_rfl
  · split <;> exact history_write _

theorem history_dispatchReady (rounds : Nat) :
    c.history <:+ (c.dispatchReady j now rounds).history := by
  induction rounds generalizing c with
  | zero => exact List.suffix_rfl
  | succ rounds ih =>
    rw [dispatchReady]
    split
    · exact List.suffix_rfl
    · split
      · exact List.suffix_rfl
      · rename_i id ready _
        exact (history_dispatch (c := { c with ready := ready }) id).trans ih

theorem history_finish : c.history <:+ (c.finish j now).history :=
  (history_applyToPending _).trans (history_write _)

end Control

namespace Course

theorem history_turn (j : Job) (now : Moment) (c : Control) (u : Outside) :
    c.history <:+ (turn j now c u).control.history := Control.history_dispatchReady _

theorem history_hear (j : Job) (now : Moment) (x : Course) (σ : Signal) :
    x.control.history <:+ (x.hear j now σ).control.history := by
  refine List.IsSuffix.trans ?_ (history_turn j now _ _)
  cases σ with
  | message m => exact Control.history_handle m
  | cancel => exact Control.history_cancel

theorem history_finish (j : Job) (now : Moment) (x : Course) :
    x.control.history <:+ (x.finish j now).control.history := Control.history_finish

end Course

end Rollout
