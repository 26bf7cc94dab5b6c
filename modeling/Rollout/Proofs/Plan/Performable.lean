import Rollout.Proofs.Plan.Drawn
import Rollout.Proofs.Plan.Failures
import Rollout.Proofs.Text.Pieces

namespace Rollout

/-- A step that does what its kind says. -/
structure Step.Performable (s : Step) : Prop where
  push : (∃ l r, s.action = .push l r) ↔ s.kind = .push
  run : ∀ c, s.action = .run c → Text.trim c ≠ ""
  unrepeated : s.kind = .verify → s.retryable = false

theorem Template.Valid.performable {t : Template} (h : t.Valid) (id : Nat) (host : String)
    (role : Role) (predecessors : List Nat) :
    (Step.ofTemplate id host role t predecessors).Performable := by
  have haction : (Step.ofTemplate id host role t predecessors).action = Step.actionOf t := rfl
  rcases h.actionOf_cases with ⟨hpush, l, r, -, -, hcopies⟩ | ⟨hpush, c, -, hblank, hruns⟩
  · rw [hcopies] at haction
    refine ⟨iff_of_true ⟨l, r, haction⟩ hpush, fun c hc ↦ ?_, fun hverify ↦ ?_⟩
    · cases haction.symm.trans hc
    · cases hpush.symm.trans hverify
  · rw [hruns] at haction
    refine ⟨iff_of_false ?_ hpush, fun d hd ↦ ?_, fun hverify ↦ if_pos hverify⟩
    · rintro ⟨l, r, hcopies⟩
      cases haction.symm.trans hcopies
    · cases haction.symm.trans hd
      rw [Ne, Text.trim_eq_empty_iff, hblank]
      exact Bool.false_ne_true

namespace Plan

variable {catalog : Catalog} {full selected : Inventory} {steps steps' : List Step} {rule : Rule}

theorem performable_roleSteps {host : String} {r : Role} {ts : List Template}
    (hts : ∀ t ∈ ts, t.Valid) (next : Nat) (previous : Option Nat) :
    ∀ s ∈ roleSteps host r next previous ts, s.Performable := by
  induction ts generalizing next previous with
  | nil => exact List.forall_mem_nil _
  | cons t ts ih =>
    obtain ⟨ht, hts⟩ := List.forall_mem_cons.mp hts
    exact List.forall_mem_cons.mpr ⟨ht.performable .., ih hts _ _⟩

section Expand

variable (hc : catalog.Valid)
include hc

theorem performable_hostSteps (host : String) (rs : List Role) (next : Nat) :
    ∀ s ∈ hostSteps catalog host next rs, s.Performable := by
  induction rs generalizing next with
  | nil => exact List.forall_mem_nil _
  | cons r rs ih =>
    exact List.forall_mem_append.mpr
      ⟨performable_roleSteps (fun _ ht ↦ hc.template ht) _ _, ih _⟩

theorem performable_expand (hosts : List Host) (next : Nat) :
    ∀ s ∈ expand catalog next hosts, s.Performable := by
  induction hosts generalizing next with
  | nil => exact List.forall_mem_nil _
  | cons h hosts ih => exact List.forall_mem_append.mpr ⟨performable_hostSteps hc _ _ _, ih _⟩

end Expand

section Rules

variable (hsteps : ∀ s ∈ steps, s.Performable)
include hsteps

theorem performable_addPredecessor (target pred : Nat) :
    ∀ s ∈ addPredecessor target pred steps, s.Performable := by
  intro s hs
  obtain ⟨i, hi⟩ := List.mem_iff_getElem?.mp hs
  rw [getElem?_addPredecessor] at hi
  obtain ⟨t, ht, rfl⟩ := Option.map_eq_some_iff.mp hi
  obtain ⟨hpush, hrun, hrepeat⟩ := hsteps t (List.mem_of_getElem? ht)
  split
  · exact ⟨hpush, hrun, hrepeat⟩
  · exact ⟨hpush, hrun, hrepeat⟩

theorem performable_linkHost {prerequisites : List Host} {h : Host}
    (hok : linkHost rule prerequisites steps h = .ok steps') : ∀ s ∈ steps', s.Performable := by
  obtain ⟨target, -, hok⟩ := Result.bind_eq_ok.mp hok
  refine of_foldlM_eq_ok (P := fun steps ↦ ∀ s ∈ steps, s.Performable) ?_ hsteps hok
  intro g _ before after hbefore hok
  obtain ⟨pred, -, hok⟩ := Result.bind_eq_ok.mp hok
  cases hok
  exact performable_addPredecessor hbefore _ _

theorem performable_applyRule (hok : applyRule selected full steps rule = .ok steps') :
    ∀ s ∈ steps', s.Performable := by
  refine of_applyRule_eq_ok (P := fun steps ↦ ∀ s ∈ steps, s.Performable)
    (fun h _ before after hbefore hok ↦ ?_) hsteps hok
  exact performable_linkHost hbefore hok

end Rules

theorem performable_of_ofSelection (hc : catalog.Valid) {p : Plan}
    (hp : ofSelection selected full catalog = .ok p) : ∀ s ∈ p.steps, s.Performable := by
  obtain ⟨steps, hok, hp⟩ := Result.bind_eq_ok.mp hp
  obtain ⟨-, -, -, rfl⟩ := ofSteps_eq_ok hp
  -- a rule only adds to what steps wait for, which their actions do not depend on
  refine of_foldlM_eq_ok (P := fun steps ↦ ∀ s ∈ steps, s.Performable)
    (fun rule _ before after hbefore hok ↦ ?_) (performable_expand hc selected.hosts 0) hok
  exact performable_applyRule hbefore hok

end Plan

structure Catalog.Performable (c : Catalog) : Prop where
  template : ∀ r, ∀ t ∈ c.stepsFor r, ∀ id host predecessors,
    (Step.ofTemplate id host r t predecessors).Performable
  plan : ∀ selected full p, Plan.ofSelection selected full c = .ok p → ∀ s ∈ p.steps, s.Performable

theorem Catalog.accepts (steps? : Role → Option (List Template)) (rules : List Rule)
    (retry : RetryPolicies) :
    ((∃ c, new steps? rules retry = .ok c) ↔ Valid ⟨retry, steps?, rules⟩) ∧
      ∀ c, new steps? rules retry = .ok c → c.Performable := by
  refine ⟨⟨?_, fun hvalid ↦ ⟨_, new_eq_ok_iff.mpr ⟨rfl, hvalid⟩⟩⟩, fun c hc ↦ ⟨?_, ?_⟩⟩
  · rintro ⟨c, hc⟩
    obtain ⟨rfl, hvalid⟩ := new_eq_ok_iff.mp hc
    exact hvalid
  · intro r t ht id host predecessors
    exact ((Valid.of_new hc).template ht).performable ..
  · intro selected full p hp
    exact Plan.performable_of_ofSelection (Valid.of_new hc) hp

theorem Catalog.accepts_mounting : Catalog.mounting.Performable := (accepts _ _ _).2 _ new_mounting

end Rollout
