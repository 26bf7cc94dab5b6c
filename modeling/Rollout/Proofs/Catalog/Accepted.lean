import Rollout.Catalog.Basic
import Rollout.Proofs.Cluster.Role

namespace Rollout

/-- A step that can be carried out. -/
structure Template.Valid (t : Template) : Prop where
  named : Text.allBlank t.name = false
  paths : t.kind = .push → t.localPath.isSome ∧ t.remotePath.isSome
  command : t.kind ≠ .push → ∃ c, t.command = some c ∧ Text.allBlank c = false
  unrepeated : t.kind = .verify → t.retryable ≠ some true

/-- A rule between steps that exist. -/
def Rule.Valid (steps? : Role → Option (List Template)) (rule : Rule) : Prop :=
  ∃ dependent prerequisite, steps? rule.role = some dependent ∧
    steps? rule.requiresRole = some prerequisite ∧
    (∃ t ∈ prerequisite, t.name = rule.requiresStep) ∧
    match rule.step with
    | some name => ∃ t ∈ dependent, t.name = name
    | none => dependent ≠ []

structure Catalog.Valid (c : Catalog) : Prop where
  templates : ∀ r ts, c.steps? r = some ts → ∀ t ∈ ts, t.Valid
  distinct : ∀ r ts, c.steps? r = some ts → (ts.map Template.name).Nodup
  rules : ∀ rule ∈ c.rules, rule.Valid c.steps?

theorem Template.lacksCommand_eq_false {t : Template} :
    t.lacksCommand = false ↔ ∃ c, t.command = some c ∧ Text.allBlank c = false := by
  unfold lacksCommand
  cases t.command <;> simp

theorem Template.flaw?_eq_none {role : Role} {t : Template} : t.flaw? role = none ↔ t.Valid := by
  have hpaths : ¬ (decide (t.kind = .push) && (t.localPath.isNone || t.remotePath.isNone)) = true ↔
      (t.kind = .push → t.localPath.isSome ∧ t.remotePath.isSome) := by
    cases t.localPath <;> cases t.remotePath <;> simp
  have hcommand : ¬ (decide (t.kind ≠ .push) && t.lacksCommand) = true ↔
      (t.kind ≠ .push → ∃ c, t.command = some c ∧ Text.allBlank c = false) := by
    rw [← lacksCommand_eq_false]
    by_cases h : t.kind = .push <;> simp [h]
  have hrepeat : ¬ (decide (t.kind = .verify) && decide (t.retryable = some true)) = true ↔
      (t.kind = .verify → t.retryable ≠ some true) := by
    by_cases h : t.kind = .verify <;> simp [h]
  unfold flaw?
  constructor
  · intro h
    split at h
    · cases h
    · rename_i hnamed
      split at h
      · cases h
      · rename_i hp
        split at h
        · cases h
        · rename_i hc
          split at h
          · cases h
          · rename_i hr
            exact ⟨by simpa using hnamed, hpaths.mp hp, hcommand.mp hc, hrepeat.mp hr⟩
  · rintro ⟨hnamed, hp, hc, hr⟩
    rw [if_neg (by simp [hnamed]), if_neg (hpaths.mpr hp), if_neg (hcommand.mpr hc),
      if_neg (hrepeat.mpr hr)]

namespace Catalog

theorem stepsFlaw?_eq_none {role : Role} {seen : List String} {ts : List Template} :
    stepsFlaw? role seen ts = none ↔ (∀ t ∈ ts, t.Valid) ∧ (ts.map Template.name).Nodup ∧
      ∀ t ∈ ts, t.name ∉ seen := by
  induction ts generalizing seen with
  | nil => simp [stepsFlaw?]
  | cons t ts ih =>
    rw [stepsFlaw?, List.forall_mem_cons, List.forall_mem_cons, List.map_cons, List.nodup_cons]
    cases hflaw : t.flaw? role with
    | some m =>
      have hnot : ¬ t.Valid := fun h ↦ by simp [Template.flaw?_eq_none.mpr h] at hflaw
      simp [hnot]
    | none =>
      have hvalid := Template.flaw?_eq_none.mp hflaw
      by_cases hseen : t.name ∈ seen
      · simp [hseen]
      · simp only [List.contains_iff_mem, hseen, if_false, ih, List.mem_cons, List.mem_map, not_or,
          not_exists, not_and]
        constructor
        · rintro ⟨hall, hnodup, hfresh⟩
          exact ⟨⟨hvalid, hall⟩, ⟨fun u hu ↦ (hfresh u hu).1, hnodup⟩, not_false,
            fun u hu ↦ (hfresh u hu).2⟩
        · rintro ⟨⟨-, hall⟩, ⟨hhead, hnodup⟩, -, hfresh⟩
          exact ⟨hall, hnodup, fun u hu ↦ ⟨hhead u hu, hfresh u hu⟩⟩

theorem ruleFlaw?_eq_none {steps? : Role → Option (List Template)} {rule : Rule} :
    ruleFlaw? steps? rule = none ↔ rule.Valid steps? := by
  unfold ruleFlaw? Rule.Valid
  cases hdependent : steps? rule.role with
  | none => simp
  | some dependent =>
    cases hprerequisite : steps? rule.requiresRole with
    | none => simp
    | some prerequisite =>
      have hany : (!prerequisite.any fun t ↦ t.name == rule.requiresStep) = true ↔
          ¬ ∃ t ∈ prerequisite, t.name = rule.requiresStep := by simp
      simp only [hany, Option.some.injEq, exists_and_left, exists_eq_left']
      by_cases hstep : ∃ t ∈ prerequisite, t.name = rule.requiresStep
      · rw [if_neg (not_not_intro hstep)]
        cases rule.step <;> simp [hstep]
      · simp [hstep]

theorem flaw?_eq_none {c : Catalog} : c.flaw? = none ↔ c.Valid := by
  have hsteps : (Role.all.findSome? fun r ↦ (c.steps? r).bind (stepsFlaw? r [])) = none ↔
      ∀ r ts, c.steps? r = some ts → (∀ t ∈ ts, t.Valid) ∧ (ts.map Template.name).Nodup := by
    simp only [List.findSome?_eq_none_iff, Role.mem_all, true_imp_iff, Option.bind_eq_none_iff,
      stepsFlaw?_eq_none, List.not_mem_nil, not_false_eq_true, implies_true, and_true]
  have hrules : c.rules.findSome? (ruleFlaw? c.steps?) = none ↔
      ∀ rule ∈ c.rules, rule.Valid c.steps? := by
    simp only [List.findSome?_eq_none_iff, ruleFlaw?_eq_none]
  have hvalid : c.Valid ↔
      (∀ r ts, c.steps? r = some ts → (∀ t ∈ ts, t.Valid) ∧ (ts.map Template.name).Nodup) ∧
        ∀ rule ∈ c.rules, rule.Valid c.steps? :=
    ⟨fun h ↦ ⟨fun r ts hr ↦ ⟨h.templates r ts hr, h.distinct r ts hr⟩, h.rules⟩,
      fun ⟨h, h'⟩ ↦ ⟨fun r ts hr ↦ (h r ts hr).1, fun r ts hr ↦ (h r ts hr).2, h'⟩⟩
  rw [hvalid, ← hsteps, ← hrules]
  unfold flaw?
  split
  · rename_i h
    simp [h]
  · rename_i h
    simp [h]

/-- A catalog is accepted as it is, and exactly if it is valid. -/
theorem new_eq_ok_iff {steps? : Role → Option (List Template)} {rules : List Rule}
    {retry : RetryPolicies} {c : Catalog} :
    new steps? rules retry = .ok c ↔ c = ⟨retry, steps?, rules⟩ ∧ c.Valid := by
  simp only [new]
  split
  · rename_i m hm
    simp only [reduceCtorEq, false_iff, not_and]
    rintro rfl hvalid
    rw [flaw?_eq_none.mpr hvalid] at hm
    cases hm
  · rename_i hnone
    simp only [Except.ok.injEq]
    constructor
    · rintro rfl
      exact ⟨rfl, flaw?_eq_none.mp hnone⟩
    · exact fun h ↦ h.1.symm

variable {c : Catalog}

theorem Valid.of_new {steps? : Role → Option (List Template)} {rules : List Rule}
    {retry : RetryPolicies} (h : new steps? rules retry = .ok c) : c.Valid := (new_eq_ok_iff.mp h).2

theorem Valid.template (h : c.Valid) {r : Role} {t : Template} (ht : t ∈ c.stepsFor r) :
    t.Valid := by
  unfold stepsFor at ht
  cases hr : c.steps? r with
  | none => simp [hr] at ht
  | some ts => exact h.templates r ts hr t (by simpa [hr] using ht)

theorem Valid.nodup_names (h : c.Valid) (r : Role) : ((c.stepsFor r).map Template.name).Nodup := by
  unfold stepsFor
  cases hr : c.steps? r with
  | none => simp
  | some ts => simpa using h.distinct r ts hr

end Catalog

end Rollout
