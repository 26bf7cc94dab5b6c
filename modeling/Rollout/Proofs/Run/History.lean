import Rollout.Proofs.Plan.Accepted
import Rollout.Proofs.Run.Report
import Rollout.Run.Control

namespace Rollout

/-- The report after some changes, the latest first. -/
def Report.after (r : Report) (xs : List Change) : Report := xs.foldr (fun x r ↦ r.change x) r

@[simp] theorem Report.after_cons (r : Report) (x : Change) (xs : List Change) :
    r.after (x :: xs) = (r.after xs).change x := rfl

/-- What is said about attempts: `told id k outcome` if attempt number `k` of a step ended so. -/
abbrev Outcomes := Nat → Nat → Result Bool → Prop

namespace Job

variable (j : Job) (told : Outcomes)

def delayAfter (s : Step) (k : Nat) (fault : Fault) : Option Span :=
  retryDelay s.kind s.retryable fault k (j.retry.forKind s.kind)

/-- An event fits a report if the step is in a state for it and there is a reason for it. -/
inductive Fits (r : Report) (s : Step) : StepEvent → Prop
  | dispatched :
      r.stepState s.id = some .pending →
      (∀ a, j.plan.Precedes a s.id → r.stepState a = some .succeeded) → Fits r s .dispatched
  | completed (b : Bool) :
      r.stepState s.id = some .inProgress → told s.id (r.attempts s.id) (.ok b) →
      Fits r s (.completed b)
  | retried (fault : Fault) (delay : Span) :
      r.stepState s.id = some .inProgress → told s.id (r.attempts s.id) (.error fault) →
      r.cancelled = false → j.delayAfter s (r.attempts s.id) fault = some delay →
      Fits r s (.failed fault.message (some delay))
  | failed (fault : Fault) :
      r.stepState s.id = some .inProgress → told s.id (r.attempts s.id) (.error fault) →
      r.cancelled = true ∨ j.delayAfter s (r.attempts s.id) fault = none →
      Fits r s (.failed fault.message none)
  | dependencyFailed (cause : Step) :
      r.stepState s.id = some .pending → cause ∈ j.plan.steps →
      r.stepState cause.id = some .failed → j.plan.Awaits s.id cause.id →
      Fits r s (.dependencyFailed cause.label)
  | cancelled :
      r.stepState s.id = some .pending → r.cancelled = true → Fits r s .cancelled

def Proper (r : Report) : Change → Prop
  | .event _ id e => ∃ s, j.plan.step? id = some s ∧ j.Fits told r s e
  | _ => True

/-- A history of changes, the latest first, each proper when it is made. -/
def Chronicle (r : Report) : List Change → Prop
  | [] => True
  | x :: xs => j.Proper told (r.after xs) x ∧ Chronicle r xs

end Job

variable {j : Job} {told : Outcomes} {r : Report}

theorem Job.Chronicle.of_suffix {xs ys : List Change} (h : j.Chronicle told r xs)
    (hsuf : ys <:+ xs) : j.Chronicle told r ys := by
  obtain ⟨zs, rfl⟩ := hsuf
  induction zs with
  | nil => exact h
  | cons z zs ih => exact ih h.2

/-- What holds at some moment and is kept by every proper change holds from then on. -/
theorem Job.Chronicle.induction {P : Report → Prop} {xs ys : List Change}
    (h : j.Chronicle told r xs) (hsuf : ys <:+ xs) (hys : P (r.after ys))
    (hchange : ∀ r x, P r → j.Proper told r x → P (r.change x)) : P (r.after xs) := by
  obtain ⟨zs, rfl⟩ := hsuf
  induction zs with
  | nil => exact hys
  | cons z zs ih => exact hchange _ z (ih h.2) h.1

theorem Job.Fits.state {s : Step} {e : StepEvent} (h : j.Fits told r s e) :
    r.stepState s.id = some .pending ∨ r.stepState s.id = some .inProgress := by
  cases h <;> simp_all

def Job.Retried (j : Job) (told : Outcomes) (s : Step) (k : Nat) : Prop :=
  ∃ fault delay, told s.id k (.error fault) ∧ j.delayAfter s k fault = some delay

/-- What the record of a step accounts for. -/
structure Job.Accounts (j : Job) (told : Outcomes) (stopped : Bool) (s : Step) (x : StepRecord) :
    Prop where
  describes : x.Describes s
  begun : x.state.isBegun = true → 1 ≤ x.attempts
  retried : ∀ k, 1 ≤ k → k + x.state.isBegun.toNat ≤ x.attempts → j.Retried told s k
  succeeded : x.state = .succeeded → told s.id x.attempts (.ok x.alreadySatisfied) ∧ x.error = none
  failed : x.state = .failed → ∃ fault, told s.id x.attempts (.error fault) ∧
    x.error = some fault.message ∧ (stopped = true ∨ j.delayAfter s x.attempts fault = none)
  unsatisfied : x.state ≠ .succeeded → x.alreadySatisfied = false
  untried : x.attempts = 0 → x.error = none
  error_told : ∀ t, x.error = some t → ∃ k fault, told s.id k (.error fault) ∧ fault.message = t

namespace Job.Accounts

variable {stopped : Bool} {s : Step} {x : StepRecord}

theorem ofStep (j : Job) (told : Outcomes) (stopped : Bool) (s : Step) :
    j.Accounts told stopped s (.ofStep s) where
  describes := StepRecord.describes_ofStep s
  begun := by simp [StepRecord.ofStep]
  retried k hk hle := by simp [StepRecord.ofStep] at hle; omega
  succeeded := by simp [StepRecord.ofStep]
  failed := by simp [StepRecord.ofStep]
  unsatisfied _ := rfl
  untried _ := rfl
  error_told := by simp [StepRecord.ofStep]

theorem stop (h : j.Accounts told stopped s x) : j.Accounts told true s x where
  describes := h.describes
  begun := h.begun
  retried := h.retried
  succeeded := h.succeeded
  failed hx := by
    obtain ⟨fault, htold, herr, -⟩ := h.failed hx
    exact ⟨fault, htold, herr, .inl rfl⟩
  unsatisfied := h.unsatisfied
  untried := h.untried
  error_told := h.error_told

theorem event (h : j.Accounts told r.cancelled s x) (hx : r.steps[s.id]? = some x) (now : Moment)
    {e : StepEvent} (hfits : j.Fits told r s e) :
    j.Accounts told r.cancelled s (x.apply now e).1 := by
  have hattempts : r.attempts s.id = x.attempts := by simp [Report.attempts, hx]
  have hstate : r.stepState s.id = some x.state := by simp [Report.stepState, hx]
  have hdesc := h.describes.apply now e
  cases hfits with
  | dispatched hp =>
    have hx' : x.state = .pending := by simpa [hstate] using hp
    rw [StepRecord.apply_dispatched now hx'] at hdesc ⊢
    refine ⟨hdesc, by simp, ?_, by simp, by simp, ?_, by simp, h.error_told⟩
    · intro k hk hle
      simp only [Status.isBegun_inProgress, Bool.toNat_true, Nat.add_le_add_iff_right] at hle
      exact h.retried k hk (by simpa [hx'] using hle)
    · exact fun _ ↦ h.unsatisfied (by simp [hx'])
  | completed b hp htold =>
    have hx' : x.state = .inProgress := by simpa [hstate] using hp
    rw [hattempts] at htold
    rw [StepRecord.apply_completed now hx'] at hdesc ⊢
    refine ⟨hdesc, fun _ ↦ h.begun (by simp [hx']), fun k hk hle ↦ ?_,
      fun _ ↦ ⟨htold, rfl⟩, by simp, by simp, fun _ ↦ rfl, by simp⟩
    exact h.retried k hk (by simpa [hx'] using hle)
  | retried fault delay hp htold hgo hdelay =>
    have hx' : x.state = .inProgress := by simpa [hstate] using hp
    have hpos := h.begun (by simp [hx'])
    rw [hattempts] at htold hdelay
    rw [StepRecord.apply_retried now hx'] at hdesc ⊢
    refine ⟨hdesc, by simp, ?_, by simp, by simp, fun _ ↦ h.unsatisfied (by simp [hx']), ?_, ?_⟩
    · intro k hk hle
      simp only [Status.isBegun_pending, Bool.toNat_false, Nat.add_zero] at hle
      rcases Nat.lt_or_eq_of_le hle with hlt | rfl
      · exact h.retried k hk (by simp only [hx', Status.isBegun_inProgress, Bool.toNat_true]; omega)
      · exact ⟨fault, delay, htold, hdelay⟩
    · intro h0
      simp only at h0
      omega
    · intro t ht
      exact ⟨x.attempts, fault, htold, by simpa using ht⟩
  | failed fault hp htold hend =>
    have hx' : x.state = .inProgress := by simpa [hstate] using hp
    have hpos := h.begun (by simp [hx'])
    rw [hattempts] at htold hend
    rw [StepRecord.apply_failed now hx'] at hdesc ⊢
    refine ⟨hdesc, fun _ ↦ hpos, ?_, by simp, fun _ ↦ ⟨fault, htold, rfl, hend⟩,
      fun _ ↦ h.unsatisfied (by simp [hx']), ?_, ?_⟩
    · intro k hk hle
      exact h.retried k hk (by simpa [hx'] using hle)
    · intro h0
      simp only at h0
      omega
    · intro t ht
      exact ⟨x.attempts, fault, htold, by simpa using ht⟩
  | dependencyFailed cause hp =>
    have hx' : x.state = .pending := by simpa [hstate] using hp
    rw [StepRecord.apply_dependencyFailed now hx'] at hdesc ⊢
    refine ⟨hdesc, by simp, fun k hk hle ↦ ?_, by simp, by simp,
      fun _ ↦ h.unsatisfied (by simp [hx']), h.untried, h.error_told⟩
    exact h.retried k hk (by simpa [hx'] using hle)
  | cancelled hp =>
    have hx' : x.state = .pending := by simpa [hstate] using hp
    rw [StepRecord.apply_cancelled now hx'] at hdesc ⊢
    refine ⟨hdesc, by simp, fun k hk hle ↦ ?_, by simp, by simp,
      fun _ ↦ h.unsatisfied (by simp [hx']), h.untried, h.error_told⟩
    exact h.retried k hk (by simpa [hx'] using hle)

theorem attempts_le (h : j.Accounts told stopped s x) :
    x.attempts ≤ max 1 (j.retry.forKind s.kind).maxAttempts := by
  by_cases hle : x.attempts ≤ 1
  · omega
  · obtain ⟨fault, delay, -, hdelay⟩ := h.retried (x.attempts - 1) (by omega)
      (by cases x.state.isBegun <;> simp only [Bool.toNat_true, Bool.toNat_false] <;> omega)
    simp only [Job.delayAfter, retryDelay] at hdelay
    split at hdelay
    · cases hdelay
    · split at hdelay
      · rename_i hallow
        simp only [Bool.and_eq_true, RetryPolicy.allowsRetry, decide_eq_true_eq] at hallow
        omega
      · cases hdelay

end Job.Accounts

def Job.Founded (j : Job) (r : Report) : Prop :=
  ∀ a b, j.plan.Precedes a b → ∀ x, r.steps[b]? = some x →
    x.state.isBegun = true ∨ 0 < x.attempts → r.stepState a = some .succeeded

/-- Unless the run is cancelled, steps are skipped only for failed ones. -/
def Job.Excused (j : Job) (r : Report) : Prop :=
  ∀ b, r.stepState b = some .skipped →
    r.cancelled = true ∨ ∃ a, j.plan.Awaits b a ∧ r.stepState a = some .failed

/-- What holds of the reports of a run at every moment. -/
structure Job.Holds (j : Job) (told : Outcomes) (r : Report) : Prop where
  length_steps : r.steps.length = j.plan.steps.length
  accounts : ∀ s x, j.plan.step? s.id = some s → r.steps[s.id]? = some x →
    j.Accounts told r.cancelled s x
  founded : j.Founded r
  excused : j.Excused r

theorem Job.Fits.stepState_of_terminal {s : Step} {now : Moment} {e : StepEvent}
    (h : j.Fits told r s e) {a : Nat} {x : Status} (ha : r.stepState a = some x)
    (hend : x.isTerminal = true) : (r.apply now s.id e).1.stepState a = some x := by
  rw [Report.stepState_apply_of_ne, ha]
  rintro rfl
  rcases h.state with h' | h' <;> rw [ha] at h' <;> simp_all

theorem Job.Excused.event (h : j.Excused r) {s : Step} {now : Moment} {e : StepEvent}
    (hfits : j.Fits told r s e) : j.Excused (r.apply now s.id e).1 := by
  intro b hb
  rw [Report.cancelled_apply]
  by_cases hid : b = s.id
  · subst hid
    cases hfits with
    | dispatched hp | completed b hp | retried fault delay hp | failed fault hp =>
      rw [Report.stepState_apply_self hp] at hb
      simp [Status.next] at hb
    | dependencyFailed cause hp hmem hfailed hawaits =>
      refine .inr ⟨cause.id, hawaits, ?_⟩
      have hfits : j.Fits told r s (.dependencyFailed cause.label) :=
        .dependencyFailed cause hp hmem hfailed hawaits
      exact hfits.stepState_of_terminal hfailed rfl
    | cancelled _ hstop => exact .inl hstop
  · rw [Report.stepState_apply_of_ne hid] at hb
    refine (h b hb).imp_right ?_
    rintro ⟨a, ha, hfailed⟩
    exact ⟨a, ha, hfits.stepState_of_terminal hfailed rfl⟩

namespace Job.Holds

theorem start (j : Job) (told : Outcomes) (runId : String) (now : Moment) :
    j.Holds told (.start runId now j.plan j.inventory) where
  length_steps := by simp [Report.start]
  accounts s x hs hx := by
    have hs' : j.plan.steps[s.id]? = some s := hs
    simp only [Report.start, List.getElem?_map, hs', Option.map_some, Option.some.injEq] at hx
    exact hx ▸ .ofStep j told _ s
  founded a b _ x hx hbegun := by
    simp only [Report.start, List.getElem?_map] at hx
    obtain ⟨s, -, rfl⟩ := Option.map_eq_some_iff.mp hx
    simp [StepRecord.ofStep] at hbegun
  excused b hb := by
    simp only [Report.stepState, Report.start, List.getElem?_map, Option.map_map] at hb
    obtain ⟨s, -, hs⟩ := Option.map_eq_some_iff.mp hb
    simp [StepRecord.ofStep] at hs

theorem change (hp : j.plan.WellFormed) (h : j.Holds told r) {x : Change}
    (hx : j.Proper told r x) : j.Holds told (r.change x) := by
  cases x with
  | agent host health degraded => exact ⟨h.length_steps, h.accounts, h.founded, h.excused⟩
  | cancelled =>
    exact ⟨h.length_steps, fun s y hs hy ↦ (h.accounts s y hs hy).stop, h.founded,
      fun _ _ ↦ .inl rfl⟩
  | finished now => exact ⟨h.length_steps, h.accounts, h.founded, h.excused⟩
  | event now id e =>
    obtain ⟨s, hs, hfits⟩ := hx
    obtain rfl := hp.id_of_step? hs
    refine ⟨by simpa using h.length_steps, ?_, ?_, h.excused.event hfits⟩
    · intro t y ht hy
      rw [Report.change_event, Report.getElem?_steps_apply] at hy
      rw [Report.change_event, Report.cancelled_apply]
      split at hy
      · rename_i hid
        obtain rfl : t = s := by rw [hid, hs] at ht; exact (Option.some.inj ht).symm
        obtain ⟨y, hy', rfl⟩ := Option.map_eq_some_iff.mp hy
        exact (h.accounts t y ht hy').event hy' now hfits
      · exact h.accounts t y ht hy
    · intro a b hab y hy hbegun
      have hkeep : r.stepState a = some .succeeded →
          (r.change (.event now s.id e)).stepState a = some .succeeded :=
        fun ha ↦ hfits.stepState_of_terminal ha rfl
      rw [Report.change_event, Report.getElem?_steps_apply] at hy
      split at hy
      · rename_i hid
        subst hid
        obtain ⟨y, hy', rfl⟩ := Option.map_eq_some_iff.mp hy
        by_cases hb : y.state.isBegun = true ∨ 0 < y.attempts
        · exact hkeep (h.founded a _ hab y hy' hb)
        · have hstate : r.stepState s.id = some y.state := by simp [Report.stepState, hy']
          -- only a dispatch begins an attempt
          cases hfits with
          | dispatched _ hpre => exact hkeep (hpre a hab)
          | completed b hp' | retried fault delay hp' | failed fault hp' =>
            have hy'' : y.state = .inProgress := by simpa [hstate] using hp'
            simp [hy''] at hb
          | dependencyFailed cause hp' =>
            have hy'' : y.state = .pending := by simpa [hstate] using hp'
            rw [StepRecord.apply_dependencyFailed now hy''] at hbegun
            exact absurd hbegun (by simpa [hy''] using hb)
          | cancelled hp' =>
            have hy'' : y.state = .pending := by simpa [hstate] using hp'
            rw [StepRecord.apply_cancelled now hy''] at hbegun
            exact absurd hbegun (by simpa [hy''] using hb)
      · exact hkeep (h.founded a b hab y hy hbegun)

theorem after (hp : j.plan.WellFormed) (h : j.Holds told r) {xs : List Change}
    (hxs : j.Chronicle told r xs) : j.Holds told (r.after xs) :=
  hxs.induction List.nil_suffix h fun _ _ hr hx ↦ hr.change hp hx

theorem awaited (h : j.Holds told r) {a b : Nat} (hab : j.plan.Awaits b a) {x : StepRecord}
    (hx : r.steps[b]? = some x) (hbegun : x.state.isBegun = true ∨ 0 < x.attempts) :
    r.stepState a = some .succeeded := by
  induction hab generalizing x with
  | single hab => exact h.founded _ _ hab x hx hbegun
  | tail _ hcb ih =>
    obtain ⟨y, hy, hstate⟩ := Option.map_eq_some_iff.mp (h.founded _ _ hcb x hx hbegun)
    exact ih hy (.inl (by simp [hstate]))

theorem awaited_of_stepState (h : j.Holds told r) {a b : Nat} (hab : j.plan.Awaits b a)
    {x : Status} (hx : r.stepState b = some x) (hbegun : x.isBegun = true) :
    r.stepState a = some .succeeded := by
  obtain ⟨y, hy, rfl⟩ := Option.map_eq_some_iff.mp hx
  exact h.awaited hab hy (.inl hbegun)

theorem not_skipped (h : j.Holds told r) (hgo : r.cancelled = false) {b : Nat}
    (hpre : ∀ a, j.plan.Precedes a b → r.stepState a = some .succeeded) :
    r.stepState b ≠ some .skipped := by
  intro hb
  rcases h.excused b hb with hstop | ⟨a, hab, hfailed⟩
  · simp [hgo] at hstop
  · obtain ⟨d, had, hdb⟩ := Relation.TransGen.tail'_iff.mp hab
    rcases Relation.reflTransGen_iff_eq_or_transGen.mp had with rfl | had
    · simp [hpre d hdb] at hfailed
    · simp [h.awaited_of_stepState had (hpre d hdb) rfl] at hfailed

end Job.Holds

theorem Job.Proper.terminal {x : Change} (hp : j.plan.WellFormed) (h : j.Proper told r x) {i : Nat}
    {y : StepRecord} (hy : r.steps[i]? = some y) (hend : y.state.isTerminal = true) :
    (r.change x).steps[i]? = some y := by
  cases x with
  | agent | cancelled | finished => exact hy
  | event now id e =>
    obtain ⟨s, hs, hfits⟩ := h
    obtain rfl := hp.id_of_step? hs
    rw [Report.change_event, Report.getElem?_steps_apply, if_neg, hy]
    rintro rfl
    have hstate : r.stepState s.id = some y.state := by simp [Report.stepState, hy]
    rcases hfits.state with h' | h' <;> rw [hstate] at h' <;> simp_all

theorem Job.Chronicle.terminal {xs ys : List Change} (hp : j.plan.WellFormed)
    (h : j.Chronicle told r xs) (hsuf : ys <:+ xs) {i : Nat} {x : StepRecord}
    (hx : (r.after ys).steps[i]? = some x) (hend : x.state.isTerminal = true) :
    (r.after xs).steps[i]? = some x :=
  h.induction hsuf hx fun _ _ hr hz ↦ hz.terminal hp hr hend

end Rollout
