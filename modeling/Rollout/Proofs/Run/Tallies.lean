import Rollout.Proofs.Run.Fieldwork
import Rollout.Proofs.Run.Turns

namespace Rollout.Fieldwork

variable {j : Job} {l : Launch} {σs : List Signal} {x : Fieldwork} {id : Nat}

/-- The course of a run knows how much is under way for each step. -/
structure Tallies (x : Fieldwork) : Prop where
  attempts : ∀ id, (x.duties id).countP Duty.isAttempt = x.course.outside.attempts.count id
  retries : ∀ id, (x.duties id).countP Duty.isRest = x.course.outside.retries.count id

theorem count_attempts_obeyed (now : Span) (id : Nat) (os : List RunOrder) (u : Outside) :
    (os.foldl Outside.obey u).attempts.count id =
      (os.flatMap (RunOrder.duties now id)).countP Duty.isAttempt + u.attempts.count id := by
  induction os generalizing u with
  | nil => simp
  | cons o os ih =>
    rw [List.foldl_cons, ih, List.flatMap_cons, List.countP_append]
    cases o with
    | attempt i =>
      by_cases hi : i = id
      · simp [Outside.obey, RunOrder.duties, Duty.isAttempt, hi]
        omega
      · simp [Outside.obey, RunOrder.duties, hi]
    | retryLater i delay =>
      by_cases hi : i = id <;> simp [Outside.obey, RunOrder.duties, Duty.isAttempt, hi]
    | startAgent | abandonAgent => simp [Outside.obey, RunOrder.duties]

theorem count_retries_obeyed (now : Span) (id : Nat) (os : List RunOrder) (u : Outside) :
    (os.foldl Outside.obey u).retries.count id =
      (os.flatMap (RunOrder.duties now id)).countP Duty.isRest + u.retries.count id := by
  induction os generalizing u with
  | nil => simp
  | cons o os ih =>
    rw [List.foldl_cons, ih, List.flatMap_cons, List.countP_append]
    cases o with
    | attempt i => by_cases hi : i = id <;> simp [Outside.obey, RunOrder.duties, Duty.isRest, hi]
    | retryLater i delay =>
      by_cases hi : i = id
      · simp [Outside.obey, RunOrder.duties, Duty.isRest, hi]
        omega
      · simp [Outside.obey, RunOrder.duties, hi]
    | startAgent | abandonAgent => simp [Outside.obey, RunOrder.duties]

theorem tallies_launch (j : Job) (l : Launch) (now : Moment) : (launch j l now).Tallies where
  attempts id := by
    rw [launch, Course.outside_launch, count_attempts_obeyed .zero]
    simp
  retries id := by
    rw [launch, Course.outside_launch, count_retries_obeyed .zero]
    simp

theorem Tallies.canHear (h : x.Tallies) {σ : Signal} {now : Moment}
    (hcan : x.CanAct (.hears now σ)) : x.course.CanHear σ := by
  cases σ with
  | cancel => exact hcan
  | message m =>
    refine ⟨hcan.1, ?_⟩
    cases m with
    | finished id outcome =>
      have hpos : 0 < (x.duties id).countP Duty.isAttempt :=
        List.countP_pos_iff.mpr ⟨_, hcan.2, rfl⟩
      rw [h.attempts] at hpos
      exact List.count_pos_iff.mp hpos
    | retryDue id =>
      obtain ⟨d, hd, hdue⟩ := hcan.2
      have hrest : d.isRest = true := by cases d <;> simp_all [Duty.isDue, Duty.isRest]
      have hpos : 0 < (x.duties id).countP Duty.isRest := List.countP_pos_iff.mpr ⟨d, hd, hrest⟩
      rw [h.retries] at hpos
      exact List.count_pos_iff.mp hpos
    | agentDone host outcome => exact hcan.2

theorem countP_replace {p : Duty → Bool} {d d' : Duty} (hmem : d ∈ x.duties id) (hp : p d' = p d)
    (i : Nat) : ((x.replace id d d').duties i).countP p = (x.duties i).countP p := by
  by_cases hi : i = id
  · subst hi
    rw [duties_replace_self, (List.perm_cons_erase hmem).countP_eq p, List.countP_cons,
      List.countP_cons, hp]
  · rw [duties_replace_of_ne hi]

theorem Tallies.replace (h : x.Tallies) {d d' : Duty} (hmem : d ∈ x.duties id)
    (hd : d.isAttempt = true) (hd' : d'.isAttempt = true) : (x.replace id d d').Tallies := by
  have hrest : d'.isRest = d.isRest := by
    cases d <;> cases d' <;> simp_all [Duty.isAttempt, Duty.isRest]
  exact ⟨fun i ↦ (countP_replace hmem (hd'.trans hd.symm) i).trans (h.attempts i),
    fun i ↦ (countP_replace hmem hrest i).trans (h.retries i)⟩

theorem Tallies.write (h : x.Tallies) (id : Nat) (n : FieldNote) : (x.write id n).Tallies :=
  ⟨h.attempts, h.retries⟩

theorem Tallies.carryOut (h : x.Tallies) {d : Duty} (hmem : d ∈ x.duties id)
    (hd : d.isAttempt = true) (mv : Move AttemptStage (Result Bool)) :
    (x.carryOut id d mv).Tallies := by
  cases mv with
  | call c within stage => exact (h.write id (.made c)).replace hmem hd rfl
  | pause t stage => exact h.replace hmem hd rfl
  | done outcome => exact h.replace hmem hd rfl

theorem Tallies.left (h : x.Tallies) {σ : Signal} (hσ : x.Brings σ) (i : Nat) :
    (x.left σ i).countP Duty.isAttempt = (x.course.outside.hear σ).attempts.count i ∧
      (x.left σ i).countP Duty.isRest = (x.course.outside.hear σ).retries.count i := by
  have hattempts := h.attempts i
  have hretries := h.retries i
  cases σ with
  | cancel => exact ⟨hattempts, hretries⟩
  | message m =>
    cases m with
    | agentDone host outcome => exact ⟨hattempts, hretries⟩
    | finished id outcome =>
      by_cases hi : i = id
      · subst hi
        have hperm := List.perm_cons_erase (show .ended outcome ∈ x.duties i from hσ)
        rw [hperm.countP_eq, List.countP_cons] at hattempts hretries
        simp only [Fieldwork.left, Function.update_self, Outside.hear, List.count_erase_self]
        simp only [Duty.isAttempt, Duty.isRest, if_true, Bool.false_eq_true, if_false]
          at hattempts hretries
        omega
      · simp only [Fieldwork.left, Function.update_of_ne hi, Outside.hear,
          List.count_erase_of_ne hi]
        exact ⟨hattempts, hretries⟩
    | retryDue id =>
      by_cases hi : i = id
      · subst hi
        obtain ⟨d, hd, hdue⟩ := hσ
        obtain ⟨d, ds, ds', -, hdue, heq, herase⟩ := List.exists_of_eraseP hd hdue
        simp only [Fieldwork.left, Function.update_self, Outside.hear, List.count_erase_self,
          herase]
        cases d with
        | resting due =>
          rw [heq] at hattempts hretries
          simp only [List.countP_append, List.countP_cons, Duty.isAttempt, Duty.isRest, if_true,
            Bool.false_eq_true, if_false] at hattempts hretries ⊢
          omega
        | ordered | waiting | ended => cases hdue
      · simp only [Fieldwork.left, Function.update_of_ne hi, Outside.hear,
          List.count_erase_of_ne hi]
        exact ⟨hattempts, hretries⟩

theorem Tallies.act (h : x.Tallies) {e : Event} (hcan : x.CanAct e) : (x.act j e).Tallies := by
  cases e with
  | passes d => exact ⟨h.attempts, h.retries⟩
  | ends now => exact ⟨h.attempts, h.retries⟩
  | begins id =>
    simp only [Fieldwork.act]
    split
    · exact h.carryOut hcan rfl _
    · exact h
  | answers id stage r =>
    simp only [Fieldwork.act]
    split
    · exact (h.write id (.came r)).carryOut hcan rfl _
    · exact h
  | hears now σ =>
    have hleft := h.left hcan.2
    refine ⟨fun id ↦ ?_, fun id ↦ ?_⟩
    · rw [Fieldwork.act, Course.outside_hear, count_attempts_obeyed x.now, List.countP_append,
        (hleft id).1, asked]
    · rw [Fieldwork.act, Course.outside_hear, count_retries_obeyed x.now, List.countP_append,
        (hleft id).2, asked]

theorem Reached.tallies (h : Reached j l σs x) : x.Tallies := by
  induction h with
  | launch now => exact tallies_launch j l now
  | act _ hcan ih => exact ih.act hcan

theorem Reached.course (h : Reached j l σs x) : Course.Reached j l σs x.course := by
  induction h with
  | launch now => exact .launch now
  | @act σs x e h hcan ih =>
    cases e with
    | passes d => exact ih
    | hears now σ => exact ih.hear now (h.tallies.canHear hcan)
    | ends now => exact ih.finish now hcan.1 hcan.2
    | begins id =>
      simp only [Fieldwork.act]
      split
      · rwa [course_carryOut]
      · exact ih
    | answers id stage r =>
      simp only [Fieldwork.act]
      split
      · rwa [course_carryOut]
      · exact ih

theorem mem_duties_iff {now : Span} {os : List RunOrder} {d : Duty} :
    d ∈ os.flatMap (RunOrder.duties now id) ↔ d = .ordered ∧ .attempt id ∈ os ∨
      ∃ delay, d = .resting ⟨now.nanos + delay.nanos⟩ ∧ .retryLater id delay ∈ os := by
  rw [List.mem_flatMap]
  constructor
  · rintro ⟨o, ho, hd⟩
    cases o with
    | attempt i =>
      by_cases hi : i = id
      · subst hi
        exact .inl ⟨by simpa [RunOrder.duties] using hd, ho⟩
      · simp [RunOrder.duties, hi] at hd
    | retryLater i delay =>
      by_cases hi : i = id
      · subst hi
        exact .inr ⟨delay, by simpa [RunOrder.duties] using hd, ho⟩
      · simp [RunOrder.duties, hi] at hd
    | startAgent | abandonAgent => cases hd
  · rintro (⟨rfl, ho⟩ | ⟨delay, rfl, ho⟩)
    · exact ⟨_, ho, by simp [RunOrder.duties]⟩
    · exact ⟨_, ho, by simp [RunOrder.duties]⟩

theorem count_ordered_duties (now : Span) (id : Nat) (os : List RunOrder) :
    (os.flatMap (RunOrder.duties now id)).count .ordered =
      (os.flatMap (RunOrder.duties now id)).countP Duty.isAttempt := by
  refine List.countP_congr fun d hd ↦ ?_
  rcases mem_duties_iff.mp hd with ⟨rfl, -⟩ | ⟨delay, rfl, -⟩
  · simp [Duty.isAttempt]
  · simp [Duty.isAttempt]

theorem count_ordered_asked (j : Job) (x : Fieldwork) (now : Moment) (σ : Signal) (id : Nat) :
    (x.asked j now σ id).count .ordered = (x.asked j now σ id).countP Duty.isAttempt :=
  count_ordered_duties ..

theorem Tallies.length_duties (h : x.Tallies) (id : Nat) : (x.duties id).length =
    x.course.outside.attempts.count id + x.course.outside.retries.count id := by
  have hrest : ∀ d : Duty, d.isRest = !d.isAttempt := by
    intro d
    cases d <;> rfl
  rw [← h.attempts, ← h.retries, List.length_eq_countP_add_countP Duty.isAttempt]
  congr 2
  funext d
  simp [hrest]

theorem Reached.length_duties_le (hp : j.plan.WellFormed) (h : Reached j l σs x) {now : Moment}
    {σ : Signal} (hcan : x.CanAct (.hears now σ)) {d : Duty}
    (hd : d ∈ x.asked j now σ id) :
    ((x.act j (.hears now σ)).duties id).length ≤ 1 := by
  have hσ := h.tallies.canHear hcan
  have hsound := (h.course.hear now hσ).sound_any hp
  have hgo : l.cancelled = false ∧ .cancel ∉ σ :: σs := by
    rcases mem_duties_iff.mp hd with ⟨-, ho⟩ | ⟨delay, -, ho⟩
    · exact (h.course.sound_any hp).going_of_orders hp hσ (by simp) ho
    · exact (h.course.sound_any hp).going_of_orders hp hσ (by simp) ho
  rw [(h.tallies.act hcan).length_duties]
  exact hsound.under_way_le (hsound.going_iff.mpr hgo) id

end Rollout.Fieldwork
