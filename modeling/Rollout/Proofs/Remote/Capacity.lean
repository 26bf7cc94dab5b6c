import Rollout.Proofs.Remote.Traffic

namespace Rollout

open scoped List

namespace Traffic

variable {τ : Type} [DecidableEq τ] {calls : τ → Call} {g : Guard τ} {x : Traffic τ} {now : UInt64}
  {t : τ} {r : Reply}

structure Sound (x : Traffic τ) : Prop where
  serves : x.guard.Serves x.entries x.placed x.released x.quit
  nodup_arrivals : (x.admitted ++ x.entries).Nodup
  arrivals_asked : ∀ t ∈ x.admitted ++ x.entries, t ∈ x.asked
  nodup_active : (x.underWay ++ x.answered.map Prod.fst).Nodup
  active_running : ∀ t ∈ x.underWay ++ x.answered.map Prod.fst, t ∈ x.guard.running
  returned_over : ∀ p ∈ x.returned,
    p.1 ∈ x.released ∨ p.1 ∈ x.asked ∧ p.1 ∉ x.admitted ++ x.entries

namespace Sound

theorem start (h : g.Serves [] [] [] []) : ({ guard := g } : Traffic τ).Sound := by
  refine ⟨h, ?_, ?_, ?_, ?_, ?_⟩ <;> simp

theorem asks (h : x.Sound) (hcan : x.CanStep (.asks now t)) :
    (x.step calls (.asks now t)).Sound := by
  have hold : ∀ u ∈ x.admitted ++ x.entries, u ∈ t :: x.asked :=
    fun u hu ↦ List.mem_cons_of_mem t (h.arrivals_asked u hu)
  cases hfault : x.guard.refusal? now (calls t).host with
  | some fault =>
    constructor <;> simp only [step, move, hfault]
    · exact h.serves
    · exact h.nodup_arrivals
    · exact hold
    · exact h.nodup_active
    · exact h.active_running
    · refine List.forall_mem_cons.mpr ⟨.inr ⟨List.mem_cons_self, ?_⟩, fun p hp ↦ ?_⟩
      · exact fun ht ↦ hcan (h.arrivals_asked t ht)
      · exact (h.returned_over p hp).imp_right fun ho ↦ ⟨List.mem_cons_of_mem _ ho.1, ho.2⟩
  | none =>
    constructor <;> simp only [step, move, hfault, List.cons_append]
    · exact h.serves
    · exact List.nodup_cons.mpr ⟨fun ht ↦ hcan (h.arrivals_asked t ht), h.nodup_arrivals⟩
    · exact List.forall_mem_cons.mpr ⟨List.mem_cons_self, hold⟩
    · exact h.nodup_active
    · exact h.active_running
    · intro p hp
      refine (h.returned_over p hp).imp_right fun ho ↦ ⟨List.mem_cons_of_mem _ ho.1, fun hmem ↦ ?_⟩
      rcases List.mem_cons.mp hmem with heq | hmem
      · exact hcan (heq ▸ ho.1)
      · exact ho.2 hmem

theorem enters (h : x.Sound) (hcan : x.CanStep (.enters t)) :
    (x.step calls (.enters t)).Sound := by
  have hadmitted : t ∈ x.admitted := hcan
  have hfresh : t ∉ x.entries :=
    fun ht ↦ List.disjoint_of_nodup_append h.nodup_arrivals hadmitted ht
  have hperm : x.admitted.erase t ++ (x.entries ++ [t]) ~ x.admitted ++ x.entries :=
    calc x.admitted.erase t ++ (x.entries ++ [t])
        ~ x.admitted.erase t ++ (t :: x.entries) :=
          (List.perm_append_singleton t x.entries).append_left _
      _ ~ t :: x.admitted.erase t ++ x.entries := List.perm_middle
      _ ~ x.admitted ++ x.entries := (List.perm_cons_erase hadmitted).symm.append_right _
  constructor <;> simp only [step, move]
  · exact h.serves.enter hfresh
  · exact hperm.nodup_iff.mpr h.nodup_arrivals
  · exact fun u hu ↦ h.arrivals_asked u (hperm.mem_iff.mp hu)
  · exact h.nodup_active
  · exact fun u hu ↦ Guard.mem_running_enter (h.active_running u hu)
  · exact fun p hp ↦ (h.returned_over p hp).imp_right fun ho ↦
      ⟨ho.1, fun hmem ↦ ho.2 (hperm.mem_iff.mp hmem)⟩

theorem begins (h : x.Sound) (hcan : x.CanStep (.begins now t)) :
    (x.step calls (.begins now t)).Sound := by
  obtain ⟨hrun, hidle, hsilent⟩ := hcan
  constructor <;> simp only [step, move, List.cons_append]
  · exact h.serves
  · exact h.nodup_arrivals
  · exact h.arrivals_asked
  · refine List.nodup_cons.mpr ⟨fun ht ↦ ?_, h.nodup_active⟩
    exact (List.mem_append.mp ht).elim hidle hsilent
  · exact List.forall_mem_cons.mpr ⟨hrun, h.active_running⟩
  · exact h.returned_over

theorem answered (h : x.Sound) (hcan : x.CanStep (.answered now t r)) :
    (x.step calls (.answered now t r)).Sound := by
  have hperm : x.underWay.erase t ++ t :: x.answered.map Prod.fst ~
      x.underWay ++ x.answered.map Prod.fst :=
    calc x.underWay.erase t ++ t :: x.answered.map Prod.fst
        ~ t :: x.underWay.erase t ++ x.answered.map Prod.fst := List.perm_middle
      _ ~ x.underWay ++ x.answered.map Prod.fst :=
          (List.perm_cons_erase (show t ∈ x.underWay from hcan)).symm.append_right _
  constructor <;> simp only [step, move, List.map_cons, Guard.running_record]
  · exact h.serves.record
  · exact h.nodup_arrivals
  · exact h.arrivals_asked
  · exact hperm.nodup_iff.mpr h.nodup_active
  · exact fun u hu ↦ h.active_running u (hperm.mem_iff.mp hu)
  · exact h.returned_over

theorem leaves (h : x.Sound) (hcan : x.CanStep (.leaves t r)) :
    (x.step calls (.leaves t r)).Sound := by
  have hmem : (t, r) ∈ x.answered := hcan
  have hperm : x.underWay ++ x.answered.map Prod.fst ~
      t :: (x.underWay ++ (x.answered.erase (t, r)).map Prod.fst) :=
    ((List.perm_cons_erase hmem).map Prod.fst).append_left _ |>.trans List.perm_middle
  have hnodup := List.nodup_cons.mp (hperm.nodup_iff.mp h.nodup_active)
  have hrun : t ∈ x.guard.running :=
    h.active_running t (hperm.mem_iff.mpr List.mem_cons_self)
  constructor <;> simp only [step, move, leaveGuard]
  · exact h.serves.release hrun
  · exact h.nodup_arrivals
  · exact h.arrivals_asked
  · exact hnodup.2
  · intro u hu
    refine Guard.mem_running_release (h.active_running u ?_) fun heq ↦ hnodup.1 (heq ▸ hu)
    exact hperm.mem_iff.mpr (List.mem_cons_of_mem t hu)
  · exact List.forall_mem_cons.mpr ⟨.inl List.mem_cons_self, fun p hp ↦
      (h.returned_over p hp).imp_left (List.mem_cons_of_mem t)⟩

theorem givesUp (h : x.Sound) (hcan : x.CanStep (.givesUp t)) :
    (x.step calls (.givesUp t)).Sound := by
  -- A call that has a place hands it on, even if its operation has not begun; another leaves the line.
  by_cases hrun : t ∈ x.guard.running
  · have hsilent : t ∉ x.answered.map Prod.fst := by
      rcases hcan with hwait | ⟨-, hsilent⟩
      · exact absurd (h.serves.mem_placed.mpr (.inl hrun)) (h.serves.not_placed hwait)
      · exact hsilent
    have hsub : (x.underWay.erase t ++ x.answered.map Prod.fst).Sublist
        (x.underWay ++ x.answered.map Prod.fst) := List.erase_sublist.append_right _
    have hgone : t ∉ x.underWay.erase t ++ x.answered.map Prod.fst := fun ht ↦
      (List.mem_append.mp ht).elim
        (fun hu ↦ (h.nodup_active.of_append_left.mem_erase_iff.mp hu).1 rfl) hsilent
    constructor <;> simp only [step, move, if_pos hrun, leaveGuard, Guard.abandon_of_mem hrun]
    · exact h.serves.release hrun
    · exact h.nodup_arrivals
    · exact h.arrivals_asked
    · exact hsub.nodup h.nodup_active
    · intro u hu
      exact Guard.mem_running_release (h.active_running u (hsub.subset hu))
        fun heq ↦ hgone (heq ▸ hu)
    · exact fun p hp ↦ (h.returned_over p hp).imp_left (List.mem_cons_of_mem t)
  · have hwait : t ∈ x.guard.waiting := hcan.resolve_right fun hheld ↦ hrun hheld.1
    have hserves := h.serves.giveUp hrun hwait
    rw [Guard.abandon_of_not_mem hrun] at hserves
    constructor <;> simp only [step, move, if_neg hrun, leaveGuard, Guard.abandon_of_not_mem hrun]
    · simpa using hserves
    · exact h.nodup_arrivals
    · exact h.arrivals_asked
    · exact h.nodup_active
    · exact h.active_running
    · exact h.returned_over

theorem step (h : x.Sound) {p : Passage τ} (hcan : x.CanStep p) : (x.step calls p).Sound :=
  match p with
  | .asks _ _ => h.asks hcan
  | .enters _ => h.enters hcan
  | .begins _ _ => h.begins hcan
  | .answered _ _ _ => h.answered hcan
  | .leaves _ _ => h.leaves hcan
  | .givesUp _ => h.givesUp hcan

end Sound

theorem limit_step (p : Passage τ) : (x.step calls p).guard.limit = x.guard.limit := by
  cases p with
  | asks now t => simp only [step, move]; split <;> rfl
  | enters t => exact Guard.limit_enter
  | begins now t => rfl
  | answered now t r => exact Guard.limit_record
  | leaves t r => exact Guard.limit_release
  | givesUp t => simp only [step, move]; split <;> exact Guard.limit_abandon

theorem Reached.limit_eq (h : Reached calls g x) : x.guard.limit = g.limit := by
  induction h with
  | start => rfl
  | step _ _ ih => rw [limit_step, ih]

theorem Reached.sound (hg : g.Serves [] [] [] []) (h : Reached calls g x) : x.Sound := by
  induction h with
  | start => exact .start hg
  | step _ hcan ih => exact ih.step hcan

theorem Sound.mem_entries (h : x.Sound) (ht : t ∈ x.guard.running) : t ∈ x.entries :=
  (h.serves.mem_line.mp (.inl (h.serves.mem_placed.mpr (.inl ht)))).1

theorem Sound.not_active (h : x.Sound) (ht : t ∉ x.asked) :
    t ∉ x.underWay ++ x.answered.map Prod.fst := fun hmem ↦
  ht (h.arrivals_asked t (List.mem_append_right _ (h.mem_entries (h.active_running t hmem))))

theorem Sound.underWay_le (h : x.Sound) : x.underWay.length ≤ x.guard.limit := by
  have hsub : ∀ t ∈ x.underWay, t ∈ x.guard.running :=
    fun t ht ↦ h.active_running t (List.mem_append_left _ ht)
  calc x.underWay.length ≤ x.guard.running.length :=
        (List.subperm_of_subset h.nodup_active.of_append_left hsub).length_le
    _ ≤ x.guard.limit := h.serves.running_le

theorem Sound.not_held (h : x.Sound) (ht : t ∈ x.released ∨ t ∈ x.quit) :
    t ∉ x.guard.running ∧ t ∉ x.guard.waiting := by
  rcases ht with hreleased | hquit
  · exact ⟨fun hrun ↦ List.disjoint_of_nodup_append h.serves.nodup_held hrun hreleased,
      fun hwait ↦ h.serves.not_placed hwait (h.serves.mem_placed.mpr (.inr hreleased))⟩
  · exact ⟨fun hrun ↦ (h.serves.mem_line.mp (.inl (h.serves.mem_placed.mpr (.inl hrun)))).2 hquit,
      fun hwait ↦ (h.serves.mem_line.mp (.inr hwait)).2 hquit⟩

theorem Sound.not_held_of_returned (h : x.Sound) (hr : (t, r) ∈ x.returned) :
    t ∉ x.guard.running ∧ t ∉ x.guard.waiting := by
  rcases h.returned_over (t, r) hr with hreleased | ⟨-, hfresh⟩
  · exact h.not_held (.inl hreleased)
  · have hentered : t ∉ x.entries := fun hmem ↦ hfresh (List.mem_append_right _ hmem)
    exact ⟨fun hrun ↦ hentered (h.mem_entries hrun),
      fun hwait ↦ hentered (h.serves.mem_line.mp (.inr hwait)).1⟩

theorem asked_subset_step (p : Passage τ) : x.asked ⊆ (x.step calls p).asked := by
  cases p with
  | asks now t =>
    simp only [step, move]
    split <;> exact List.subset_cons_self ..
  | givesUp t =>
    simp only [step, move]
    split <;> exact List.Subset.refl _
  | _ => exact List.Subset.refl _

theorem released_subset_step (p : Passage τ) : x.released ⊆ (x.step calls p).released := by
  cases p with
  | asks now t =>
    simp only [step, move]
    split <;> exact List.Subset.refl _
  | leaves t r => exact List.subset_cons_self ..
  | givesUp t =>
    simp only [step, move]
    split
    · exact List.subset_cons_self ..
    · exact List.Subset.refl _
  | _ => exact List.Subset.refl _

theorem quit_subset_step (p : Passage τ) : x.quit ⊆ (x.step calls p).quit := by
  cases p with
  | asks now t =>
    simp only [step, move]
    split <;> exact List.Subset.refl _
  | givesUp t =>
    simp only [step, move]
    split
    · exact List.Subset.refl _
    · exact List.subset_cons_self ..
  | _ => exact List.Subset.refl _

theorem Reached.given_up (h : Reached calls g x) (ht : .givesUp t ∈ x.past) :
    t ∈ x.released ∨ t ∈ x.quit := by
  induction h with
  | start => exact absurd ht List.not_mem_nil
  | @step x p _ _ ih =>
    rcases List.mem_cons.mp ht with rfl | ht
    · simp only [Traffic.step, move]
      split
      · exact .inl List.mem_cons_self
      · exact .inr List.mem_cons_self
    · exact (ih ht).imp (fun hr ↦ released_subset_step p hr) fun hq ↦ quit_subset_step p hq

theorem Reached.asked_of_begun (hg : g.Serves [] [] [] []) (h : Reached calls g x)
    (ht : .begins now t ∈ x.past) : t ∈ x.asked := by
  induction h with
  | start => exact absurd ht List.not_mem_nil
  | @step x p hreached hcan ih =>
    refine asked_subset_step p ?_
    rcases List.mem_cons.mp ht with rfl | ht
    · have hsound := hreached.sound hg
      exact hsound.arrivals_asked t (List.mem_append_right _ (hsound.mem_entries hcan.1))
    · exact ih ht

/-- What holds of the calls at a guard that lets `maxInFlight` operations be under way. -/
structure WithinLimit (maxInFlight : Nat) (x : Traffic τ) : Prop where
  nodup_underWay : x.underWay.Nodup
  underWay_le : x.underWay.length ≤ max maxInFlight 1
  /-- Calls wait only while all places are taken. -/
  full : x.guard.waiting ≠ [] → x.guard.running.length = max maxInFlight 1
  /-- The operation of a call that has a place is under way, or the call has only to take its next
  step, for which it waits for nobody. -/
  busy : ∀ t ∈ x.guard.running, t ∈ x.underWay ∨ (∀ now, x.CanStep (.begins now t)) ∨
    ∃ r, x.CanStep (.leaves t r)
  /-- When no such step is due, calls wait only while exactly so many operations are under way. -/
  exactly : x.guard.waiting ≠ [] → (∀ t ∈ x.guard.running, t ∈ x.underWay) →
    x.underWay.length = max maxInFlight 1
  nodup_entries : x.entries.Nodup
  /-- Places are given in the order of entry, and nobody is passed over who has not given up. -/
  in_order : x.placed ++ x.guard.waiting = x.entries.filter (· ∉ x.quit)
  /-- Each place that was given is held by its call or was given back. -/
  conserved : x.placed.Perm (x.guard.running ++ x.released)
  ended : ∀ t, (∃ r, (t, r) ∈ x.returned) ∨ .givesUp t ∈ x.past →
    t ∉ x.guard.running ∧ t ∉ x.guard.waiting

/-- Whatever calls do, and in whatever order, the guard keeps its limit and loses no place. -/
theorem Reached.withinLimit {maxInFlight : Nat} {threshold : UInt32} {cooldown : Span}
    (h : Reached calls (.new maxInFlight threshold cooldown) x) : x.WithinLimit maxInFlight := by
  have hsound := h.sound (.new maxInFlight threshold cooldown)
  have hlimit : x.guard.limit = max maxInFlight 1 := h.limit_eq
  have hnodup := hsound.nodup_active.of_append_left
  have hsub : ∀ t ∈ x.underWay, t ∈ x.guard.running :=
    fun t ht ↦ hsound.active_running t (List.mem_append_left _ ht)
  refine ⟨hnodup, hlimit ▸ hsound.underWay_le, hlimit ▸ hsound.serves.full, ?_, ?_,
    hsound.serves.nodup_entries, hsound.serves.in_order, hsound.serves.conserved,
    fun t ht ↦ ht.elim (fun ⟨_, hr⟩ ↦ hsound.not_held_of_returned hr)
      fun hquit ↦ hsound.not_held (h.given_up hquit)⟩
  · intro t hrun
    by_cases hunder : t ∈ x.underWay
    · exact .inl hunder
    · by_cases hsilent : t ∈ x.answered.map Prod.fst
      · obtain ⟨⟨u, r⟩, hr, rfl⟩ := List.mem_map.mp hsilent
        exact .inr (.inr ⟨r, hr⟩)
      · exact .inr (.inl fun _ ↦ ⟨hrun, hunder, hsilent⟩)
  · -- All places are taken, and each by an operation that is under way.
    intro hwait hall
    have hperm : x.underWay.Perm x.guard.running :=
      (List.perm_ext_iff_of_nodup hnodup hsound.serves.nodup_running).mpr
        fun t ↦ ⟨hsub t, hall t⟩
    rw [hperm.length_eq, hsound.serves.full hwait, hlimit]

/-- Four calls at a guard with one place, of which the second gives up in line. -/
def queue : List (Passage Nat) :=
  [.asks 0 0, .enters 0, .begins 0 0, .asks 1 1, .asks 1 2, .enters 1, .enters 2, .asks 2 3,
    .enters 3, .givesUp 1, .answered 5 0 (.error (.timeout "oss02" (.ofSeconds 5))),
    .leaves 0 (.error (.timeout "oss02" (.ofSeconds 5))), .begins 5 2]

theorem withinLimit_queue :
    CanFollow (toHost "oss02") { guard := .new 0 3 (.ofSeconds 60) } queue ∧
    (follow (toHost "oss02") { guard := .new 0 3 (.ofSeconds 60) } queue).guard.waiting = [3] ∧
    (follow (toHost "oss02") { guard := .new 0 3 (.ofSeconds 60) } queue).WithinLimit 0 :=
  have hcan : CanFollow (toHost "oss02") { guard := .new 0 3 (.ofSeconds 60) } queue := by decide
  ⟨hcan, by decide, Reached.withinLimit (Reached.start.follow hcan)⟩

end Traffic

end Rollout
