import Mathlib.Data.Fintype.EquivFin
import Mathlib.Logic.Function.Basic
import Mathlib.Logic.Relation
import Rollout.Proofs.Remote.Capacity

namespace Rollout

open scoped List

namespace Guard

variable {τ τ' : Type} {g : Guard τ} {f : τ → τ'} {now : UInt64} {host : String} {r : Reply} {t : τ}

def rename (f : τ → τ') (g : Guard τ) : Guard τ' where
  limit := g.limit
  threshold := g.threshold
  cooldown := g.cooldown
  breakers := g.breakers
  running := g.running.map f
  waiting := g.waiting.map f

theorem enter_rename : (g.rename f).enter (f t) = ((g.enter t).1.rename f, (g.enter t).2) := by
  simp only [enter, rename, List.length_map]
  split <;> simp

theorem record_rename : (g.rename f).record now host r = (g.record now host r).rename f := by
  cases r with
  | ok _ => rfl
  | error fault =>
    simp only [record]
    split <;> rfl

def inside (g : Guard τ) : List τ := g.running ++ g.waiting

theorem inside_rename : (g.rename f).inside = g.inside.map f := List.map_append.symm

theorem inside_record : (g.record now host r).inside = g.inside := by
  rw [inside, running_record, waiting_record, inside]

theorem inside_enter : (g.enter t).1.inside ~ t :: g.inside := by
  rw [inside, inside]
  rcases Nat.lt_or_ge g.running.length g.limit with hfree | hfull
  · rw [enter_of_lt hfree, List.append_assoc]
    exact List.perm_middle
  · rw [enter_of_le hfull, ← List.append_assoc]
    exact List.perm_append_singleton t _

variable [DecidableEq τ] [DecidableEq τ']

theorem inside_release (ht : t ∈ g.running) : t :: (g.release t).1.inside ~ g.inside := by
  have hperm := (List.perm_cons_erase ht).symm
  rw [inside, inside]
  cases hwait : g.waiting with
  | nil =>
    rw [release_of_nil hwait, hwait]
    exact hperm.append_right []
  | cons u us =>
    rw [release_of_cons hwait, List.append_assoc]
    exact hperm.append_right (u :: us)

theorem inside_abandon (ht : t ∈ g.inside) : t :: (g.abandon t).1.inside ~ g.inside := by
  by_cases hrun : t ∈ g.running
  · rw [abandon_of_mem hrun]
    exact inside_release hrun
  · have hwait : t ∈ g.waiting := (List.mem_append.mp ht).resolve_left hrun
    rw [abandon_of_not_mem hrun]
    exact List.perm_middle.symm.trans ((List.perm_cons_erase hwait).symm.append_left g.running)

theorem erase_map_of_nodup {l : List τ} (h : (l.map f).Nodup) (ht : t ∈ l) :
    (l.map f).erase (f t) = (l.erase t).map f := by
  rw [h.erase_eq_filter, h.of_map.erase_eq_filter, List.filter_map]
  refine congrArg (List.map f) (List.filter_congr fun u hu ↦ ?_)
  have hiff : f u = f t ↔ u = t := ⟨List.inj_on_of_nodup_map h hu ht, congrArg f⟩
  simp [bne, Bool.beq_eq_decide_eq, hiff]

theorem release_rename (h : (g.running.map f).Nodup) (ht : t ∈ g.running) :
    ((g.rename f).release (f t)).1 = (g.release t).1.rename f := by
  have herase := erase_map_of_nodup h ht
  cases hwait : g.waiting with
  | nil =>
    have hnone : (g.rename f).waiting = [] := by rw [rename, hwait, List.map_nil]
    rw [release_of_nil hnone, release_of_nil hwait]
    simp only [rename, herase]
  | cons u us =>
    have hsome : (g.rename f).waiting = f u :: us.map f := by rw [rename, hwait, List.map_cons]
    rw [release_of_cons hsome, release_of_cons hwait]
    simp only [rename, herase, List.map_append, List.map_singleton]

theorem abandon_rename (h : (g.inside.map f).Nodup) (ht : t ∈ g.inside) :
    ((g.rename f).abandon (f t)).1 = (g.abandon t).1.rename f := by
  rw [inside, List.map_append] at h
  by_cases hrun : t ∈ g.running
  · have hmem : f t ∈ (g.rename f).running := List.mem_map_of_mem hrun
    rw [abandon_of_mem hmem, abandon_of_mem hrun]
    exact release_rename h.of_append_left hrun
  · have hwait : t ∈ g.waiting := (List.mem_append.mp ht).resolve_left hrun
    have hnot : f t ∉ (g.rename f).running := fun hmem ↦
      List.disjoint_of_nodup_append h hmem (List.mem_map_of_mem hwait)
    rw [abandon_of_not_mem hnot, abandon_of_not_mem hrun]
    simp only [rename, erase_map_of_nodup h.of_append_right hwait]

end Guard

/-- A guard, and the call with which an activity is there, if it is there, and whether its operation
is under way. -/
structure Desk (τ : Type) where
  guard : Guard τ
  calling : τ → Option (Call × Bool)

/-- A call of an activity. Numbers tell the calls of one activity apart. -/
structure Ticket (τ : Type) where
  activity : τ
  number : Nat
  call : Call
  deriving DecidableEq

theorem Ticket.exists_fresh {τ : Type} (x : Traffic (Ticket τ)) (t : τ) (c : Call) :
    ∃ k : Ticket τ, k.activity = t ∧ k.call = c ∧ k ∉ x.asked := by
  obtain ⟨n, hn⟩ := Infinite.exists_notMem_finset (x.asked.map Ticket.number).toFinset
  refine ⟨⟨t, n, c⟩, rfl, rfl, fun hmem ↦ hn ?_⟩
  exact List.mem_toFinset.mpr (List.mem_map_of_mem hmem)

namespace Desk

variable {τ : Type} [DecidableEq τ] {d d' : Desk τ} {g : Guard (Ticket τ)}
  {x x' : Traffic (Ticket τ)} {now : UInt64} {t u : τ} {c : Call} {p q : Option (Call × Bool)}

def put (d : Desk τ) (g : Guard τ) (t : τ) (p : Option (Call × Bool)) : Desk τ where
  guard := g
  calling := Function.update d.calling t p

theorem calling_put_self {g : Guard τ} : (d.put g t p).calling t = p := Function.update_self ..

theorem calling_put_of_ne {g : Guard τ} (h : u ≠ t) : (d.put g t p).calling u = d.calling u :=
  Function.update_of_ne h ..

theorem put_put {g g' : Guard τ} : (d.put g t p).put g' t q = d.put g' t q := by
  simp only [put, Function.update_idem]

theorem put_eq_self (h : d.calling t = p) : d.put d.guard t p = d := by
  rw [put, ← h, Function.update_eq_self]

inductive Step : Desk τ → Desk τ → Prop
  | refused {d : Desk τ} {now : UInt64} {t : τ} {c : Call} {fault : Fault} :
      d.calling t = none → d.guard.refusal? now c.host = some fault → Step d d
  | arrives {d : Desk τ} {now : UInt64} {t : τ} {c : Call} :
      d.calling t = none → d.guard.refusal? now c.host = none →
      Step d (d.put (d.guard.enter t).1 t (some (c, false)))
  | begins {d : Desk τ} {t : τ} {c : Call} :
      d.calling t = some (c, false) → t ∈ d.guard.running →
      Step d (d.put d.guard t (some (c, true)))
  | ends {d : Desk τ} {t : τ} {c : Call} (now : UInt64) (r : Reply) :
      d.calling t = some (c, true) →
      Step d (d.put (d.guard.finish now t c.host r).1 t none)
  | givesUp {d : Desk τ} (t : τ) : Step d (d.put (d.guard.abandon t).1 t none)

/-- The calls at a guard, by their names, are the ones with which activities are there. -/
structure Mirrors (d : Desk τ) (x : Traffic (Ticket τ)) : Prop where
  guard : d.guard = x.guard.rename Ticket.activity
  admitted : x.admitted = []
  answered : x.answered = []
  single : (x.guard.inside.map Ticket.activity).Nodup
  calling : ∀ k ∈ x.guard.inside, d.calling k.activity = some (k.call, decide (k ∈ x.underWay))
  present : ∀ t, d.calling t ≠ none → ∃ k ∈ x.guard.inside, k.activity = t

namespace Mirrors

theorem refusal?_eq (h : d.Mirrors x) : d.guard.refusal? now c.host =
    x.guard.refusal? now c.host := by
  rw [h.guard]
  rfl

theorem exists_inside (h : d.Mirrors x) {u : Bool} (ht : d.calling t = some (c, u)) :
    ∃ k ∈ x.guard.inside, k.activity = t ∧ k.call = c ∧ decide (k ∈ x.underWay) = u := by
  obtain ⟨k, hk, rfl⟩ := h.present t (by rw [ht]; exact Option.some_ne_none _)
  have hcalling := (h.calling k hk).symm.trans ht
  rw [Option.some_inj, Prod.mk.injEq] at hcalling
  exact ⟨k, hk, rfl, hcalling⟩

theorem enter (h : d.Mirrors x) {k : Ticket τ} (hfree : d.calling k.activity = none)
    (hidle : k ∉ x.underWay) (hguard : x'.guard = (x.guard.enter k).1) (hadmitted : x'.admitted = [])
    (hanswered : x'.answered = []) (hunder : x'.underWay = x.underWay) :
    (d.put (d.guard.enter k.activity).1 k.activity (some (k.call, false))).Mirrors x' := by
  have hperm : x'.guard.inside ~ k :: x.guard.inside := hguard ▸ Guard.inside_enter
  have hnew : ∀ j ∈ x.guard.inside, j.activity ≠ k.activity := by
    intro j hj heq
    have hcalling := h.calling j hj
    rw [heq, hfree] at hcalling
    cases hcalling
  refine ⟨?_, hadmitted, hanswered, ?_, fun j hj ↦ ?_, fun t ht ↦ ?_⟩
  · show (d.guard.enter k.activity).1 = _
    rw [h.guard, Guard.enter_rename, hguard]
  · rw [(hperm.map _).nodup_iff, List.map_cons, List.nodup_cons]
    refine ⟨fun hmem ↦ ?_, h.single⟩
    obtain ⟨j, hj, heq⟩ := List.mem_map.mp hmem
    exact hnew j hj heq
  · rcases List.mem_cons.mp (hperm.mem_iff.mp hj) with rfl | hj
    · rw [calling_put_self, hunder, decide_eq_false hidle]
    · rw [calling_put_of_ne (hnew j hj), hunder]
      exact h.calling j hj
  · by_cases heq : t = k.activity
    · exact ⟨k, hperm.mem_iff.mpr List.mem_cons_self, heq.symm⟩
    · obtain ⟨j, hj, rfl⟩ := h.present t (by rwa [calling_put_of_ne heq] at ht)
      exact ⟨j, hperm.mem_iff.mpr (List.mem_cons_of_mem k hj), rfl⟩

theorem leave (h : d.Mirrors x) {k : Ticket τ} {g : Guard τ}
    (hguard : g = x'.guard.rename Ticket.activity) (hperm : k :: x'.guard.inside ~ x.guard.inside)
    (hadmitted : x'.admitted = []) (hanswered : x'.answered = [])
    (hunder : ∀ j, j ≠ k → (j ∈ x'.underWay ↔ j ∈ x.underWay)) :
    (d.put g k.activity none).Mirrors x' := by
  have hsingle := (hperm.map Ticket.activity).nodup_iff.mpr h.single
  rw [List.map_cons, List.nodup_cons] at hsingle
  have hother : ∀ j ∈ x'.guard.inside, j.activity ≠ k.activity :=
    fun j hj heq ↦ hsingle.1 (heq ▸ List.mem_map_of_mem hj)
  refine ⟨hguard, hadmitted, hanswered, hsingle.2, fun j hj ↦ ?_, fun t ht ↦ ?_⟩
  · rw [calling_put_of_ne (hother j hj),
      h.calling j (hperm.mem_iff.mp (List.mem_cons_of_mem k hj))]
    have hne : j ≠ k := fun heq ↦ hother j hj (congrArg Ticket.activity heq)
    simp only [hunder j hne]
  · by_cases heq : t = k.activity
    · rw [heq, calling_put_self] at ht
      exact absurd rfl ht
    · obtain ⟨j, hj, rfl⟩ := h.present t (by rwa [calling_put_of_ne heq] at ht)
      rcases List.mem_cons.mp (hperm.mem_iff.mpr hj) with rfl | hj
      · exact absurd rfl heq
      · exact ⟨j, hj, rfl⟩

theorem refuse (hx : Traffic.Reached Ticket.call g x) (h : d.Mirrors x) {fault : Fault}
    (hfault : d.guard.refusal? now c.host = some fault) (t : τ) :
    ∃ x', Traffic.Reached Ticket.call g x' ∧ d.Mirrors x' := by
  obtain ⟨k, rfl, rfl, hfresh⟩ := Ticket.exists_fresh x t c
  rw [h.refusal?_eq] at hfault
  refine ⟨_, hx.step (p := .asks now k) hfresh, ?_⟩
  simp only [Traffic.step, Traffic.move, hfault]
  exact ⟨h.guard, h.admitted, h.answered, h.single, h.calling, h.present⟩

theorem arrive (hg : g.Serves [] [] [] []) (hx : Traffic.Reached Ticket.call g x)
    (h : d.Mirrors x) (hfree : d.calling t = none) (hnone : d.guard.refusal? now c.host = none) :
    ∃ x', Traffic.Reached Ticket.call g x' ∧
      (d.put (d.guard.enter t).1 t (some (c, false))).Mirrors x' := by
  obtain ⟨k, rfl, rfl, hfresh⟩ := Ticket.exists_fresh x t c
  rw [h.refusal?_eq] at hnone
  have hidle := (hx.sound hg).not_active hfresh
  rw [List.mem_append, not_or] at hidle
  have hcan : x.CanFollow Ticket.call [.asks now k, .enters k] := by
    refine ⟨hfresh, ?_, trivial⟩
    simp [Traffic.CanStep, Traffic.step, Traffic.move, hnone]
  refine ⟨_, hx.follow hcan, h.enter hfree hidle.1 ?_ ?_ ?_ ?_⟩ <;>
    simp [Traffic.follow, Traffic.step, Traffic.move, hnone, h.admitted, h.answered]

theorem begin (hx : Traffic.Reached Ticket.call g x) (h : d.Mirrors x)
    (ht : d.calling t = some (c, false)) (hrun : t ∈ d.guard.running) :
    ∃ x', Traffic.Reached Ticket.call g x' ∧ (d.put d.guard t (some (c, true))).Mirrors x' := by
  rw [h.guard] at hrun
  obtain ⟨k, hk, rfl⟩ := List.mem_map.mp hrun
  have hinside : k ∈ x.guard.inside := List.mem_append_left _ hk
  have hcalling := (h.calling k hinside).symm.trans ht
  rw [Option.some_inj, Prod.mk.injEq, decide_eq_false_iff_not] at hcalling
  obtain ⟨rfl, hidle⟩ := hcalling
  -- No reading of the clock is taken when an operation begins, so any will do.
  have hcan : x.CanStep (.begins 0 k) := ⟨hk, hidle, by rw [h.answered]; exact List.not_mem_nil⟩
  refine ⟨_, hx.step hcan, h.guard, h.admitted, h.answered, h.single, fun j hj ↦ ?_, fun t ht ↦ ?_⟩
  · by_cases heq : j = k
    · subst heq
      rw [calling_put_self]
      exact congrArg (fun b ↦ some (j.call, b)) (decide_eq_true List.mem_cons_self).symm
    · have hne : j.activity ≠ k.activity := fun hact ↦
        heq (List.inj_on_of_nodup_map h.single hj hinside hact)
      rw [calling_put_of_ne hne, h.calling j hj]
      simp [Traffic.step, Traffic.move, heq]
  · by_cases heq : t = k.activity
    · exact ⟨k, hinside, heq.symm⟩
    · exact h.present t (by rwa [calling_put_of_ne heq] at ht)

theorem finish (hg : g.Serves [] [] [] []) (hx : Traffic.Reached Ticket.call g x)
    (h : d.Mirrors x) (ht : d.calling t = some (c, true)) (now : UInt64) (r : Reply) :
    ∃ x', Traffic.Reached Ticket.call g x' ∧
      (d.put (d.guard.finish now t c.host r).1 t none).Mirrors x' := by
  obtain ⟨k, hinside, rfl, rfl, hunder⟩ := h.exists_inside ht
  rw [decide_eq_true_eq] at hunder
  have hrun : k ∈ (x.guard.record now k.call.host r).running := by
    rw [Guard.running_record]
    exact (hx.sound hg).active_running k (List.mem_append_left _ hunder)
  have hcan : x.CanFollow Ticket.call [.answered now k r, .leaves k r] :=
    ⟨hunder, List.mem_cons_self, trivial⟩
  refine ⟨_, hx.follow hcan, h.leave ?_ ?_ h.admitted ?_ fun j hj ↦ ?_⟩
  · have hsingle : ((x.guard.record now k.call.host r).running.map Ticket.activity).Nodup := by
      have := h.single
      rw [Guard.inside, List.map_append] at this
      rw [Guard.running_record]
      exact this.of_append_left
    rw [Guard.finish, h.guard, Guard.record_rename, Guard.release_rename hsingle hrun]
    rfl
  · exact (Guard.inside_release hrun).trans (by rw [Guard.inside_record])
  · simp [Traffic.follow, Traffic.step, Traffic.move, h.answered]
  · exact List.mem_erase_of_ne hj

theorem abandon_of_none (h : d.Mirrors x) (ht : d.calling t = none) :
    d.put (d.guard.abandon t).1 t none = d := by
  have hnot : t ∉ d.guard.inside := by
    rw [h.guard, Guard.inside_rename]
    intro hmem
    obtain ⟨k, hk, rfl⟩ := List.mem_map.mp hmem
    rw [h.calling k hk] at ht
    cases ht
  rw [Guard.inside, List.mem_append, not_or] at hnot
  rw [Guard.abandon_of_not_mem hnot.1, List.erase_of_not_mem hnot.2]
  exact put_eq_self ht

theorem giveUp (hx : Traffic.Reached Ticket.call g x) (h : d.Mirrors x) {u : Bool}
    (ht : d.calling t = some (c, u)) :
    ∃ x', Traffic.Reached Ticket.call g x' ∧ (d.put (d.guard.abandon t).1 t none).Mirrors x' := by
  obtain ⟨k, hinside, rfl, rfl, -⟩ := h.exists_inside ht
  have hsilent : k ∉ x.answered.map Prod.fst := by
    rw [h.answered]
    exact List.not_mem_nil
  have hcan : x.CanStep (.givesUp k) :=
    (List.mem_append.mp hinside).elim (fun hrun ↦ .inr ⟨hrun, hsilent⟩) .inl
  have hguard : (d.guard.abandon k.activity).1 = (x.guard.abandon k).1.rename Ticket.activity := by
    rw [h.guard, Guard.abandon_rename h.single hinside]
  have hperm := Guard.inside_abandon hinside
  refine ⟨_, hx.step hcan, ?_⟩
  by_cases hrun : k ∈ x.guard.running
  · simp only [Traffic.step, Traffic.move, if_pos hrun]
    exact h.leave hguard hperm h.admitted h.answered fun j hj ↦ List.mem_erase_of_ne hj
  · simp only [Traffic.step, Traffic.move, if_neg hrun]
    exact h.leave hguard hperm h.admitted h.answered fun j _ ↦ Iff.rfl

theorem step (hg : g.Serves [] [] [] []) (hx : Traffic.Reached Ticket.call g x) (h : d.Mirrors x)
    (hstep : d.Step d') : ∃ x', Traffic.Reached Ticket.call g x' ∧ d'.Mirrors x' := by
  cases hstep with
  | @refused _ t c fault _ hfault => exact h.refuse hx hfault t
  | arrives hfree hnone => exact h.arrive hg hx hfree hnone
  | begins ht hrun => exact h.begin hx ht hrun
  | ends now r ht => exact h.finish hg hx ht now r
  | givesUp t =>
    -- Activities that are not at the guard are called off too, which says nothing to the guard.
    cases ht : d.calling t with
    | none => exact ⟨x, hx, (h.abandon_of_none ht).symm ▸ h⟩
    | some p => exact h.giveUp hx ht

theorem steps (hg : g.Serves [] [] [] []) (hx : Traffic.Reached Ticket.call g x) (h : d.Mirrors x)
    (hsteps : Relation.ReflTransGen Step d d') :
    ∃ x', Traffic.Reached Ticket.call g x' ∧ d'.Mirrors x' := by
  induction hsteps with
  | refl => exact ⟨x, hx, h⟩
  | tail _ hstep ih =>
    obtain ⟨x', hx', h'⟩ := ih
    exact h'.step hg hx' hstep

end Mirrors

end Desk

end Rollout
