import Rollout.Proofs.Remote.Capacity

namespace Rollout

theorem Guard.isConnect_of_refusal {τ : Type} {g : Guard τ} {now : UInt64} {host : String}
    {fault : Fault} (h : g.refusal? now host = some fault) : fault.isConnect = true := by
  simp only [refusal?] at h
  split at h
  · cases h
  · cases h
    rfl

namespace Traffic

variable {τ : Type} [DecidableEq τ] {calls : τ → Call} {g : Guard τ} {x : Traffic τ} {now : UInt64}
  {t : τ} {r : Reply}

theorem mem_asked_step {p : Passage τ} (ht : t ∈ (x.step calls p).asked) :
    t ∈ x.asked ∨ ∃ now, p = .asks now t := by
  cases p with
  | asks now u =>
    simp only [step, move] at ht
    split at ht <;> exact (List.mem_cons.mp ht).elim (fun heq ↦ .inr ⟨now, heq ▸ rfl⟩) .inl
  | givesUp u =>
    simp only [step, move] at ht
    split at ht <;> exact .inl ht
  | _ => exact .inl ht

/-- The operation of a call began, and this is what it came to. -/
structure Performed (x : Traffic τ) (t : τ) (r : Reply) : Prop where
  begun : ∃ now, .begins now t ∈ x.past
  answered : ∃ now, .answered now t r ∈ x.past

theorem Performed.step (h : x.Performed t r) (p : Passage τ) : (x.step calls p).Performed t r where
  begun := h.begun.imp fun _ ↦ List.mem_cons_of_mem p
  answered := h.answered.imp fun _ ↦ List.mem_cons_of_mem p

theorem Reached.begun_of_underWay (h : Reached calls g x) (ht : t ∈ x.underWay) :
    ∃ now, .begins now t ∈ x.past := by
  induction h with
  | start => exact absurd ht List.not_mem_nil
  | @step x p _ _ ih =>
    suffices t ∈ x.underWay ∨ ∃ now, p = .begins now t by
      rcases this with hold | ⟨now, rfl⟩
      · exact (ih hold).imp fun _ ↦ List.mem_cons_of_mem p
      · exact ⟨now, List.mem_cons_self⟩
    cases p with
    | begins now u =>
      rcases List.mem_cons.mp ht with rfl | ht
      · exact .inr ⟨now, rfl⟩
      · exact .inl ht
    | asks now u =>
      simp only [Traffic.step, move] at ht
      split at ht <;> exact .inl ht
    | answered now u r => exact .inl (List.mem_of_mem_erase ht)
    | givesUp u =>
      simp only [Traffic.step, move] at ht
      split at ht
      · exact .inl (List.mem_of_mem_erase ht)
      · exact .inl ht
    | _ => exact .inl ht

theorem Reached.performed_of_answered (h : Reached calls g x) (hr : (t, r) ∈ x.answered) :
    x.Performed t r := by
  induction h with
  | start => exact absurd hr List.not_mem_nil
  | @step x p hreached hcan ih =>
    suffices (t, r) ∈ x.answered ∨ ∃ now, p = .answered now t r by
      rcases this with hold | ⟨now, rfl⟩
      · exact (ih hold).step p
      · have hbegun := hreached.begun_of_underWay hcan
        exact ⟨hbegun.imp fun _ ↦ List.mem_cons_of_mem _, now, List.mem_cons_self⟩
    cases p with
    | answered now u r' =>
      rcases List.mem_cons.mp hr with heq | hr
      · obtain ⟨rfl, rfl⟩ := Prod.mk.inj heq
        exact .inr ⟨now, rfl⟩
      · exact .inl hr
    | asks now u =>
      simp only [Traffic.step, move] at hr
      split at hr <;> exact .inl hr
    | leaves u r' => exact .inl (List.mem_of_mem_erase hr)
    | givesUp u =>
      simp only [Traffic.step, move] at hr
      split at hr <;> exact .inl hr
    | _ => exact .inl hr

/-- What a call returns is a failure to connect, or what its operation came to. -/
theorem Reached.performed_of_returned (h : Reached calls g x) (hr : (t, r) ∈ x.returned) :
    (∃ fault, r = .error fault ∧ fault.isConnect = true) ∨ x.Performed t r := by
  induction h with
  | start => exact absurd hr List.not_mem_nil
  | @step x p hreached hcan ih =>
    have hold : (t, r) ∈ x.returned → (∃ fault, r = .error fault ∧ fault.isConnect = true) ∨
        (x.step calls p).Performed t r := fun hmem ↦ (ih hmem).imp_right fun hp ↦ hp.step p
    cases p with
    | asks now u =>
      cases hfault : x.guard.refusal? now (calls u).host with
      | none =>
        simp only [Traffic.step, move, hfault] at hr
        exact hold hr
      | some fault =>
        simp only [Traffic.step, move, hfault] at hr
        rcases List.mem_cons.mp hr with heq | hr
        · obtain ⟨-, rfl⟩ := Prod.mk.inj heq
          exact .inl ⟨fault, rfl, Guard.isConnect_of_refusal hfault⟩
        · exact hold hr
    | leaves u r' =>
      rcases List.mem_cons.mp hr with heq | hr
      · obtain ⟨rfl, rfl⟩ := Prod.mk.inj heq
        exact .inr ((hreached.performed_of_answered hcan).step _)
      · exact hold hr
    | givesUp u =>
      simp only [Traffic.step, move] at hr
      split at hr <;> exact hold hr
    | _ => exact hold hr

theorem placed_subset_step (p : Passage τ) : x.placed ⊆ (x.step calls p).placed := by
  cases p with
  | asks now t =>
    simp only [step, move]
    split <;> exact List.Subset.refl _
  | enters t =>
    simp only [step, move]
    split
    · exact List.subset_append_left ..
    · exact List.Subset.refl _
  | leaves t r => exact List.subset_append_left ..
  | givesUp t =>
    simp only [step, move]
    split <;> exact List.subset_append_left ..
  | _ => exact List.Subset.refl _

theorem Reached.placed_of_begun (hg : g.Serves [] [] [] []) (h : Reached calls g x)
    (ht : .begins now t ∈ x.past) : t ∈ x.placed := by
  induction h with
  | start => exact absurd ht List.not_mem_nil
  | @step x p hreached hcan ih =>
    refine placed_subset_step p ?_
    rcases List.mem_cons.mp ht with rfl | ht
    · exact (hreached.sound hg).serves.mem_placed.mpr (.inl hcan.1)
    · exact ih ht

theorem Reached.not_begun_of_waiting (hg : g.Serves [] [] [] []) (h : Reached calls g x)
    (ht : t ∈ x.guard.waiting) : .begins now t ∉ x.past := fun hbegun ↦
  (h.sound hg).serves.not_placed ht (h.placed_of_begun hg hbegun)

end Traffic

end Rollout
