import Rollout.Proofs.Remote.Breakers
import Rollout.Proofs.Remote.Capacity

namespace Rollout

namespace Traffic

variable {τ : Type} [DecidableEq τ] {calls : τ → Call} {g : Guard τ} {x : Traffic τ} {now : UInt64}
  {t : τ} {r : Reply} {host : String}

theorem mem_arrivals_step {p : Passage τ} (hcan : x.CanStep p)
    (ht : t ∈ (x.step calls p).admitted ++ (x.step calls p).entries) :
    t ∈ x.admitted ++ x.entries ∨
      ∃ now, p = .asks now t ∧ x.guard.refusal? now (calls t).host = none := by
  cases p with
  | asks now u =>
    cases h : x.guard.refusal? now (calls u).host with
    | some fault =>
      simp only [step, move, h] at ht
      exact .inl ht
    | none =>
      simp only [step, move, h, List.cons_append, List.mem_cons] at ht
      rcases ht with rfl | ht
      · exact .inr ⟨now, rfl, h⟩
      · exact .inl ht
  | enters u =>
    simp only [step, move, List.mem_append, List.mem_singleton] at ht
    rw [List.mem_append]
    rcases ht with ht | ht | rfl
    · exact .inl (.inl (List.mem_of_mem_erase ht))
    · exact .inl (.inr ht)
    · exact .inl (.inl hcan)
  | givesUp u =>
    simp only [step, move] at ht
    split at ht <;> exact .inl ht
  | _ => exact .inl ht

def LetThrough (calls : τ → Call) (x : Traffic τ) (t : τ) : Prop :=
  ∃ newer asked older, x.past = newer ++ .asks asked t :: older ∧
    ((∃ failed, some failed ∈ newer.filterMap (Passage.news? calls (calls t).host)) ∨
      ∀ now, asked ≤ now → (x.guard.breaker (calls t).host).state now ≠ .opened)

theorem LetThrough.asks (h : x.guard.refusal? now (calls t).host = none) :
    (x.step calls (.asks now t)).LetThrough calls t := by
  refine ⟨[], now, x.past, rfl, .inr fun later hle ↦ ?_⟩
  rw [breaker_step_of_silent rfl]
  exact Breaker.not_opened_of_le (Guard.refusal?_eq_none_iff.mp h) hle

theorem LetThrough.step (h : x.LetThrough calls t)
    (hpos : 0 < (x.guard.breaker (calls t).host).threshold) (p : Passage τ) :
    (x.step calls p).LetThrough calls t := by
  obtain ⟨newer, asked, older, hpast, hsince⟩ := h
  refine ⟨p :: newer, asked, older, congrArg (p :: ·) hpast, ?_⟩
  rw [List.filterMap_cons, breaker_step]
  -- Silence leaves the breaker as it is, a success closes it, and a failure is what is looked for.
  cases p.news? calls (calls t).host with
  | none => exact hsince
  | some m =>
    cases m with
    | none =>
      rcases hsince with ⟨failed, hmem⟩ | -
      · exact .inl ⟨failed, List.mem_cons_of_mem _ hmem⟩
      · refine .inr fun now _ ↦ ?_
        rw [Option.elim_some, Breaker.hear, Breaker.state_recordSuccess hpos]
        decide
    | some failed => exact .inl ⟨failed, List.mem_cons_self⟩

theorem Reached.letThrough {maxInFlight : Nat} {threshold : UInt32} {cooldown : Span}
    (h : Reached calls (.new maxInFlight threshold cooldown) x) :
    ∀ t ∈ x.admitted ++ x.entries, x.LetThrough calls t := by
  induction h with
  | start => exact fun t ht ↦ absurd ht List.not_mem_nil
  | step hreached hcan ih =>
    intro t ht
    rcases mem_arrivals_step hcan ht with ht | ⟨now, rfl, hnone⟩
    · exact (ih t ht).step (hreached.threshold_pos _) _
    · exact LetThrough.asks hnone

theorem returned_subset_step (p : Passage τ) : x.returned ⊆ (x.step calls p).returned := by
  cases p with
  | asks now u =>
    simp only [step, move]
    split
    · exact List.subset_cons_self ..
    · exact List.Subset.refl _
  | leaves u r => exact List.subset_cons_self ..
  | givesUp u =>
    simp only [step, move]
    split <;> exact List.Subset.refl _
  | _ => exact List.Subset.refl _

theorem Reached.not_begins_of_returned (hg : g.Serves [] [] [] []) (h : Reached calls g x)
    (hreturned : (t, r) ∈ x.returned) {ps : List (Passage τ)} (hcan : x.CanFollow calls ps) :
    .begins now t ∉ ps := by
  induction ps generalizing x with
  | nil => exact List.not_mem_nil
  | cons p ps ih =>
    rw [List.mem_cons, not_or]
    refine ⟨?_, ih (h.step hcan.1) (returned_subset_step p hreturned) hcan.2⟩
    rintro rfl
    exact ((h.sound hg).not_held_of_returned hreturned).1 hcan.1.1

/-- What becomes of the calls to a host that is fenced off at a time. -/
structure FencedOff (calls : τ → Call) (x : Traffic τ) (host : String) (now : UInt64) : Prop where
  refused : ∀ t, (calls t).host = host → x.step calls (.asks now t) = { x with
    asked := t :: x.asked
    returned := (t, .error (Guard.fencedFault host (x.guard.breaker host) now)) :: x.returned
    past := .asks now t :: x.past }
  never : ∀ t, (calls t).host = host → x.CanStep (.asks now t) →
    ∀ ps, (x.step calls (.asks now t)).CanFollow calls ps → ∀ later, .begins later t ∉ ps
  /-- The call of an operation that begins all the same was let through before the host was fenced
  off: an operation on the host has failed to connect since then. -/
  overtaken : ∀ t, (calls t).host = host → x.CanStep (.begins now t) →
    (∀ asked, .asks asked t ∈ x.past → asked ≤ now) →
    ∃ newer asked older failed u fault, x.past = newer ++ .asks asked t :: older ∧
      .answered failed u (.error fault) ∈ newer ∧ fault.isConnect = true ∧ (calls u).host = host

theorem Reached.fencedOff {maxInFlight : Nat} {threshold : UInt32} {cooldown : Span}
    (h : Reached calls (.new maxInFlight threshold cooldown) x)
    (hopened : (x.guard.breaker host).state now = .opened) : x.FencedOff calls host now := by
  have hserves : (Guard.new maxInFlight threshold cooldown : Guard τ).Serves [] [] [] [] := .new ..
  have hrefused : ∀ t, (calls t).host = host → x.step calls (.asks now t) = { x with
      asked := t :: x.asked
      returned := (t, .error (Guard.fencedFault host (x.guard.breaker host) now)) :: x.returned
      past := .asks now t :: x.past } := by
    rintro t rfl
    simp only [Traffic.step, move, Guard.refusal?_of_opened hopened]
  refine ⟨hrefused, fun t ht hcan ps hfollow later ↦ ?_, ?_⟩
  · have hreturned : (t, .error (Guard.fencedFault host (x.guard.breaker host) now)) ∈
        (x.step calls (.asks now t)).returned := by
      rw [hrefused t ht]
      exact List.mem_cons_self
    exact (h.step hcan).not_begins_of_returned hserves hreturned hfollow
  · rintro t rfl ⟨hrun, -, -⟩ hpast
    have hentered := List.mem_append_right x.admitted ((h.sound hserves).mem_entries hrun)
    obtain ⟨newer, asked, older, heq, ⟨failed, hfailed⟩ | hlets⟩ := h.letThrough t hentered
    · obtain ⟨u, fault, hmem, hfault, hhost⟩ := Passage.mem_news_iff.mp hfailed
      exact ⟨newer, asked, older, failed, u, fault, heq, hmem, hfault, hhost⟩
    · have hle := hpast asked (heq ▸ List.mem_append_right newer List.mem_cons_self)
      exact absurd hopened (hlets now hle)

/-- Two calls to a host at a guard with one place. The first one fails to connect, which fences the
host off, and leaves its place to the second one. -/
def inherited : List (Passage Nat) :=
  [.asks 0 0, .enters 0, .begins 0 0, .asks 0 1, .enters 1,
    .answered 10 0 (.error (.connect "oss02" "connection refused")),
    .leaves 0 (.error (.connect "oss02" "connection refused"))]

theorem fencedOff_inherited :
    ((follow (toHost "oss02") { guard := .new 1 1 (.ofSeconds 60) } inherited).guard.breaker
      "oss02").state 10 = .opened ∧
    (follow (toHost "oss02") { guard := .new 1 1 (.ofSeconds 60) } inherited).FencedOff
      (toHost "oss02") "oss02" 10 :=
  have hopened : ((follow (toHost "oss02") { guard := .new 1 1 (.ofSeconds 60) }
    inherited).guard.breaker "oss02").state 10 = .opened := by decide
  ⟨hopened, Reached.fencedOff (Reached.start.follow (by decide)) hopened⟩

/-- The operation of a call that stood in line begins on a host that is fenced off. -/
theorem begins_inherited :
    ((follow (toHost "oss02") { guard := .new 1 1 (.ofSeconds 60) } inherited).guard.breaker
      "oss02").state 10 = .opened ∧
    CanFollow (toHost "oss02") { guard := .new 1 1 (.ofSeconds 60) }
      (inherited ++ [.begins 10 1]) := by decide

end Traffic

end Rollout
