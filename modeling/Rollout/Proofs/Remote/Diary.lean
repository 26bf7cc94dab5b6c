import Rollout.Proofs.Remote.Replies
import Rollout.Time.Span

namespace Rollout

/-- Calls at a guard. The diary has the latest entry first. -/
structure Diary (τ : Type) where
  now : Span := .zero
  traffic : Traffic τ
  entries : List (Span × Passage τ) := []

namespace Diary

variable {τ : Type} [DecidableEq τ]

def write (calls : τ → Call) (x : Diary τ) (p : Passage τ) : Diary τ :=
  { x with traffic := x.traffic.step calls p, entries := (x.now, p) :: x.entries }

def wait (x : Diary τ) (d : Span) : Diary τ := { x with now := ⟨x.now.nanos + d.nanos⟩ }

inductive Reached (calls : τ → Call) (g : Guard τ) : Diary τ → Prop
  | start : Reached calls g { traffic := { guard := g } }
  | write {x : Diary τ} {p : Passage τ} :
      Reached calls g x → x.traffic.CanStep p → Reached calls g (x.write calls p)
  | wait {x : Diary τ} (d : Span) : Reached calls g x → Reached calls g (x.wait d)

variable {calls : τ → Call} {g : Guard τ} {x : Diary τ} {p : Passage τ} {t : τ}
  {clock clock' : UInt64} {since began ended : Span}

theorem Reached.traffic (h : Reached calls g x) : Traffic.Reached calls g x.traffic := by
  induction h with
  | start => exact .start
  | write _ hcan ih => exact ih.step hcan
  | wait _ _ ih => exact ih

theorem Reached.past_eq (h : Reached calls g x) : x.traffic.past = x.entries.map Prod.snd := by
  induction h with
  | start => rfl
  | write _ _ ih => exact congrArg (_ :: ·) ih
  | wait _ _ ih => exact ih

theorem Reached.mem_past (h : Reached calls g x) (hp : (ended, p) ∈ x.entries) :
    p ∈ x.traffic.past := by
  rw [h.past_eq]
  exact List.mem_map_of_mem hp

theorem Reached.le_now (h : Reached calls g x) : ∀ e ∈ x.entries, e.1.nanos ≤ x.now.nanos := by
  induction h with
  | start => exact fun e he ↦ absurd he List.not_mem_nil
  | write _ _ ih => exact List.forall_mem_cons.mpr ⟨Nat.le_refl _, ih⟩
  | wait d _ ih => exact fun e he ↦ Nat.le_trans (ih e he) (Nat.le_add_right ..)

theorem Reached.asks_before_begins (hg : g.Serves [] [] [] []) (h : Reached calls g x)
    (hasks : (since, .asks clock t) ∈ x.entries) (hbegins : (began, .begins clock' t) ∈ x.entries) :
    since.nanos ≤ began.nanos := by
  induction h with
  | start => exact absurd hasks List.not_mem_nil
  | wait _ _ ih => exact ih hasks hbegins
  | @write x p hreached hcan ih =>
    rcases List.mem_cons.mp hbegins with heq | hbegun
    · obtain ⟨rfl, rfl⟩ := Prod.mk.inj heq
      rcases List.mem_cons.mp hasks with heq | hasked
      · cases heq
      · exact hreached.le_now _ hasked
    · rcases List.mem_cons.mp hasks with heq | hasked
      · -- A call that asks has not asked before, so it has not begun either.
        obtain ⟨rfl, rfl⟩ := Prod.mk.inj heq
        exact absurd (hreached.traffic.asked_of_begun hg (hreached.mem_past hbegun)) hcan
      · exact ih hasked hbegun

theorem Reached.begins_before_givesUp (hg : g.Serves [] [] [] []) (h : Reached calls g x)
    (hbegins : (began, .begins clock t) ∈ x.entries) (hquits : (ended, .givesUp t) ∈ x.entries) :
    began.nanos ≤ ended.nanos := by
  induction h with
  | start => exact absurd hquits List.not_mem_nil
  | wait _ _ ih => exact ih hbegins hquits
  | @write x p hreached hcan ih =>
    rcases List.mem_cons.mp hquits with heq | hquit
    · obtain ⟨rfl, rfl⟩ := Prod.mk.inj heq
      rcases List.mem_cons.mp hbegins with heq | hbegun
      · cases heq
      · exact hreached.le_now _ hbegun
    · rcases List.mem_cons.mp hbegins with heq | hbegun
      · -- A call that was given up has no place.
        obtain ⟨rfl, rfl⟩ := Prod.mk.inj heq
        have hover := hreached.traffic.given_up (hreached.mem_past hquit)
        exact absurd hcan.1 ((hreached.traffic.sound hg).not_held hover).1
      · exact ih hbegun hquit

/-- A call was given up when its limit was over, counted from the moment it asked. -/
structure Overdue (x : Diary τ) (t : τ) (since limit ended : Span) : Prop where
  asked : ∃ clock, (since, .asks clock t) ∈ x.entries
  late : since.nanos + limit.nanos ≤ ended.nanos
  givenUp : (ended, .givesUp t) ∈ x.entries

theorem Overdue.write {limit : Span} (h : x.Overdue t since limit ended) (p : Passage τ) :
    (x.write calls p).Overdue t since limit ended where
  asked := h.asked.imp fun _ ↦ List.mem_cons_of_mem _
  late := h.late
  givenUp := List.mem_cons_of_mem _ h.givenUp

end Diary

end Rollout
