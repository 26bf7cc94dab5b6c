import Rollout.Proofs.Remote.Places

namespace Rollout

/-- A step of a call, with the reading of the clock at that moment where one is of interest. -/
inductive Passage (τ : Type)
  | asks (now : UInt64) (t : τ)
  | enters (t : τ)
  | begins (now : UInt64) (t : τ)
  | answered (now : UInt64) (t : τ) (r : Reply)
  | leaves (t : τ) (r : Reply)
  | givesUp (t : τ)

/-- The calls at a guard, by how far they have come. -/
structure Traffic (τ : Type) where
  guard : Guard τ
  asked : List τ := []
  /-- The calls that their breaker has let through and that have not entered. -/
  admitted : List τ := []
  entries : List τ := []
  placed : List τ := []
  underWay : List τ := []
  answered : List (τ × Reply) := []
  released : List τ := []
  /-- The calls that gave up while they waited for a place. -/
  quit : List τ := []
  returned : List (τ × Reply) := []
  /-- What has happened, the latest first. -/
  past : List (Passage τ) := []

namespace Traffic

variable {τ : Type}

variable [DecidableEq τ]

/-- A call is over for the guard, which may have a place for another one. -/
def leaveGuard (x : Traffic τ) (f : Guard τ → Guard τ × Option τ) : Traffic τ :=
  let (g, next) := f x.guard
  { x with guard := g, placed := x.placed ++ next.toList }

def move (calls : τ → Call) (x : Traffic τ) : Passage τ → Traffic τ
  | .asks now t =>
    match x.guard.refusal? now (calls t).host with
    | some fault =>
      { x with asked := t :: x.asked, returned := (t, .error fault) :: x.returned }
    | none => { x with asked := t :: x.asked, admitted := t :: x.admitted }
  | .enters t =>
    let (g, begins) := x.guard.enter t
    { x with guard := g, admitted := x.admitted.erase t, entries := x.entries ++ [t]
             placed := if begins then x.placed ++ [t] else x.placed }
  | .begins _ t => { x with underWay := t :: x.underWay }
  | .answered now t r =>
    { x with guard := x.guard.record now (calls t).host r, underWay := x.underWay.erase t
             answered := (t, r) :: x.answered }
  | .leaves t r =>
    { x.leaveGuard (·.release t) with
      answered := x.answered.erase (t, r), returned := (t, r) :: x.returned
      released := t :: x.released }
  | .givesUp t =>
    if t ∈ x.guard.running then
      { x.leaveGuard (·.abandon t) with
        underWay := x.underWay.erase t, released := t :: x.released }
    else { x.leaveGuard (·.abandon t) with quit := t :: x.quit }

def step (calls : τ → Call) (x : Traffic τ) (p : Passage τ) : Traffic τ :=
  { x.move calls p with past := p :: x.past }

def CanStep (x : Traffic τ) : Passage τ → Prop
  | .asks _ t => t ∉ x.asked
  | .enters t => t ∈ x.admitted
  | .begins _ t => t ∈ x.guard.running ∧ t ∉ x.underWay ∧ t ∉ x.answered.map Prod.fst
  | .answered _ t _ => t ∈ x.underWay
  | .leaves t r => (t, r) ∈ x.answered
  | .givesUp t =>
    t ∈ x.guard.waiting ∨ t ∈ x.guard.running ∧ t ∉ x.answered.map Prod.fst

instance (x : Traffic τ) (p : Passage τ) : Decidable (x.CanStep p) :=
  match p with
  | .asks _ t => inferInstanceAs (Decidable (t ∉ x.asked))
  | .enters t => inferInstanceAs (Decidable (t ∈ x.admitted))
  | .begins _ t => inferInstanceAs
    (Decidable (t ∈ x.guard.running ∧ t ∉ x.underWay ∧ t ∉ x.answered.map Prod.fst))
  | .answered _ t _ => inferInstanceAs (Decidable (t ∈ x.underWay))
  | .leaves t r => inferInstanceAs (Decidable ((t, r) ∈ x.answered))
  | .givesUp t => inferInstanceAs
    (Decidable (t ∈ x.guard.waiting ∨ t ∈ x.guard.running ∧ t ∉ x.answered.map Prod.fst))

/-- What the calls at a guard can come to. -/
inductive Reached (calls : τ → Call) (g : Guard τ) : Traffic τ → Prop
  | start : Reached calls g { guard := g }
  | step {x : Traffic τ} {p : Passage τ} :
      Reached calls g x → x.CanStep p → Reached calls g (x.step calls p)

def follow (calls : τ → Call) (x : Traffic τ) (ps : List (Passage τ)) : Traffic τ :=
  ps.foldl (step calls) x

def CanFollow (calls : τ → Call) : Traffic τ → List (Passage τ) → Prop
  | _, [] => True
  | x, p :: ps => x.CanStep p ∧ CanFollow calls (x.step calls p) ps

instance decidableCanFollow (calls : τ → Call) :
    (x : Traffic τ) → (ps : List (Passage τ)) → Decidable (x.CanFollow calls ps)
  | _, [] => inferInstanceAs (Decidable True)
  | x, p :: ps =>
    have := decidableCanFollow calls (x.step calls p) ps
    inferInstanceAs (Decidable (x.CanStep p ∧ (x.step calls p).CanFollow calls ps))

theorem Reached.follow {calls : τ → Call} {g : Guard τ} {x : Traffic τ} {ps : List (Passage τ)}
    (h : Reached calls g x) (hcan : x.CanFollow calls ps) : Reached calls g (x.follow calls ps) := by
  induction ps generalizing x with
  | nil => exact h
  | cons p ps ih => exact ih (h.step hcan.1) hcan.2

def toHost (host : String) (_ : Nat) : Call := ⟨host, .run "true" (.ofSeconds 5)⟩

end Traffic

end Rollout
