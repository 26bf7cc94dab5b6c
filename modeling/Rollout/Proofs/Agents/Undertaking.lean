import Rollout.Proofs.Agents.Fleet

namespace Rollout

/-- A call that was answered, with the time of both, and what the activity went on with. -/
structure Contact (ω : Type) where
  call : Call
  work : ω
  asked : Span
  heard : Span
  reply : Reply

structure Undertaking (ω α : Type) where
  now : Span
  fleet : Fleet
  move : Move ω α

abbrev Undertaking.Rules (ω α : Type) :=
  Span → Fleet → ω → Wake → Fleet × Move ω α → Prop

/-- A move of a part of a larger activity, which goes on with `next` when the part is over. -/
def Move.followedBy {ω ω' α β : Type} (wrap : ω → ω') (next : α → Move ω' β) :
    Move ω α → Move ω' β
  | .call c within rest => .call c within (wrap rest)
  | .pause d rest => .pause d (wrap rest)
  | .done a => next a

def Move.asked {ω α : Type} : Move ω α → List (Call × ω)
  | .call c _ rest => [(c, rest)]
  | _ => []

theorem Move.followedBy_done {ω ω' α β : Type} (wrap : ω → ω') (answer : α → β) (m : Move ω α) :
    m.followedBy wrap (fun a ↦ .done (answer a)) = (m.mapRest wrap).map answer := by
  cases m <;> rfl

namespace Undertaking

variable {ω α : Type}

def outcome (x : Undertaking ω α) : Option α :=
  match x.move with
  | .done a => some a
  | _ => none

def asked (log : List (Contact ω)) (x : Undertaking ω α) : List (Call × ω) :=
  log.map (fun c ↦ (c.call, c.work)) ++ x.move.asked

/-- What comes of an activity, with its contacts so far: any call may be answered in any way after
any time, and a pause ends after its delay. Until then `others` may happen to the agents. -/
inductive Reached (rules : Rules ω α) (others : Fleet → Fleet → Prop) (start : Undertaking ω α) :
    List (Contact ω) → Undertaking ω α → Prop
  | start : Reached rules others start [] start
  | hears {log : List (Contact ω)} {now : Span} {f : Fleet} {c : Call} {work : ω} (took : Span)
      (found : Fleet) (r : Reply) {next : Fleet × Move ω α} :
      Reached rules others start log ⟨now, f, .call c none work⟩ → others f found →
      rules (took.after now) found work (.reply r) next →
      Reached rules others start (log ++ [⟨c, work, now, took.after now, r⟩])
        ⟨took.after now, next.1, next.2⟩
  | rests {log : List (Contact ω)} {now : Span} {f : Fleet} {d : Span} {work : ω} (found : Fleet)
      {next : Fleet × Move ω α} :
      Reached rules others start log ⟨now, f, .pause d work⟩ → others f found →
      rules (d.after now) found work .rested next →
      Reached rules others start log ⟨d.after now, next.1, next.2⟩

theorem Reached.of_done {rules : Rules ω α} {others : Fleet → Fleet → Prop} {now : Span} {f : Fleet}
    {a : α} {log : List (Contact ω)} {y : Undertaking ω α}
    (h : Reached rules others ⟨now, f, .done a⟩ log y) : log = [] ∧ y = ⟨now, f, .done a⟩ := by
  induction h with
  | start => exact ⟨rfl, rfl⟩
  | hears _ _ _ _ _ _ ih => cases ih.2
  | rests _ _ _ _ ih => cases ih.2

/-- The activity comes to its end whatever it hears, if its calls take such times. -/
inductive Halts (rules : Rules ω α) (others : Fleet → Fleet → Prop) (mayTake : Span → Prop) :
    Undertaking ω α → Prop
  | done (now : Span) (f : Fleet) (a : α) : Halts rules others mayTake ⟨now, f, .done a⟩
  | call {now : Span} {f : Fleet} {c : Call} {work : ω} :
      (∀ took found r next, mayTake took → others f found →
        rules (took.after now) found work (.reply r) next →
        Halts rules others mayTake ⟨took.after now, next.1, next.2⟩) →
      Halts rules others mayTake ⟨now, f, .call c none work⟩
  | pause {now : Span} {f : Fleet} {d : Span} {work : ω} :
      (∀ found next, others f found → rules (d.after now) found work .rested next →
        Halts rules others mayTake ⟨d.after now, next.1, next.2⟩) →
      Halts rules others mayTake ⟨now, f, .pause d work⟩

end Undertaking

def AgentWork.rules : Undertaking.Rules AgentWork AgentAnswer := fun now f work w next ↦
  work.resume now f w = next

end Rollout
