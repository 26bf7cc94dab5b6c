import Rollout.Rehearsal.Stage
import Rollout.Remote.Script

namespace Rollout

structure TimedReply where
  call : Nat
  time : Nat
  reply : Reply
  deriving Inhabited

def callPlay : Play Nat Call (List TimedReply) where
  start := fun _ replies _ c ↦ (replies, .call c none c)
  resume := fun now replies t _ w ↦
    match w with
    | .reply r => (⟨t, now.millis, r⟩ :: replies, .done ())
    | .rested => (replies, .done ())
  direct := fun _ replies ↦ (replies, [])
  isWaiting := fun _ ↦ false

abbrev CallStage (ε π : Type) := Stage Nat Call (List TimedReply) ε π

namespace CallStage

variable {ε π : Type}

/-- Makes calls at the same time, in their order, and waits for all of them; the replies are given
in the same order. -/
def performAll (s : CallStage ε π) (calls : List Call) : CallStage ε π × List TimedReply :=
  let s := calls.zipIdx.foldl (fun s c ↦ Stage.add c.2 c.1 s) { s with shared := [] }
  let s := Stage.finish s
  (s, (List.range calls.length).filterMap fun t ↦ s.shared.find? fun r ↦ r.call == t)

def perform (s : CallStage ε π) (c : Call) : CallStage ε π × Reply :=
  let (s, replies) := s.performAll [c]
  (s, (replies.head?.map TimedReply.reply).getD (.error (.other "no reply")))

end CallStage

end Rollout
