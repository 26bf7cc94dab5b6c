import Rollout.Proofs.Metrics.Delivery

namespace Rollout

namespace BoundedQueue

variable {α : Type} {q : BoundedQueue α} {n : Nat}

theorem batchesFrom_eq (piece : List α) {left : Nat} (hleft : 0 < left) {as : List α}
    (has : as ≠ []) : batchesFrom n piece left as =
      (piece.reverse ++ as.take left) :: batchesFrom n [] n (as.drop left) := by
  fun_induction batchesFrom n piece left as with
  | case1 | case2 => exact absurd rfl has
  | case3 => omega
  | case4 piece a as => simp
  | case5 piece a as left ih =>
    cases as with
    | nil => simp [batchesFrom]
    | cons b as => rw [ih (Nat.succ_pos left) (List.cons_ne_nil b as)]; simp

theorem batches_of_nil (h : q.items = []) : q.batches n = [] := by
  rw [batches, h]
  rfl

theorem batches_eq (hn : 0 < n) (h : q.items ≠ []) :
    q.batches n = q.peek n :: (q.consume (q.peek n).length).batches n := by
  have hdrop : q.items.drop (q.items.take n).length = q.items.drop n := by
    rw [List.length_take]
    rcases Nat.le_total n q.items.length with hle | hle
    · rw [Nat.min_eq_left hle]
    · rw [Nat.min_eq_right hle, List.drop_length, List.drop_eq_nil_of_le hle]
  rw [batches, batchesFrom_eq [] hn h, List.reverse_nil, List.nil_append, batches, consume, peek,
    hdrop]

end BoundedQueue

/-- What is noted of writes: one is made, or answered, or the loop is stopped. -/
inductive Notice
  | begun (now : Span) (batch : List Sample)
  | answered (now : Span) (refusal : Option Fault)
  | stopped
  deriving DecidableEq

/-- What can be done with a pipeline: time passes, a round of samplers comes, a flush begins, the
loop is stopped, which begins its last flush, or the sink answers. -/
inductive Act
  | wait (d : Span)
  | sample (round : Option (List Sampling))
  | flush
  | stop
  | answer (refusal : Option Fault)

/-- A pipeline with the time, the batch that its sink has not answered, and what has been noted, the
latest first. -/
structure Feed where
  pipeline : Pipeline
  clock : Span := .zero
  unanswered : Option (List Sample) := none
  past : List Notice := []

def Pipeline.front (p : Pipeline) : List Sample := p.queue.peek p.batchSize

namespace Feed

def new (host : String) (settings : PipelineSettings) : Feed where
  pipeline := .new host settings

def write (f : Feed) : Feed :=
  if f.pipeline.queue.items = [] then f
  else
    { f with
      unanswered := some f.pipeline.front, past := .begun f.clock f.pipeline.front :: f.past }

def unblock (f : Feed) : Feed := { f with pipeline.blockedUntil := none }

def note (n : Notice) (f : Feed) : Feed := { f with past := n :: f.past }

def settle (f : Feed) (p : Pipeline) (refusal : Option Fault) : Feed :=
  { f with pipeline := p, unanswered := none, past := .answered f.clock refusal :: f.past }

def step (f : Feed) : Act → Feed
  | .wait d => { f with clock := ⟨f.clock.nanos + d.nanos⟩ }
  | .sample round => { f with pipeline := f.pipeline.sample f.clock round }
  | .flush => if f.pipeline.isBlocked f.clock then f else f.unblock.write
  | .stop => (f.unblock.note .stopped).write
  | .answer none => (f.settle (f.pipeline.acknowledge (f.unanswered.getD [])) none).write
  | .answer (some fault) => f.settle (f.pipeline.refuse f.clock) (some fault)

/-- Nothing is under way, and the loop has not been stopped. -/
def Idle (f : Feed) : Prop := f.unanswered = none ∧ .stopped ∉ f.past

instance (f : Feed) : Decidable f.Idle :=
  inferInstanceAs (Decidable (f.unanswered = none ∧ .stopped ∉ f.past))

def CanStep (f : Feed) : Act → Prop
  | .wait _ => True
  | .sample _ | .flush | .stop => f.Idle
  | .answer _ => f.unanswered ≠ none

instance (f : Feed) (a : Act) : Decidable (f.CanStep a) :=
  match a with
  | .wait _ => inferInstanceAs (Decidable True)
  | .sample _ | .flush | .stop => inferInstanceAs (Decidable f.Idle)
  | .answer _ => inferInstanceAs (Decidable (f.unanswered ≠ none))

def follow (f : Feed) (acts : List Act) : Feed := acts.foldl step f

def CanFollow : Feed → List Act → Prop
  | _, [] => True
  | f, a :: acts => f.CanStep a ∧ CanFollow (f.step a) acts

instance decidableCanFollow : (f : Feed) → (acts : List Act) → Decidable (f.CanFollow acts)
  | _, [] => inferInstanceAs (Decidable True)
  | f, a :: acts =>
    have := decidableCanFollow (f.step a) acts
    inferInstanceAs (Decidable (f.CanStep a ∧ (f.step a).CanFollow acts))

theorem write_of_nil {f : Feed} (h : f.pipeline.queue.items = []) : f.write = f := by
  rw [write, if_pos h]

theorem write_of_ne_nil {f : Feed} (h : f.pipeline.queue.items ≠ []) :
    f.write = { f with
      unanswered := some f.pipeline.front
      past := .begun f.clock f.pipeline.front :: f.past } := by
  rw [write, if_neg h]

section Instant

variable {σ : Type}

def noticesAt (now : Span) : Happening Sample → List Notice
  | .written batch refusal => [.begun now batch, .answered now refusal]
  | .produced _ => []

theorem exists_answers_deliver (sink : Sink σ) (f : Feed) (hidle : f.unanswered = none)
    (delivered : Nat) (s : σ) (written : List (Happening Sample)) :
    let r := Pipeline.deliver sink.noting f.clock (f.pipeline.queue.batches f.pipeline.batchSize)
      delivered f.pipeline (s, written)
    ∃ (answers : List (Option Fault)) (new : List (Happening Sample)), r.2.2.2 = written ++ new ∧
      f.write.CanFollow (answers.map .answer) ∧
      f.write.follow (answers.map .answer) = { f with
        pipeline := r.2.1
        past := (new.flatMap (noticesAt f.clock)).reverse ++ f.past } := by
  have hsize : 0 < f.pipeline.batchSize := Nat.le_max_right ..
  induction hbatches : f.pipeline.queue.batches f.pipeline.batchSize
    generalizing f delivered s written with
  | nil =>
    have hitems : f.pipeline.queue.items = [] := by
      rw [← BoundedQueue.flatten_batches f.pipeline.batchSize, hbatches, List.flatten_nil]
    refine ⟨[], [], (List.append_nil _).symm, trivial, ?_⟩
    rw [write_of_nil hitems]
    rfl
  | cons batch batches ih =>
    have hitems : f.pipeline.queue.items ≠ [] := fun hnil ↦ by
      rw [BoundedQueue.batches_of_nil hnil] at hbatches
      cases hbatches
    rw [BoundedQueue.batches_eq hsize hitems] at hbatches
    obtain ⟨rfl, hrest⟩ := List.cons.inj hbatches
    obtain ⟨refusal, s', hwrite⟩ : ∃ refusal s',
        sink.write s f.pipeline.front = (refusal, s') := ⟨_, _, rfl⟩
    have hnoting : sink.noting.write (s, written) f.pipeline.front =
        (refusal, (s', written ++ [.written f.pipeline.front refusal])) := by
      simp only [Sink.noting, hwrite]
    rw [write_of_ne_nil hitems]
    rw [Pipeline.front] at hnoting
    simp only [Pipeline.deliver, hnoting]
    cases refusal with
    | some fault =>
      refine ⟨[some fault], [.written f.pipeline.front (some fault)], rfl,
        ⟨Option.some_ne_none _, trivial⟩, ?_⟩
      simp [follow, step, settle, noticesAt, hidle]
    | none =>
      let f' : Feed := { f with
        pipeline := f.pipeline.acknowledge f.pipeline.front
        past := .answered f.clock none :: .begun f.clock f.pipeline.front :: f.past }
      have hstep : f.write.step (.answer none) = f'.write := by
        rw [write_of_ne_nil hitems]
        simp only [step, settle, f', hidle, Option.getD_some]
      obtain ⟨answers, new, hnew, hcan, hfollow⟩ := ih f' hidle
        (delivered + f.pipeline.front.length) s' (written ++ [.written f.pipeline.front none])
        hsize hrest
      rw [write_of_ne_nil hitems] at hstep
      refine ⟨none :: answers, .written f.pipeline.front none :: new, ?_,
        ⟨Option.some_ne_none _, hstep ▸ hcan⟩, ?_⟩
      · exact hnew.trans (List.append_assoc ..)
      · rw [List.map_cons, follow, List.foldl_cons, hstep]
        refine hfollow.trans ?_
        simp [noticesAt, f', Pipeline.front]

theorem exists_answers_flush (sink : Sink σ) {f : Feed} (hidle : f.Idle) (s : σ) :
    let r := f.pipeline.flush sink.noting f.clock (s, [])
    ∃ answers : List (Option Fault), f.CanFollow (.flush :: answers.map .answer) ∧
      f.follow (.flush :: answers.map .answer) = { f with
        pipeline := r.2.1
        past := (r.2.2.2.flatMap (noticesAt f.clock)).reverse ++ f.past } := by
  simp only [Pipeline.flush]
  split
  · rename_i hblocked
    refine ⟨[], ⟨hidle, trivial⟩, ?_⟩
    simp [follow, step, hblocked]
  · rename_i hopen
    obtain ⟨answers, new, hnew, hcan, hfollow⟩ :=
      exists_answers_deliver sink f.unblock hidle.1 0 s []
    have hstep : f.step .flush = f.unblock.write := if_neg hopen
    refine ⟨answers, ⟨hidle, hstep ▸ hcan⟩, ?_⟩
    rw [follow, List.foldl_cons, hstep]
    refine hfollow.trans ?_
    rw [List.nil_append] at hnew
    rw [← hnew]
    rfl

def Event.mark : Pipeline.Event → List Notice
  | .stop => [.stopped]
  | _ => []

theorem exists_acts_handle (sink : Sink σ) {f : Feed} (hidle : f.Idle) (s : σ)
    (e : Pipeline.Event) :
    let r := f.pipeline.handle sink.noting f.clock (s, []) e
    ∃ acts : List Act, f.CanFollow acts ∧ f.follow acts = { f with
      pipeline := r.1
      past := (r.2.2.flatMap (noticesAt f.clock)).reverse ++ Event.mark e ++ f.past } := by
  cases e with
  | sampleTick round =>
    let f' : Feed := { f with pipeline := f.pipeline.sample f.clock round }
    simp only [Pipeline.handle]
    split
    · obtain ⟨answers, hcan, hfollow⟩ := exists_answers_flush sink (f := f') hidle s
      refine ⟨.sample round :: .flush :: answers.map .answer, ⟨hidle, hcan⟩, ?_⟩
      refine Eq.trans (b := f'.follow (.flush :: answers.map .answer)) rfl (hfollow.trans ?_)
      simp only [Event.mark, List.append_nil, f']
    · exact ⟨[.sample round], ⟨hidle, trivial⟩, rfl⟩
  | flushTick =>
    obtain ⟨answers, hcan, hfollow⟩ := exists_answers_flush sink hidle s
    refine ⟨_, hcan, hfollow.trans ?_⟩
    simp only [Event.mark, List.append_nil, Pipeline.handle]
  | stop =>
    obtain ⟨answers, new, hnew, hcan, hfollow⟩ :=
      exists_answers_deliver sink (f.unblock.note .stopped) hidle.1 0 s []
    refine ⟨.stop :: answers.map .answer, ⟨hidle, hcan⟩, hfollow.trans ?_⟩
    rw [List.nil_append] at hnew
    rw [← hnew]
    simp only [Pipeline.handle, Pipeline.flush, Event.mark, List.append_assoc]
    rfl

end Instant

end Feed

end Rollout
