import Rollout.Proofs.Metrics.Feed
import Rollout.Proofs.Retry.Backoff

namespace Rollout

def PipelineSettings.retries (s : PipelineSettings) : Backoff :=
  .new (.ofMillis s.sinkInitialBackoff) (.ofMillis s.sinkMaxBackoff)

namespace Notice

def isBegun : Notice → Bool
  | .begun .. => true
  | _ => false

/-- How many writes in a row have been refused, given what was noted, the latest first. -/
def streak : List Notice → Nat
  | [] => 0
  | .answered _ none :: _ => 0
  | .answered _ (some _) :: past => streak past + 1
  | _ :: past => streak past

/-- When the delay is over that follows a refusal at a time, with so much noted before. -/
def dueAfter (settings : PipelineSettings) (t : Span) (before : List Notice) : Span :=
  ⟨t.nanos + (settings.retries.nth (streak before)).nanos⟩

/-- Until when nothing is to be written, if the latest that was noted is a refusal. -/
def heldUntil (settings : PipelineSettings) : List Notice → Option Span
  | .answered t (some _) :: before => some (dueAfter settings t before)
  | _ => none

/-- The delay after every refusal since the loop was stopped is over; the latest notice counts only if
`latest` holds. -/
def Elapsed (settings : PipelineSettings) (now : Span) (latest : Prop)
    (past : List Notice) : Prop :=
  ∀ since t fault before, past = since ++ .answered t (some fault) :: before → .stopped ∉ since →
    (since = [] → latest) → dueAfter settings t before ≤ now

/-- No write has begun before the delay was over after an earlier refusal, unless the loop was
stopped between them. -/
def Spaced (settings : PipelineSettings) (past : List Notice) : Prop :=
  ∀ later now batch since t fault before,
    past = later ++ .begun now batch :: (since ++ .answered t (some fault) :: before) →
    .stopped ∉ since → dueAfter settings t before ≤ now

variable {settings : PipelineSettings} {now : Span} {past : List Notice} {n : Notice}
  {latest : Prop}

theorem heldUntil_eq_some {u : Span} (h : heldUntil settings past = some u) :
    ∃ t fault before,
      past = .answered t (some fault) :: before ∧ dueAfter settings t before = u := by
  unfold heldUntil at h
  split at h
  · rename_i t fault before
    exact ⟨t, fault, before, rfl, Option.some.inj h⟩
  · cases h

theorem Spaced.cons (h : Spaced settings past) (hn : n.isBegun = false) :
    Spaced settings (n :: past) := by
  intro later now batch since t fault before heq hstop
  cases later with
  | nil =>
    obtain ⟨rfl, -⟩ := List.cons.inj heq
    cases hn
  | cons m later => exact h later now batch since t fault before (List.cons.inj heq).2 hstop

theorem Spaced.begun (h : Spaced settings past) (hpast : Elapsed settings now True past)
    (batch : List Sample) : Spaced settings (.begun now batch :: past) := by
  intro later now' batch' since t fault before heq hstop
  cases later with
  | nil =>
    obtain ⟨hfirst, rfl⟩ := List.cons.inj heq
    obtain ⟨rfl, -⟩ := Notice.begun.inj hfirst
    exact hpast since t fault before rfl hstop fun _ ↦ trivial
  | cons m later => exact h later now' batch' since t fault before (List.cons.inj heq).2 hstop

theorem Elapsed.later {now' : Span} (h : Elapsed settings now latest past) (hle : now ≤ now') :
    Elapsed settings now' latest past :=
  fun since t fault before heq hstop hall ↦
    Nat.le_trans (h since t fault before heq hstop hall) hle

theorem Elapsed.cons (h : Elapsed settings now True past) (n : Notice) :
    Elapsed settings now False (n :: past) := by
  intro since t fault before heq hstop hall
  cases since with
  | nil => exact (hall rfl).elim
  | cons m since =>
    exact h since t fault before (List.cons.inj heq).2 (fun hm ↦ hstop (List.mem_cons_of_mem _ hm))
      fun _ ↦ trivial

theorem Elapsed.all (h : Elapsed settings now False past)
    (hheld : ∀ u, heldUntil settings past = some u → u ≤ now) : Elapsed settings now True past := by
  intro since t fault before heq hstop _
  cases since with
  | nil => exact hheld _ (by rw [heq]; rfl)
  | cons m since => exact h _ t fault before heq hstop fun hnil ↦ by cases hnil

theorem Elapsed.stopped (past : List Notice) : Elapsed settings now True (.stopped :: past) := by
  intro since t fault before heq hstop _
  cases since with
  | nil => cases heq
  | cons m since =>
    obtain ⟨rfl, -⟩ := List.cons.inj heq
    exact absurd (List.mem_cons_self ..) hstop

end Notice

open Notice (streak dueAfter heldUntil Elapsed Spaced)

namespace Feed

variable {settings : PipelineSettings} {f : Feed}

structure Kept (settings : PipelineSettings) (f : Feed) : Prop where
  settings_eq : f.pipeline.settings = settings
  backoff_eq : f.pipeline.backoff = Backoff.advance^[streak f.past] settings.retries
  spaced : Spaced settings f.past

structure Ready (settings : PipelineSettings) (f : Feed) : Prop extends Kept settings f where
  unanswered_eq : f.unanswered = none
  blockedUntil_eq : f.pipeline.blockedUntil = none
  elapsed : Elapsed settings f.clock True f.past

/-- A batch with the sink stands at the front of the queue, and without one writes are held back as
long as the latest refusal wants. -/
structure Sound (settings : PipelineSettings) (f : Feed) : Prop extends Kept settings f where
  elapsed : Elapsed settings f.clock False f.past
  open_ : ∀ batch, f.unanswered = some batch → f.pipeline.queue.items ≠ [] ∧
    batch = f.pipeline.front ∧ f.pipeline.blockedUntil = none ∧
      ∃ t before, f.past = .begun t batch :: before
  held : f.Idle → f.pipeline.blockedUntil = heldUntil settings f.past ∨
    f.pipeline.blockedUntil = none ∧ ∀ u, heldUntil settings f.past = some u → u ≤ f.clock

theorem Ready.write (h : f.Ready settings) : f.write.Sound settings := by
  by_cases hitems : f.pipeline.queue.items = []
  · rw [write_of_nil hitems]
    refine ⟨h.toKept, fun since t fault before heq hstop _ ↦
      h.elapsed since t fault before heq hstop fun _ ↦ trivial, fun batch hbatch ↦ ?_, fun _ ↦
      .inr ⟨h.blockedUntil_eq, fun u hu ↦ ?_⟩⟩
    · rw [h.unanswered_eq] at hbatch
      cases hbatch
    · obtain ⟨t, fault, before, hpast, rfl⟩ := Notice.heldUntil_eq_some hu
      exact h.elapsed [] t fault before hpast List.not_mem_nil fun _ ↦ trivial
  · rw [write_of_ne_nil hitems]
    refine ⟨⟨h.settings_eq, h.backoff_eq, h.spaced.begun h.elapsed _⟩, h.elapsed.cons _,
      fun batch hbatch ↦ ?_, fun hidle ↦ ?_⟩
    · obtain rfl := Option.some.inj hbatch
      exact ⟨hitems, rfl, h.blockedUntil_eq, _, _, rfl⟩
    · cases hidle.1

theorem Sound.ready (h : f.Sound settings) (hidle : f.Idle)
    (hopen : f.pipeline.isBlocked f.clock = false) : f.unblock.Ready settings := by
  refine ⟨⟨h.settings_eq, h.backoff_eq, h.spaced⟩, hidle.1, rfl, h.elapsed.all fun u hu ↦ ?_⟩
  rcases h.held hidle with heq | ⟨-, hle⟩
  · rw [Pipeline.isBlocked, heq, hu] at hopen
    exact Nat.le_of_not_lt (of_decide_eq_false hopen)
  · exact hle u hu

theorem Sound.ready_stopped (h : f.Sound settings) (hidle : f.Idle) :
    (f.unblock.note .stopped).Ready settings :=
  ⟨⟨h.settings_eq, h.backoff_eq, h.spaced.cons rfl⟩, hidle.1, rfl, .stopped _⟩

theorem Sound.elapsed_unanswered (h : f.Sound settings) (hsome : f.unanswered ≠ none) :
    Elapsed settings f.clock True f.past := by
  obtain ⟨batch, hbatch⟩ := Option.ne_none_iff_exists'.mp hsome
  obtain ⟨-, -, -, t, before, hpast⟩ := h.open_ batch hbatch
  exact h.elapsed.all fun u hu ↦ by
    rw [hpast] at hu
    cases hu

theorem Sound.ready_taken (h : f.Sound settings) (hsome : f.unanswered ≠ none) :
    (f.settle (f.pipeline.acknowledge (f.unanswered.getD [])) none).Ready settings := by
  obtain ⟨batch, hbatch⟩ := Option.ne_none_iff_exists'.mp hsome
  obtain ⟨-, -, hblocked, -⟩ := h.open_ batch hbatch
  refine ⟨⟨h.settings_eq, ?_, h.spaced.cons rfl⟩, rfl, hblocked, ?_⟩
  · show f.pipeline.backoff.reset = settings.retries
    rw [h.backoff_eq]
    exact Backoff.reset_iterate _ rfl
  · exact ((h.elapsed_unanswered hsome).cons _).all fun u hu ↦ by cases hu

theorem Sound.refused (h : f.Sound settings) (hsome : f.unanswered ≠ none) (fault : Fault) :
    (f.settle (f.pipeline.refuse f.clock) (some fault)).Sound settings := by
  refine ⟨⟨h.settings_eq, ?_, h.spaced.cons rfl⟩, (h.elapsed_unanswered hsome).cons _,
    fun batch hbatch ↦ ?_, fun _ ↦ .inl ?_⟩
  · show f.pipeline.backoff.advance = Backoff.advance^[streak f.past + 1] settings.retries
    rw [Function.iterate_succ_apply', h.backoff_eq]
  · cases hbatch
  · show some _ = some (dueAfter settings f.clock f.past)
    rw [h.backoff_eq]
    rfl

theorem Sound.step (h : f.Sound settings) {a : Act} (hcan : f.CanStep a) :
    (f.step a).Sound settings := by
  cases a with
  | wait d =>
    have hle : f.clock ≤ (⟨f.clock.nanos + d.nanos⟩ : Span) := Nat.le_add_right ..
    refine ⟨⟨h.settings_eq, h.backoff_eq, h.spaced⟩, h.elapsed.later hle, h.open_, fun hidle ↦ ?_⟩
    exact (h.held hidle).imp_right fun ⟨hnone, hover⟩ ↦
      ⟨hnone, fun u hu ↦ Nat.le_trans (hover u hu) hle⟩
  | sample round =>
    obtain ⟨errors, heq⟩ := f.pipeline.sample_eq f.clock round
    have hidle : f.unanswered = none := hcan.1
    simp only [Feed.step, heq]
    refine ⟨⟨h.settings_eq, h.backoff_eq, h.spaced⟩, h.elapsed, fun batch hbatch ↦ ?_, h.held⟩
    rw [hidle] at hbatch
    cases hbatch
  | flush =>
    simp only [Feed.step]
    split
    · exact h
    · rename_i hopen
      exact (h.ready hcan (Bool.eq_false_iff.mpr hopen)).write
  | stop => exact (h.ready_stopped hcan).write
  | answer refusal =>
    cases refusal with
    | none => exact (h.ready_taken hcan).write
    | some fault => exact h.refused hcan fault

theorem Sound.follow (h : f.Sound settings) {acts : List Act} (hcan : f.CanFollow acts) :
    (f.follow acts).Sound settings := by
  induction acts generalizing f with
  | nil => exact h
  | cons a acts ih => exact ih (h.step hcan.1) hcan.2

theorem sound_new (host : String) (settings : PipelineSettings) :
    (new host settings).Sound settings := by
  refine ⟨⟨rfl, rfl, fun later now batch since t fault before heq ↦ ?_⟩,
    fun since t fault before heq ↦ ?_, fun batch hbatch ↦ ?_, fun _ ↦ .inl rfl⟩
  · simp [new] at heq
  · simp [new] at heq
  · cases hbatch

/-- What a flush does with a queue, writing `n` samples at a time: what is noted of it, the latest
first, the queue it has come to, and the batch it has left with the sink. It goes on only after a
batch was taken; a refusal ends it and leaves the queue as it is. -/
inductive Burst (n : Nat) (q : BoundedQueue Sample) :
    List Notice → BoundedQueue Sample → Option (List Sample) → Prop
  | nothing : q.items = [] → Burst n q [] q none
  | first (t : Span) : q.items ≠ [] → Burst n q [.begun t (q.peek n)] q (some (q.peek n))
  | next (t : Span) {past : List Notice} {left : BoundedQueue Sample} {batch : List Sample} :
      Burst n q past left (some batch) → (left.consume batch.length).items ≠ [] →
      Burst n q (.begun t ((left.consume batch.length).peek n) :: .answered t none :: past)
        (left.consume batch.length) (some ((left.consume batch.length).peek n))
  | last (t : Span) {past : List Notice} {left : BoundedQueue Sample} {batch : List Sample} :
      Burst n q past left (some batch) → (left.consume batch.length).items = [] →
      Burst n q (.answered t none :: past) (left.consume batch.length) none
  | refused (t : Span) (fault : Fault) {past : List Notice} {left : BoundedQueue Sample}
      {batch : List Sample} : Burst n q past left (some batch) →
      Burst n q (.answered t (some fault) :: past) left none

/-- Each write of a flush takes at least one sample away from the next. -/
theorem Burst.countP_le {n : Nat} (hn : 0 < n) {q left : BoundedQueue Sample}
    {past : List Notice} {batch : Option (List Sample)} (h : Burst n q past left batch) :
    past.countP Notice.isBegun ≤ q.size ∧
      (batch ≠ none → batch = some (left.peek n) ∧ left.items ≠ [] ∧
        past.countP Notice.isBegun + left.size ≤ q.size + 1) := by
  have hpeek : ∀ left : BoundedQueue Sample, left.items ≠ [] → 0 < (left.peek n).length := by
    intro left hleft
    have hpos := List.length_pos_iff.mpr hleft
    rw [BoundedQueue.peek, List.length_take]
    omega
  induction h with
  | nothing => exact ⟨Nat.zero_le _, fun hne ↦ absurd rfl hne⟩
  | first t hitems =>
    have hpos : 0 < q.size := List.length_pos_iff.mpr hitems
    have hone : [Notice.begun t (q.peek n)].countP Notice.isBegun = 1 := rfl
    rw [hone]
    exact ⟨hpos, fun _ ↦ ⟨rfl, hitems, Nat.le_of_eq (Nat.add_comm ..)⟩⟩
  | @next t past left batch _ hitems ih =>
    obtain ⟨-, hopen⟩ := ih
    obtain ⟨hbatch, hleft, hle⟩ := hopen (Option.some_ne_none _)
    have hless := hpeek left hleft
    have hpos := List.length_pos_iff.mpr hitems
    obtain rfl := Option.some.inj hbatch
    have hcount : (.begun t ((left.consume (left.peek n).length).peek n) ::
        .answered t none :: past).countP Notice.isBegun = past.countP Notice.isBegun + 1 := by
      simp [List.countP_cons, Notice.isBegun]
    have hsize : (left.consume (left.peek n).length).size = left.size - (left.peek n).length :=
      List.length_drop ..
    have hsize' : (left.consume (left.peek n).length).size =
        (left.consume (left.peek n).length).items.length := rfl
    exact ⟨by omega, fun _ ↦ ⟨rfl, hitems, by omega⟩⟩
  | last t _ _ ih => exact ⟨ih.1, fun hne ↦ absurd rfl hne⟩
  | refused t fault _ ih => exact ⟨ih.1, fun hne ↦ absurd rfl hne⟩

def GoesOn : Act → Prop
  | .wait _ | .answer _ => True
  | _ => False

def Bursting (n : Nat) (q : BoundedQueue Sample) (past : List Notice) (f : Feed) : Prop :=
  f.pipeline.batchSize = n ∧
    ∃ new, f.past = new ++ past ∧ Burst n q new f.pipeline.queue f.unanswered

theorem bursting_write (hidle : f.unanswered = none) :
    f.write.Bursting f.pipeline.batchSize f.pipeline.queue f.past := by
  by_cases hitems : f.pipeline.queue.items = []
  · rw [write_of_nil hitems]
    exact ⟨rfl, [], rfl, hidle ▸ .nothing hitems⟩
  · rw [write_of_ne_nil hitems]
    exact ⟨rfl, [_], rfl, .first f.clock hitems⟩

theorem Bursting.step {n : Nat} {q : BoundedQueue Sample} {past : List Notice}
    (h : f.Bursting n q past) {a : Act} (hgoes : GoesOn a) (hcan : f.CanStep a) :
    (f.step a).Bursting n q past := by
  obtain ⟨rfl, new, hpast, hburst⟩ := h
  cases a with
  | wait d => exact ⟨rfl, new, hpast, hburst⟩
  | sample | flush | stop => exact hgoes.elim
  | answer refusal =>
    obtain ⟨batch, hbatch⟩ := Option.ne_none_iff_exists'.mp hcan
    rw [hbatch] at hburst
    cases refusal with
    | some fault => exact ⟨rfl, _ :: new, congrArg _ hpast, .refused f.clock fault hburst⟩
    | none =>
      have hqueue : (f.settle (f.pipeline.acknowledge (f.unanswered.getD [])) none).pipeline.queue =
          f.pipeline.queue.consume batch.length := by rw [hbatch]; rfl
      simp only [Feed.step]
      by_cases hitems : (f.pipeline.queue.consume batch.length).items = []
      · rw [write_of_nil (hqueue ▸ hitems)]
        exact ⟨rfl, _ :: new, congrArg _ hpast, hqueue ▸ .last f.clock hburst hitems⟩
      · rw [write_of_ne_nil (hqueue ▸ hitems)]
        refine ⟨rfl, _ :: _ :: new, congrArg (_ :: _ :: ·) hpast, ?_⟩
        simp only [Pipeline.front, hqueue]
        exact .next f.clock hburst hitems

theorem Bursting.follow {n : Nat} {q : BoundedQueue Sample} {past : List Notice}
    (h : f.Bursting n q past) {acts : List Act} (hgo : ∀ a ∈ acts, GoesOn a)
    (hcan : f.CanFollow acts) : (f.follow acts).Bursting n q past := by
  induction acts generalizing f with
  | nil => exact h
  | cons a acts ih =>
    obtain ⟨ha, hacts⟩ := List.forall_mem_cons.mp hgo
    exact ih (h.step ha hcan.1) hacts hcan.2

/-- How a pipeline paces its writes. -/
structure Paced (settings : PipelineSettings) (f : Feed) : Prop where
  /-- After the `j`-th refusal in a row, no write begins before the `j`-th delay is over. -/
  spaced : Spaced settings f.past
  /-- A flush before that does nothing. -/
  waits : f.Idle → ∀ u, heldUntil settings f.past = some u → f.clock < u → f.step .flush = f
  /-- Any other flush writes the oldest samples, if there are any. -/
  resumes : f.Idle → (∀ u, heldUntil settings f.past = some u → u ≤ f.clock) →
    f.pipeline.pending ≠ 0 →
      let oldest := f.pipeline.queue.items.take (max settings.batchSize 1)
      (f.step .flush).unanswered = some oldest ∧
        (f.step .flush).past = .begun f.clock oldest :: f.past
  /-- It goes on while the sink takes batches, and ends with the first refusal or when no samples
  are left, after no more writes than there were samples. -/
  flushes : f.Idle → f.pipeline.isBlocked f.clock = false → ∀ acts : List Act,
    (∀ a ∈ acts, GoesOn a) → f.CanFollow (.flush :: acts) →
      ∃ new, (f.follow (.flush :: acts)).past = new ++ f.past ∧
        Burst (max settings.batchSize 1) f.pipeline.queue new
          (f.follow (.flush :: acts)).pipeline.queue (f.follow (.flush :: acts)).unanswered ∧
        new.countP Notice.isBegun ≤ f.pipeline.pending
  /-- The last flush of the loop does so at any time, and nothing comes after it. -/
  stops : f.Idle → ∀ acts : List Act, (∀ a ∈ acts, GoesOn a) → f.CanFollow (.stop :: acts) →
    ∃ new, (f.follow (.stop :: acts)).past = new ++ .stopped :: f.past ∧
      Burst (max settings.batchSize 1) f.pipeline.queue new
        (f.follow (.stop :: acts)).pipeline.queue (f.follow (.stop :: acts)).unanswered ∧
      new.countP Notice.isBegun ≤ f.pipeline.pending ∧ ¬ (f.follow (.stop :: acts)).Idle
  turns : f.Idle → ∀ {σ : Type} (sink : Sink σ) (s : σ) (e : Pipeline.Event),
    let r := f.pipeline.handle sink.noting f.clock (s, []) e
    ∃ acts : List Act, f.CanFollow acts ∧ f.follow acts = { f with
      pipeline := r.1
      past := (r.2.2.flatMap (noticesAt f.clock)).reverse ++ Event.mark e ++ f.past }

theorem Sound.paced (h : f.Sound settings) : f.Paced settings := by
  have hsize : f.pipeline.batchSize = max settings.batchSize 1 := by
    rw [Pipeline.batchSize, h.settings_eq]
  have hpos : 0 < max settings.batchSize 1 := Nat.le_max_right ..
  refine ⟨h.spaced, fun hidle u hu hlt ↦ ?_, fun hidle hover hpending ↦ ?_,
    fun hidle hopen acts hgo hcan ↦ ?_, fun hidle acts hgo hcan ↦ ?_,
    fun hidle σ sink s e ↦ exists_acts_handle sink hidle s e⟩
  · rcases h.held hidle with heq | ⟨-, hover⟩
    · have hblocked : f.pipeline.isBlocked f.clock = true := by
        rw [Pipeline.isBlocked, heq, hu]
        exact decide_eq_true hlt
      exact if_pos hblocked
    · exact absurd (hover u hu) (Nat.not_le_of_lt hlt)
  · have hopen : f.pipeline.isBlocked f.clock = false := by
      rcases h.held hidle with heq | ⟨hnone, -⟩
      · rw [Pipeline.isBlocked, heq]
        cases hu : heldUntil settings f.past with
        | none => rfl
        | some u => exact decide_eq_false (Nat.not_lt_of_le (hover u hu))
      · rw [Pipeline.isBlocked, hnone]
    have hitems : f.pipeline.queue.items ≠ [] := fun hnil ↦ hpending (congrArg List.length hnil)
    have hstep : f.step .flush = f.unblock.write := if_neg (Bool.eq_false_iff.mp hopen)
    have hfront : f.unblock.pipeline.front =
        f.pipeline.queue.items.take (max settings.batchSize 1) := by rw [← hsize]; rfl
    intro oldest
    rw [hstep, write_of_ne_nil (f := f.unblock) hitems, hfront]
    exact ⟨rfl, rfl⟩
  · have hstep : f.step .flush = f.unblock.write := if_neg (Bool.eq_false_iff.mp hopen)
    have hstart : (f.step .flush).Bursting (max settings.batchSize 1) f.pipeline.queue f.past := by
      rw [hstep, ← hsize]
      exact bursting_write hidle.1
    obtain ⟨-, new, hpast, hburst⟩ := hstart.follow hgo hcan.2
    exact ⟨new, hpast, hburst, (hburst.countP_le hpos).1⟩
  · have hstart : (f.step .stop).Bursting (max settings.batchSize 1) f.pipeline.queue
        (.stopped :: f.past) := by
      rw [← hsize]
      exact bursting_write (f := f.unblock.note .stopped) hidle.1
    obtain ⟨-, new, hpast, hburst⟩ := hstart.follow hgo hcan.2
    refine ⟨new, hpast, hburst, (hburst.countP_le hpos).1, fun hover ↦ hover.2 ?_⟩
    show .stopped ∈ ((f.step .stop).follow acts).past
    rw [hpast]
    exact List.mem_append_right _ (List.mem_cons_self ..)

/-- Whatever is done with a pipeline, and whenever and however its sink answers, its writes are
paced. -/
theorem paced_follow (host : String) (settings : PipelineSettings) {acts : List Act}
    (hcan : (new host settings).CanFollow acts) :
    ((new host settings).follow acts).Paced settings :=
  ((sound_new host settings).follow hcan).paced

/-- Five samples in batches of two. The second batch is refused twice, with a flush between that has
to wait, and once more where the loop is stopped. -/
def outage : List Act :=
  [.sample (some [("load", .ok (List.replicate 5 ("load.1m", .one)))]), .flush, .answer none,
    .wait (.ofMillis 40), .answer (some (.sinkWrite "refused")), .wait (.ofMillis 999), .flush,
    .wait (.ofMillis 1), .flush, .answer (some (.sinkWrite "refused")), .wait (.ofMillis 1999),
    .flush, .stop, .answer (some (.sinkWrite "refused"))]

theorem paced_outage :
    (new "oss01" { batchSize := 2, sinkInitialBackoff := 1000 }).CanFollow outage ∧
      ((new "oss01" { batchSize := 2, sinkInitialBackoff := 1000 }).follow outage).Paced
        { batchSize := 2, sinkInitialBackoff := 1000 } :=
  have hcan : (new "oss01" { batchSize := 2, sinkInitialBackoff := 1000 }).CanFollow outage := by
    decide +kernel
  ⟨hcan, paced_follow "oss01" _ hcan⟩

end Feed

end Rollout
