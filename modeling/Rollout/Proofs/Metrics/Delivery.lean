import Rollout.Metrics.Pipeline
import Rollout.Proofs.Metrics.Fates

namespace Rollout

variable {σ : Type}

def Sink.noting (sink : Sink σ) : Sink (σ × List (Happening Sample)) where
  write := fun x batch ↦
    let (refusal, s) := sink.write x.1 batch
    (refusal, (s, x.2 ++ [.written batch refusal]))

namespace Pipeline

variable {p : Pipeline} {now : Span} {round : Option (List Sampling)} {batch : List Sample}
  {batches : List (List Sample)} {sink : Sink σ} {s : σ} {past : List (Happening Sample)}

def samplesOf (p : Pipeline) (now : Span) : Sampling → List Sample
  | (subsystem, .ok readings) => readings.map (p.toSample now subsystem)
  | (_, .error _) => []

def samplesOfRound (p : Pipeline) (now : Span) (round : Option (List Sampling)) : List Sample :=
  (round.getD []).flatMap (p.samplesOf now)

def take (p : Pipeline) (samples : List Sample) : Pipeline :=
  { p with queue := p.queue.extend samples, sampled := p.sampled + samples.length }

theorem collect_eq (p : Pipeline) (now : Span) (x : Sampling) :
    ∃ errors, p.collect now x = { p.take (p.samplesOf now x) with samplerErrors := errors } := by
  obtain ⟨subsystem, fault | readings⟩ := x
  · exact ⟨p.samplerErrors + 1, rfl⟩
  · refine ⟨p.samplerErrors, ?_⟩
    simp only [collect, samplesOf, take, List.length_map]

theorem sample_eq (p : Pipeline) (now : Span) (round : Option (List Sampling)) :
    ∃ errors, p.sample now round =
      { p.take (p.samplesOfRound now round) with samplerErrors := errors } := by
  cases round with
  | none => exact ⟨p.samplerErrors + 1, rfl⟩
  | some samplings =>
    induction samplings generalizing p with
    | nil => exact ⟨p.samplerErrors, rfl⟩
    | cons x samplings ih =>
      obtain ⟨errors, hx⟩ := p.collect_eq now x
      obtain ⟨errors', hrest⟩ := ih (p.collect now x)
      refine ⟨errors', ?_⟩
      have hstart : p.sample now (some (x :: samplings)) =
          (p.collect now x).sample now (some samplings) := rfl
      rw [hstart, hrest, hx]
      simp only [take, samplesOfRound, Option.getD_some, List.flatMap_cons, BoundedQueue.extend,
        List.foldl_append, List.length_append, Nat.add_assoc]
      rfl

def fates (p : Pipeline) (past : List (Happening Sample)) : Fates Sample :=
  .ofHistory p.queue.capacity past

/-- The counts and the queue of a pipeline are those of its past. -/
structure Kept (p : Pipeline) (past : List (Happening Sample)) : Prop where
  fits : p.queue.Fits
  follow : (p.fates past).Follow p.queue
  sampled_eq : p.sampled = (p.fates past).length
  flushed_eq : p.flushed = ((p.fates past).having .delivered).length
  taken_eq : (past.filterMap Happening.taken?).flatten = (p.fates past).having .delivered

namespace Kept

theorem new (host : String) (settings : PipelineSettings) : (new host settings).Kept [] :=
  ⟨BoundedQueue.fits_empty _, .empty _, rfl, rfl, rfl⟩

theorem of_eq {p' : Pipeline} (h : p.Kept past) (hqueue : p'.queue = p.queue)
    (hsampled : p'.sampled = p.sampled) (hflushed : p'.flushed = p.flushed) : p'.Kept past := by
  have hfates : p'.fates past = p.fates past := by rw [fates, hqueue, fates]
  refine ⟨hqueue ▸ h.fits, ?_, ?_, ?_, ?_⟩
  · rw [hfates, hqueue]
    exact h.follow
  · rw [hfates, hsampled, h.sampled_eq]
  · rw [hfates, hflushed, h.flushed_eq]
  · rw [hfates, h.taken_eq]

theorem fates_append (p : Pipeline) (past : List (Happening Sample)) (m : Happening Sample) :
    p.fates (past ++ [m]) = (p.fates past).after p.queue.capacity m :=
  List.foldl_append ..

theorem takeOne (h : p.Kept past) (a : Sample) : (p.take [a]).Kept (past ++ [.produced a]) := by
  have hfates : (p.take [a]).fates (past ++ [.produced a]) =
      (p.fates past).after p.queue.capacity (.produced a) := by
    rw [fates_append]
    simp only [take, fates, BoundedQueue.capacity_extend]
  have hdelivered := h.follow.having_delivered_push p.queue.capacity a
  refine ⟨h.fits.push a, ?_, ?_, ?_, ?_⟩
  · rw [hfates]
    exact h.follow.push h.fits a
  · rw [hfates, ← List.length_map Prod.fst, Fates.map_fst_after, List.length_append,
      List.length_map, ← h.sampled_eq]
    rfl
  · rw [hfates, hdelivered]
    exact h.flushed_eq
  · rw [hfates, hdelivered, List.filterMap_append, List.flatten_append]
    exact (List.append_nil _).trans h.taken_eq

theorem take (h : p.Kept past) (samples : List Sample) :
    (p.take samples).Kept (past ++ samples.map .produced) := by
  induction samples generalizing p past with
  | nil =>
    rw [List.map_nil, List.append_nil]
    exact h.of_eq rfl rfl rfl
  | cons a samples ih =>
    have hrest := ih (h.takeOne a)
    rw [List.append_assoc] at hrest
    refine hrest.of_eq rfl ?_ rfl
    simp only [Pipeline.take, List.length_cons, List.length_nil]
    omega

theorem sample (h : p.Kept past) (now : Span) (round : Option (List Sampling)) :
    (p.sample now round).Kept (past ++ (p.samplesOfRound now round).map .produced) := by
  obtain ⟨errors, heq⟩ := p.sample_eq now round
  rw [heq]
  exact (h.take _).of_eq rfl rfl rfl

theorem acknowledge (h : p.Kept past) (hbatch : batch <+: p.queue.items) :
    (p.acknowledge batch).Kept (past ++ [.written batch none]) := by
  have hfates : (p.acknowledge batch).fates (past ++ [.written batch none]) =
      (p.fates past).settle .delivered batch.length := fates_append p past _
  have hdelivered := h.follow.having_delivered_settle batch.length
  rw [List.prefix_iff_eq_take.mp hbatch |>.symm] at hdelivered
  refine ⟨h.fits.consume _, ?_, ?_, ?_, ?_⟩
  · rw [hfates]
    exact h.follow.consume _
  · rw [hfates, ← List.length_map Prod.fst, Fates.map_fst_settle, List.length_map]
    exact h.sampled_eq
  · rw [hfates, hdelivered, List.length_append, ← h.flushed_eq]
    rfl
  · rw [hfates, hdelivered, List.filterMap_append, List.flatten_append, h.taken_eq]
    simp [Happening.taken?]

theorem refuse (h : p.Kept past) (now : Span) (batch : List Sample) (fault : Fault) :
    (p.refuse now).Kept (past ++ [.written batch (some fault)]) := by
  have hfates : (p.refuse now).fates (past ++ [.written batch (some fault)]) = p.fates past :=
    fates_append p past _
  refine ⟨h.fits, ?_, ?_, ?_, ?_⟩
  · rw [hfates]
    exact h.follow
  · rw [hfates]
    exact h.sampled_eq
  · rw [hfates]
    exact h.flushed_eq
  · rw [hfates, List.filterMap_append, ← h.taken_eq]
    simp [Happening.taken?]

theorem deliver (h : p.Kept past) (hbatches : batches.flatten <+: p.queue.items) (now : Span)
    (delivered : Nat) (s : σ) :
    (deliver sink.noting now batches delivered p (s, past)).2.1.Kept
      (deliver sink.noting now batches delivered p (s, past)).2.2.2 := by
  -- A batch that was taken has left the queue, so the other batches stand at its front again.
  induction batches generalizing p past delivered s with
  | nil => exact h
  | cons batch batches ih =>
    obtain ⟨rest, hrest⟩ := hbatches
    rw [List.flatten_cons, List.append_assoc] at hrest
    have hnext : batches.flatten <+: (p.acknowledge batch).queue.items := by
      refine ⟨rest, ?_⟩
      show _ = p.queue.items.drop batch.length
      rw [← hrest, List.drop_left]
    simp only [Pipeline.deliver, Sink.noting]
    cases hwrite : (sink.write s batch).1 with
    | none => exact ih (h.acknowledge ⟨_, hrest⟩) hnext _ _
    | some fault => exact h.refuse now batch fault

theorem flush (h : p.Kept past) (sink : Sink σ) (now : Span) (s : σ) :
    (p.flush sink.noting now (s, past)).2.1.Kept (p.flush sink.noting now (s, past)).2.2.2 := by
  unfold Pipeline.flush
  split
  · exact h
  · have hopen : ({ p with blockedUntil := none } : Pipeline).Kept past := h.of_eq rfl rfl rfl
    refine hopen.deliver ?_ now 0 s
    simp only [BoundedQueue.flatten_batches, List.prefix_rfl]

end Kept

/-- What writing leaves as it was. -/
structure Unwritten (p p' : Pipeline) : Prop where
  host_eq : p'.host = p.host
  settings_eq : p'.settings = p.settings
  capacity_eq : p'.queue.capacity = p.queue.capacity
  dropped_eq : p'.dropped = p.dropped
  sampled_eq : p'.sampled = p.sampled

theorem Unwritten.trans {p' p'' : Pipeline} (h : p.Unwritten p') (h' : p'.Unwritten p'') :
    p.Unwritten p'' where
  host_eq := h'.host_eq.trans h.host_eq
  settings_eq := h'.settings_eq.trans h.settings_eq
  capacity_eq := h'.capacity_eq.trans h.capacity_eq
  dropped_eq := h'.dropped_eq.trans h.dropped_eq
  sampled_eq := h'.sampled_eq.trans h.sampled_eq

theorem unwritten_deliver (sink : Sink σ) (now : Span) (batches : List (List Sample))
    (delivered : Nat) (p : Pipeline) (s : σ) :
    p.Unwritten (deliver sink now batches delivered p s).2.1 := by
  induction batches generalizing delivered p s with
  | nil => exact ⟨rfl, rfl, rfl, rfl, rfl⟩
  | cons batch batches ih =>
    rw [deliver]
    split
    · have hbatch : p.Unwritten (p.acknowledge batch) := ⟨rfl, rfl, rfl, rfl, rfl⟩
      exact hbatch.trans (ih ..)
    · exact ⟨rfl, rfl, rfl, rfl, rfl⟩

theorem unwritten_flush (sink : Sink σ) (now : Span) (p : Pipeline) (s : σ) :
    p.Unwritten (p.flush sink now s).2.1 := by
  unfold flush
  split
  · exact ⟨rfl, rfl, rfl, rfl, rfl⟩
  · have hopen : p.Unwritten { p with blockedUntil := none } := ⟨rfl, rfl, rfl, rfl, rfl⟩
    exact hopen.trans (unwritten_deliver ..)

theorem deliver_noting (sink : Sink σ) (now : Span) (batches : List (List Sample))
    (delivered : Nat) (p : Pipeline) (s : σ) (past : List (Happening Sample)) :
    let r := deliver sink.noting now batches delivered p (s, past)
    (r.1, r.2.1, r.2.2.1) = deliver sink now batches delivered p s := by
  induction batches generalizing delivered p s past with
  | nil => rfl
  | cons batch batches ih =>
    obtain ⟨refusal, s', hwrite⟩ : ∃ refusal s', sink.write s batch = (refusal, s') := ⟨_, _, rfl⟩
    have hnoting : sink.noting.write (s, past) batch =
        (refusal, (s', past ++ [.written batch refusal])) := by simp only [Sink.noting, hwrite]
    rw [deliver, deliver, hwrite, hnoting]
    cases refusal with
    | none => exact ih ..
    | some fault => rfl

theorem flush_noting (sink : Sink σ) (now : Span) (p : Pipeline) (s : σ)
    (past : List (Happening Sample)) :
    let r := p.flush sink.noting now (s, past)
    (r.1, r.2.1, r.2.2.1) = p.flush sink now s := by
  simp only [flush]
  split
  · rfl
  · exact deliver_noting ..

theorem handle_noting (sink : Sink σ) (now : Span) (p : Pipeline) (s : σ)
    (past : List (Happening Sample)) (e : Event) :
    let r := p.handle sink.noting now (s, past) e
    (r.1, r.2.1) = p.handle sink now s e := by
  cases e with
  | sampleTick round =>
    simp only [handle]
    split
    · exact congrArg Prod.snd (flush_noting ..)
    · rfl
  | flushTick | stop => exact congrArg Prod.snd (flush_noting ..)

theorem sample_queue_eq (h : p.queue.Fits) (now : Span) (round : Option (List Sampling)) :
    (p.sample now round).queue = { p.queue with
      items := (p.queue.items ++ p.samplesOfRound now round).drop
        (p.queue.overflow (p.samplesOfRound now round).length)
      dropped := p.queue.dropped + p.queue.overflow (p.samplesOfRound now round).length } := by
  obtain ⟨errors, heq⟩ := p.sample_eq now round
  rw [heq]
  exact h.extend_eq _

end Pipeline

/-- What can be done with a pipeline: a round of samplers, a flush, or a wait. -/
inductive Chore
  | sample (round : Option (List Sampling))
  | flush
  | wait (d : Span)

structure Watch (σ : Type) where
  pipeline : Pipeline
  sink : σ
  clock : Span := .zero
  past : List (Happening Sample) := []

namespace Watch

variable {sink : Sink σ} {w : Watch σ}

def new (host : String) (settings : PipelineSettings) (s : σ) : Watch σ where
  pipeline := .new host settings
  sink := s

def perform (sink : Sink σ) (w : Watch σ) : Chore → Watch σ
  | .sample round =>
    { w with
      pipeline := w.pipeline.sample w.clock round
      past := w.past ++ (w.pipeline.samplesOfRound w.clock round).map .produced }
  | .flush =>
    let (_, p, s, past) := w.pipeline.flush sink.noting w.clock (w.sink, w.past)
    { w with pipeline := p, sink := s, past := past }
  | .wait d => { w with clock := ⟨w.clock.nanos + d.nanos⟩ }

def follow (sink : Sink σ) (w : Watch σ) (chores : List Chore) : Watch σ :=
  chores.foldl (perform sink) w

def produced (w : Watch σ) : List Sample := w.past.filterMap Happening.product?

def taken (w : Watch σ) : List (List Sample) := w.past.filterMap Happening.taken?

/-- What has become of the samples, if so many can wait. -/
def fates (capacity : Nat) (w : Watch σ) : Fates Sample := .ofHistory (max capacity 1) w.past

/-- Every sample is accounted for. -/
structure Accounted (sink : Sink σ) (capacity : Nat) (w : Watch σ) : Prop where
  sampled_eq : w.pipeline.sampled = w.produced.length
  balance : w.pipeline.sampled = w.pipeline.flushed + w.pipeline.dropped + w.pipeline.pending
  dropped_eq : w.pipeline.dropped = ((w.fates capacity).having .dropped).length
  bounded : w.pipeline.pending ≤ max 1 capacity
  /-- The samples that wait are the latest ones. -/
  latest : w.pipeline.queue.items = w.produced.drop (w.produced.length - w.pipeline.pending)
  complete : (w.fates capacity).map Prod.fst = w.produced
  /-- The sink has taken those that were delivered, each once. -/
  once : w.taken.flatten = (w.fates capacity).having .delivered
  /-- In the order of production, none is left out but those that were dropped. -/
  in_order : w.taken.flatten ++ w.pipeline.queue.items =
    ((w.fates capacity).filter fun e ↦ e.2 ≠ .dropped).map Prod.fst
  /-- Of the samples that wait and those that come, the oldest are dropped, as many as do not
  fit. -/
  sampling : ∀ round, let new := w.pipeline.samplesOfRound w.clock round
    let excess := w.pipeline.pending + new.length - max 1 capacity
    (w.perform sink (.sample round)).pipeline.queue.items =
        (w.pipeline.queue.items ++ new).drop excess ∧
      (w.perform sink (.sample round)).pipeline.dropped = w.pipeline.dropped + excess
  otherwise : (∀ d, (w.perform sink (.wait d)).pipeline = w.pipeline) ∧
    (w.perform sink .flush).pipeline.dropped = w.pipeline.dropped

structure Sound (capacity : Nat) (w : Watch σ) : Prop where
  kept : w.pipeline.Kept w.past
  capacity_eq : w.pipeline.queue.capacity = max capacity 1

theorem Sound.perform {capacity : Nat} (h : w.Sound capacity) (chore : Chore) :
    (w.perform sink chore).Sound capacity := by
  cases chore with
  | sample round =>
    refine ⟨h.kept.sample w.clock round, ?_⟩
    show (w.pipeline.sample w.clock round).queue.capacity = _
    rw [Pipeline.sample_queue_eq h.kept.fits]
    exact h.capacity_eq
  | flush =>
    exact ⟨h.kept.flush sink w.clock w.sink,
      (Pipeline.unwritten_flush ..).capacity_eq.trans h.capacity_eq⟩
  | wait d => exact ⟨h.kept, h.capacity_eq⟩

theorem Sound.follow {capacity : Nat} (h : w.Sound capacity) (chores : List Chore) :
    (w.follow sink chores).Sound capacity := by
  induction chores generalizing w with
  | nil => exact h
  | cons chore chores ih => exact ih (h.perform chore)

theorem Sound.accounted {capacity : Nat} (h : w.Sound capacity) : w.Accounted sink capacity := by
  have hfates : w.pipeline.fates w.past = w.fates capacity := by
    rw [Pipeline.fates, h.capacity_eq, fates]
  have hcapacity : w.pipeline.queue.capacity = max 1 capacity :=
    h.capacity_eq.trans (Nat.max_comm ..)
  obtain ⟨⟨hfits, hfollow, hsampled, hflushed, htaken⟩, -⟩ := h
  rw [hfates] at hfollow hsampled hflushed htaken
  have hcomplete : (w.fates capacity).map Prod.fst = w.produced := Fates.map_fst_ofHistory ..
  have hlen : (w.fates capacity).length = w.produced.length := by
    rw [← hcomplete, List.length_map]
  refine ⟨hsampled.trans hlen, ?_, hfollow.dropped_eq, hcapacity ▸ hfits.size_le, ?_, hcomplete,
    htaken, ?_, fun round ↦ ?_, fun d ↦ rfl, (Pipeline.unwritten_flush ..).dropped_eq⟩
  · calc w.pipeline.sampled = (w.fates capacity).length := hsampled
      _ = ((w.fates capacity).having .delivered).length +
          ((w.fates capacity).having .dropped).length +
          ((w.fates capacity).having .waiting).length := Fates.length_eq
      _ = w.pipeline.flushed + w.pipeline.dropped + w.pipeline.pending := by
          rw [← hflushed, ← hfollow.dropped_eq, hfollow.having_waiting]
          rfl
  · rw [← hcomplete, List.length_map]
    exact hfollow.items_eq
  · rw [taken, htaken]
    exact hfollow.having_delivered_append
  · have hqueue := Pipeline.sample_queue_eq hfits w.clock round
    simp only [BoundedQueue.overflow, hcapacity] at hqueue
    exact ⟨congrArg BoundedQueue.items hqueue, congrArg BoundedQueue.dropped hqueue⟩

/-- Whatever is done with a pipeline, each of its samples is accounted for. -/
theorem accounted_follow (host : String) (settings : PipelineSettings) (sink : Sink σ) (s : σ)
    (chores : List Chore) :
    ((new host settings s).follow sink chores).Accounted sink settings.bufferCapacity :=
  Sound.accounted (Sound.follow ⟨.new host settings, rfl⟩ chores)

end Watch

end Rollout
