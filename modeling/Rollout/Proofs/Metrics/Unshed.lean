import Rollout.Proofs.Metrics.Delivery

namespace Rollout

variable {σ : Type}

/-- In the states `P` a sink takes what it gets, and it comes to no others. -/
def Sink.Takes (sink : Sink σ) (P : σ → Prop) : Prop :=
  ∀ s, P s → ∀ batch, (sink.write s batch).1 = none ∧ P (sink.write s batch).2

theorem Sink.Takes.noting {sink : Sink σ} {P : σ → Prop} (h : sink.Takes P) :
    sink.noting.Takes fun x ↦ P x.1 := fun x hx batch ↦ h x.1 hx batch

theorem MemorySink.takes : MemorySink.sink.Takes fun m ↦ m.failing = false := by
  intro m hm batch
  simp [MemorySink.sink, MemorySink.write, hm]

namespace Pipeline

variable {sink : Sink σ} {P : σ → Prop} {s : σ} {p : Pipeline} {now : Span}

/-- Writing empties the queue of what was to be written, without a failure. -/
structure Cleared (p p' : Pipeline) (n : Nat) : Prop where
  items_eq : p'.queue.items = p.queue.items.drop n
  blockedUntil_eq : p'.blockedUntil = p.blockedUntil
  failedWrites_eq : p'.failedWrites = p.failedWrites

theorem cleared_deliver (hsink : sink.Takes P) (hs : P s) (now : Span)
    (batches : List (List Sample)) (delivered : Nat) (p : Pipeline) :
    p.Cleared (deliver sink now batches delivered p s).2.1 batches.flatten.length ∧
      P (deliver sink now batches delivered p s).2.2 := by
  induction batches generalizing delivered p s with
  | nil => exact ⟨⟨rfl, rfl, rfl⟩, hs⟩
  | cons batch batches ih =>
    obtain ⟨htakes, hnext⟩ := hsink s hs batch
    obtain ⟨⟨hitems, hblocked, hfailed⟩, hP⟩ :=
      ih hnext (delivered + batch.length) (p.acknowledge batch)
    have hdeliver : deliver sink now (batch :: batches) delivered p s =
        deliver sink now batches (delivered + batch.length) (p.acknowledge batch)
          (sink.write s batch).2 := by
      rw [deliver]
      split
      · rename_i hwrite
        rw [hwrite]
      · rename_i hwrite
        rw [hwrite] at htakes
        cases htakes
    rw [hdeliver]
    refine ⟨⟨?_, hblocked, hfailed⟩, hP⟩
    rw [hitems, List.flatten_cons, List.length_append]
    exact List.drop_drop

theorem cleared_flush (hsink : sink.Takes P) (hs : P s) (now : Span)
    (hopen : p.blockedUntil = none) :
    p.Cleared (p.flush sink now s).2.1 p.pending ∧ P (p.flush sink now s).2.2 := by
  have hnow : p.isBlocked now = false := by rw [isBlocked, hopen]
  have hsame : ({ p with blockedUntil := none } : Pipeline) = p := by rw [← hopen]
  have hlen : (p.queue.batches p.batchSize).flatten.length = p.pending :=
    congrArg List.length (BoundedQueue.flatten_batches ..)
  rw [flush, hnow, if_neg Bool.false_ne_true, hsame, ← hlen]
  exact cleared_deliver hsink hs now _ 0 p

def given : Sampling → List Reading
  | (_, .ok readings) => readings
  | (_, .error _) => []

theorem length_samplesOf (x : Sampling) : (p.samplesOf now x).length = (given x).length := by
  obtain ⟨subsystem, fault | readings⟩ := x
  · rfl
  · exact List.length_map _

def Event.count : Event → Nat
  | .sampleTick round => ((round.getD []).flatMap given).length
  | _ => 0

def samplesAt (p : Pipeline) (now : Span) : Event → List Sample
  | .sampleTick round => p.samplesOfRound now round
  | _ => []

theorem length_samplesAt (e : Event) : (p.samplesAt now e).length = e.count := by
  cases e with
  | sampleTick round =>
    rw [samplesAt, samplesOfRound, List.length_flatMap, Event.count, List.length_flatMap]
    exact congrArg List.sum (List.map_congr_left fun x _ ↦ length_samplesOf x)
  | flushTick | stop => rfl

end Pipeline

open Pipeline (Event)

namespace Watch

variable {sink : Sink σ} {P : σ → Prop} {w : Watch σ} {now : Span} {capacity most : Nat}

def turn (sink : Sink σ) (now : Span) (e : Event) (w : Watch σ) : Watch σ :=
  let (p, s, past) := w.pipeline.handle sink.noting now
    (w.sink, w.past ++ (w.pipeline.samplesAt now e).map .produced) e
  { pipeline := p, sink := s, clock := now, past := past }

/-- The loop on the events that its timers and a stop bring, until it is stopped. The timers
themselves are left out: `Pipeline.CanRun` says when they can be set. Without time between its ticks,
or with a first flush tick that the clock cannot show, the loop breaks off before any event. -/
def run (sink : Sink σ) : List (Span × Event) → Watch σ → Watch σ
  | [], w => w
  | (now, .stop) :: _, w => w.turn sink now .stop
  | (now, e) :: es, w => run sink es (w.turn sink now e)

theorem turn_eq (sink : Sink σ) (now : Span) (e : Event) (w : Watch σ) :
    ((w.turn sink now e).pipeline, (w.turn sink now e).sink) =
      w.pipeline.handle sink now w.sink e :=
  Pipeline.handle_noting ..

def atTime (now : Span) (w : Watch σ) : Watch σ := { w with clock := now }

theorem turn_sampleTick (round : Option (List Sampling)) :
    w.turn sink now (.sampleTick round) =
      let w' := (w.atTime now).perform sink (.sample round)
      if w'.pipeline.settings.batchSize ≤ w'.pipeline.pending then w'.perform sink .flush
      else w' := by
  simp only [turn, Pipeline.handle]
  split
  · rename_i h
    exact (if_pos h).symm
  · rename_i h
    exact (if_neg h).symm

theorem turn_flushTick : w.turn sink now .flushTick = (w.atTime now).perform sink .flush := by
  simp [turn, Pipeline.handle, Pipeline.samplesAt, perform, Watch.atTime]

/-- Nothing has been dropped or refused. -/
structure Flowing (P : σ → Prop) (settings : PipelineSettings) (w : Watch σ) : Prop where
  sound : w.Sound settings.bufferCapacity
  takes : P w.sink
  settings_eq : w.pipeline.settings = settings
  open_eq : w.pipeline.blockedUntil = none
  dropped_eq : w.pipeline.dropped = 0
  failedWrites_eq : w.pipeline.failedWrites = 0

theorem turn_stop (hopen : w.pipeline.blockedUntil = none) :
    w.turn sink now .stop = (w.atTime now).perform sink .flush := by
  have hsame : ({ w.pipeline with blockedUntil := none } : Pipeline) = w.pipeline := by
    rw [← hopen]
  simp [turn, Pipeline.handle, Pipeline.samplesAt, perform, Watch.atTime, hsame]

namespace Flowing

variable {settings : PipelineSettings}

theorem new (host : String) (settings : PipelineSettings) {s : σ} (hs : P s) :
    (Watch.new host settings s).Flowing P settings :=
  ⟨⟨.new host settings, rfl⟩, hs, rfl, rfl, rfl, rfl⟩

theorem atTime (h : w.Flowing P settings) (now : Span) : (w.atTime now).Flowing P settings :=
  ⟨⟨h.sound.kept, h.sound.capacity_eq⟩, h.takes, h.settings_eq, h.open_eq, h.dropped_eq,
    h.failedWrites_eq⟩

theorem sample (sink : Sink σ) (h : w.Flowing P settings) (round : Option (List Sampling))
    (hroom : w.pipeline.pending + (Event.sampleTick round).count ≤ max 1 settings.bufferCapacity) :
    (w.perform sink (.sample round)).Flowing P settings ∧
      (w.perform sink (.sample round)).pipeline.pending =
        w.pipeline.pending + (Event.sampleTick round).count := by
  have hlen : (w.pipeline.samplesOfRound w.clock round).length = (Event.sampleTick round).count :=
    Pipeline.length_samplesAt (.sampleTick round)
  have haccounted : w.Accounted sink settings.bufferCapacity := h.sound.accounted
  obtain ⟨hitems, hdropped⟩ := haccounted.sampling round
  rw [hlen, Nat.sub_eq_zero_of_le hroom] at hitems hdropped
  obtain ⟨errors, heq⟩ := w.pipeline.sample_eq w.clock round
  refine ⟨⟨h.sound.perform _, h.takes, ?_, ?_, hdropped.trans h.dropped_eq, ?_⟩, ?_⟩
  · simp only [perform, heq]
    exact h.settings_eq
  · simp only [perform, heq]
    exact h.open_eq
  · simp only [perform, heq]
    exact h.failedWrites_eq
  · rw [← hlen]
    exact (congrArg List.length hitems).trans List.length_append

theorem flush (hsink : sink.Takes P) (h : w.Flowing P settings) :
    (w.perform sink .flush).Flowing P settings ∧
      (w.perform sink .flush).pipeline.pending = 0 := by
  obtain ⟨⟨hitems, hblocked, hfailed⟩, hP⟩ := Pipeline.cleared_flush hsink.noting
    (show P (w.sink, w.past).1 from h.takes) w.clock h.open_eq
  have hframe := Pipeline.unwritten_flush sink.noting w.clock w.pipeline (w.sink, w.past)
  refine ⟨⟨h.sound.perform _, hP, hframe.settings_eq.trans h.settings_eq,
    hblocked.trans h.open_eq, hframe.dropped_eq.trans h.dropped_eq,
    hfailed.trans h.failedWrites_eq⟩, ?_⟩
  calc (w.perform sink .flush).pipeline.pending
      = (w.pipeline.queue.items.drop w.pipeline.pending).length := congrArg List.length hitems
    _ = 0 := by rw [List.length_drop]; exact Nat.sub_self _

theorem turn (hsink : sink.Takes P)
    (hroom : max settings.batchSize 1 - 1 + most ≤ max settings.bufferCapacity 1)
    (h : w.Flowing P settings) (hfew : w.pipeline.pending < max settings.batchSize 1) {e : Event}
    (he : e.count ≤ most) :
    (w.turn sink now e).Flowing P settings ∧
      (w.turn sink now e).pipeline.pending < max settings.batchSize 1 := by
  have hnow := h.atTime now
  cases e with
  | sampleTick round =>
    have hfits : w.pipeline.pending + (Event.sampleTick round).count ≤
        max 1 settings.bufferCapacity := by omega
    obtain ⟨hsampled, hpending⟩ := hnow.sample sink round hfits
    rw [turn_sampleTick]
    simp only
    split
    · obtain ⟨hflushed, hzero⟩ := hsampled.flush hsink
      exact ⟨hflushed, by omega⟩
    · rename_i hless
      rw [hsampled.settings_eq] at hless
      exact ⟨hsampled, by omega⟩
  | flushTick =>
    obtain ⟨hflushed, hzero⟩ := hnow.flush hsink
    rw [turn_flushTick]
    exact ⟨hflushed, by omega⟩
  | stop =>
    obtain ⟨hflushed, hzero⟩ := hnow.flush hsink
    rw [turn_stop h.open_eq]
    exact ⟨hflushed, by omega⟩

theorem run (hsink : sink.Takes P)
    (hroom : max settings.batchSize 1 - 1 + most ≤ max settings.bufferCapacity 1)
    {es : List (Span × Event)} (hes : ∀ x ∈ es, x.2.count ≤ most) (h : w.Flowing P settings)
    (hfew : w.pipeline.pending < max settings.batchSize 1) :
    (w.run sink es).Flowing P settings ∧
      ((∃ x ∈ es, x.2 = .stop) → (w.run sink es).pipeline.pending = 0) := by
  -- Only the last turn has to leave nothing: `stop` flushes whatever is below a batch.
  fun_induction Watch.run sink es w with
  | case1 w => exact ⟨h, fun ⟨_, hx, _⟩ ↦ absurd hx List.not_mem_nil⟩
  | case2 now es w =>
    obtain ⟨hflushed, hzero⟩ := (h.atTime now).flush hsink
    rw [turn_stop h.open_eq]
    exact ⟨hflushed, fun _ ↦ hzero⟩
  | case3 now e es w hgo ih =>
    obtain ⟨he, hrest⟩ := List.forall_mem_cons.mp hes
    obtain ⟨hnext, hless⟩ := h.turn hsink hroom hfew he
    obtain ⟨hend, hstop⟩ := ih hrest hnext hless
    refine ⟨hend, fun ⟨x, hx, heq⟩ ↦ ?_⟩
    rcases List.mem_cons.mp hx with rfl | hx
    · exact absurd heq hgo
    · exact hstop ⟨x, hx, heq⟩

end Flowing

def rounds : List (Span × Event) :=
  [(.ofSeconds 0, .sampleTick (some [("load", .ok [("load.1m", .one), ("load.5m", .one)])])),
    (.ofSeconds 1, .sampleTick
      (some [("load", .ok [("load.1m", .one)]), ("pfs", .error (.other ""))])),
    (.ofSeconds 2, .sampleTick (some [("load", .ok [("load.1m", .one), ("load.5m", .one)])])),
    (.ofSeconds 3, .sampleTick none), (.ofSeconds 4, .flushTick), (.ofSeconds 5, .stop)]

end Watch

end Rollout
