import Rollout.Proofs.Remote.Breakers
import Rollout.Proofs.Remote.Capacity

namespace Rollout

/-- Whether a host is fenced off at a time, by its failures since it last answered. A clock that goes
back counts as one that stands still. -/
def Breaker.Fences (threshold : UInt32) (cooldown : Span) (failed : List UInt64) (now : UInt64) :
    Prop :=
  max threshold.toNat 1 ≤ failed.length ∧
    ∃ last, failed.head? = some last ∧ now.toNat - last.toNat < cooldown.millis

theorem Breaker.millis_hearAll_new {threshold : UInt32} {cooldown : Span}
    (hcool : cooldown.millis < word64) (ms : List (Option UInt64)) :
    ((Breaker.new threshold cooldown).hearAll ms).cooldownMillis.toNat = cooldown.millis := by
  rw [toNat_cooldownMillis_hearAll]
  exact Nat.mod_eq_of_lt hcool

theorem Breaker.opened_iff_fences {threshold : UInt32} {cooldown : Span}
    {ms : List (Option UInt64)} (now : UInt64) (hcool : cooldown.millis < word64)
    (hfew : (streak ms).length < word32) :
    ((Breaker.new threshold cooldown).hearAll ms).state now = .opened ↔
      Fences threshold cooldown (streak ms) now := by
  rw [state_eq_opened_iff, threshold_hearAll, toNat_threshold_new, failures_hearAll rfl,
    Nat.mod_eq_of_lt hfew, millis_hearAll_new hcool]
  refine and_congr_right fun hmany ↦ ?_
  have hfailed : 0 < (streak ms).length := by omega
  obtain ⟨last, hlast, hlatest⟩ := exists_lastFailure hfailed
  rw [hlast, hlatest]
  simp

def Breaker.fenceFault (host : String) (cooldown : Span) (failed : List UInt64) (now : UInt64) :
    Fault :=
  .connect host ("host fenced after " ++ Text.decimal failed.length ++
    " connect failures, next attempt in " ++
    Text.decimal (cooldown.millis - (now.toNat - (failed.head?.getD 0).toNat)) ++ "ms")

theorem Guard.fencedFault_eq {threshold : UInt32} {cooldown : Span} {ms : List (Option UInt64)}
    {now : UInt64} (host : String) (hcool : cooldown.millis < word64)
    (hfew : (Breaker.streak ms).length < word32)
    (h : Breaker.Fences threshold cooldown (Breaker.streak ms) now) :
    fencedFault host ((Breaker.new threshold cooldown).hearAll ms) now =
      Breaker.fenceFault host cooldown (Breaker.streak ms) now := by
  obtain ⟨last, hlast, -⟩ := h.2
  rw [fencedFault, Breaker.fenceFault, Breaker.failures_hearAll rfl, Nat.mod_eq_of_lt hfew,
    Breaker.toNat_untilRetry ((Breaker.opened_iff_fences now hcool hfew).mpr h),
    Breaker.millis_hearAll_new hcool, Breaker.lastFailure_hearAll hlast, hlast, Option.getD_some]

/-- A call on its own: when it arrives, when its operation begins and ends if it is carried out, and
what it then comes to. -/
structure Visit (τ : Type) where
  name : τ
  arrival : UInt64
  beginning : UInt64
  ending : UInt64
  reply : Reply

namespace Traffic

variable {τ : Type} [DecidableEq τ]

def itinerary (calls : τ → Call) (x : Traffic τ) (v : Visit τ) : List (Passage τ) :=
  match x.guard.refusal? v.arrival (calls v.name).host with
  | some _ => [.asks v.arrival v.name]
  | none =>
    [.asks v.arrival v.name, .enters v.name, .begins v.beginning v.name,
      .answered v.ending v.name v.reply, .leaves v.name v.reply]

def visit (calls : τ → Call) (x : Traffic τ) (v : Visit τ) : Traffic τ :=
  x.follow calls (x.itinerary calls v)

def visitAll (calls : τ → Call) (x : Traffic τ) (vs : List (Visit τ)) : Traffic τ :=
  vs.foldl (visit calls) x

structure Idle (x : Traffic τ) : Prop where
  limit_pos : 0 < x.guard.limit
  running : x.guard.running = []
  waiting : x.guard.waiting = []
  underWay : x.underWay = []
  answered : x.answered = []

variable {calls : τ → Call} {x : Traffic τ} {v : Visit τ} {host : String} {now : UInt64}

theorem visit_of_refusal {fault : Fault}
    (h : x.guard.refusal? v.arrival (calls v.name).host = some fault) :
    x.visit calls v = { x with
      asked := v.name :: x.asked, returned := (v.name, .error fault) :: x.returned
      past := .asks v.arrival v.name :: x.past } := by
  simp only [visit, itinerary, h, follow, List.foldl_cons, List.foldl_nil, step, move]

theorem visit_of_none (hidle : x.Idle)
    (h : x.guard.refusal? v.arrival (calls v.name).host = none) :
    x.visit calls v = { x with
      guard := x.guard.record v.ending (calls v.name).host v.reply
      asked := v.name :: x.asked, entries := x.entries ++ [v.name]
      placed := x.placed ++ [v.name], released := v.name :: x.released
      returned := (v.name, v.reply) :: x.returned
      past := [.leaves v.name v.reply, .answered v.ending v.name v.reply,
        .begins v.beginning v.name, .enters v.name, .asks v.arrival v.name] ++ x.past } := by
  have henter : x.guard.enter v.name = ({ x.guard with running := [v.name] }, true) := by
    rw [Guard.enter_of_lt (by rw [hidle.running]; exact hidle.limit_pos), hidle.running]
    rfl
  have hleave : (({ x.guard with running := [v.name] } : Guard τ).record v.ending
      (calls v.name).host v.reply).release v.name =
        (x.guard.record v.ending (calls v.name).host v.reply, none) := by
    rw [Guard.record_running, Guard.release_of_nil (by simpa using hidle.waiting)]
    have hrunning : (x.guard.record v.ending (calls v.name).host v.reply).running = [] := by
      rw [Guard.running_record, hidle.running]
    generalize x.guard.record v.ending (calls v.name).host v.reply = g at hrunning
    cases g
    simp_all
  simp only [visit, itinerary, h, follow, List.foldl_cons, List.foldl_nil, step, move, henter,
    leaveGuard, hleave]
  simp

theorem Idle.visit (hidle : x.Idle) : (x.visit calls v).Idle := by
  cases h : x.guard.refusal? v.arrival (calls v.name).host with
  | some fault =>
    rw [visit_of_refusal h]
    exact ⟨hidle.limit_pos, hidle.running, hidle.waiting, hidle.underWay, hidle.answered⟩
  | none =>
    rw [visit_of_none hidle h]
    constructor
    · simpa using hidle.limit_pos
    · simpa using hidle.running
    · simpa using hidle.waiting
    · exact hidle.underWay
    · exact hidle.answered

theorem Idle.visitAll (hidle : x.Idle) (vs : List (Visit τ)) : (x.visitAll calls vs).Idle := by
  induction vs generalizing x with
  | nil => exact hidle
  | cons v vs ih => exact ih hidle.visit

theorem asked_visit (hidle : x.Idle) : (x.visit calls v).asked = v.name :: x.asked := by
  cases h : x.guard.refusal? v.arrival (calls v.name).host with
  | some fault => rw [visit_of_refusal h]
  | none => rw [visit_of_none hidle h]

theorem asked_visitAll (hidle : x.Idle) (vs : List (Visit τ)) :
    (x.visitAll calls vs).asked = (vs.map Visit.name).reverse ++ x.asked := by
  induction vs generalizing x with
  | nil => rfl
  | cons v vs ih =>
    show ((x.visit calls v).visitAll calls vs).asked = _
    rw [ih hidle.visit, asked_visit hidle, List.map_cons, List.reverse_cons, List.append_assoc]
    rfl

theorem canFollow_itinerary (hidle : x.Idle) (hfresh : v.name ∉ x.asked) :
    x.CanFollow calls (x.itinerary calls v) := by
  cases h : x.guard.refusal? v.arrival (calls v.name).host with
  | some fault =>
    rw [itinerary, h]
    exact ⟨hfresh, trivial⟩
  | none =>
    have henter : x.guard.enter v.name = ({ x.guard with running := [v.name] }, true) := by
      rw [Guard.enter_of_lt (by rw [hidle.running]; exact hidle.limit_pos), hidle.running]
      rfl
    rw [itinerary, h]
    refine ⟨hfresh, ?_, ?_, ?_, ?_, trivial⟩ <;>
      simp [CanStep, step, move, h, henter, hidle.underWay, hidle.answered]

theorem reached_visitAll {g : Guard τ} (hidle : x.Idle) (h : Reached calls g x)
    {vs : List (Visit τ)} (hnames : (vs.map Visit.name).Nodup)
    (hfresh : ∀ v ∈ vs, v.name ∉ x.asked) : Reached calls g (x.visitAll calls vs) := by
  induction vs generalizing x with
  | nil => exact h
  | cons v vs ih =>
    rw [List.map_cons, List.nodup_cons] at hnames
    have hcan : x.CanFollow calls (x.itinerary calls v) :=
      canFollow_itinerary hidle (hfresh v List.mem_cons_self)
    refine ih hidle.visit (h.follow hcan) hnames.2 fun w hw ↦ ?_
    rw [asked_visit hidle, List.mem_cons, not_or]
    exact ⟨fun heq ↦ hnames.1 (heq ▸ List.mem_map_of_mem hw),
      hfresh w (List.mem_cons_of_mem v hw)⟩

theorem breaker_visit (hidle : x.Idle) : (x.visit calls v).guard.breaker host =
    if (calls v.name).host = host ∧ x.guard.refusal? v.arrival host = none then
      (Breaker.news? v.ending v.reply).elim (x.guard.breaker host) (x.guard.breaker host).hear
    else x.guard.breaker host := by
  cases h : x.guard.refusal? v.arrival (calls v.name).host with
  | some fault =>
    rw [visit_of_refusal h, if_neg]
    rintro ⟨rfl, hnone⟩
    rw [h] at hnone
    cases hnone
  | none =>
    rw [visit_of_none hidle h]
    refine Guard.breaker_record.trans ?_
    by_cases hhost : (calls v.name).host = host
    · rw [if_pos hhost, if_pos ⟨hhost, hhost ▸ h⟩]
    · rw [if_neg hhost, if_neg fun hboth ↦ hhost hboth.1]

theorem breaker_visitAll_congr {y : Traffic τ} (hx : x.Idle) (hy : y.Idle)
    (h : x.guard.breaker host = y.guard.breaker host) (vs : List (Visit τ)) :
    (x.visitAll calls vs).guard.breaker host = (y.visitAll calls vs).guard.breaker host := by
  -- What a call does to the breaker of a host depends on that breaker alone.
  induction vs generalizing x y with
  | nil => exact h
  | cons v vs ih =>
    refine ih hx.visit hy.visit ?_
    rw [breaker_visit hx, breaker_visit hy, h, Guard.refusal?_congr h]

def failed (calls : τ → Call) (host : String) (x : Traffic τ) : List UInt64 :=
  Breaker.streak (x.news calls host)

def FindsFenced (calls : τ → Call) (threshold : UInt32) (cooldown : Span) (x : Traffic τ)
    (v : Visit τ) : Prop :=
  Breaker.Fences threshold cooldown (x.failed calls (calls v.name).host) v.arrival

/-- What becomes of a call that comes on its own, after others. -/
structure Judged (calls : τ → Call) (threshold : UInt32) (cooldown : Span) (x : Traffic τ)
    (v : Visit τ) : Prop where
  possible : x.CanFollow calls (x.itinerary calls v)
  /-- The operation is carried out unless the host is fenced off. -/
  begins_iff : .begins v.beginning v.name ∈ (x.visit calls v).past ↔
    ¬x.FindsFenced calls threshold cooldown v
  rejected : x.FindsFenced calls threshold cooldown v → x.visit calls v = { x with
    asked := v.name :: x.asked
    returned := (v.name, .error (Breaker.fenceFault (calls v.name).host cooldown
      (x.failed calls (calls v.name).host) v.arrival)) :: x.returned
    past := .asks v.arrival v.name :: x.past }
  admitted : ¬x.FindsFenced calls threshold cooldown v →
    (x.visit calls v).returned = (v.name, v.reply) :: x.returned
  /-- The call is of no consequence to later calls to a host if it is turned away, if it fails in
  another way than to connect, or if it is to another host. -/
  forgotten : ∀ host, x.FindsFenced calls threshold cooldown v ∨
      (∃ fault, v.reply = .error fault ∧ fault.isConnect = false) ∨ (calls v.name).host ≠ host →
    ∀ ws now, ((x.visit calls v).visitAll calls ws).guard.refusal? now host =
      (x.visitAll calls ws).guard.refusal? now host

variable {maxInFlight : Nat} {threshold : UInt32} {cooldown : Span}

theorem Reached.refusal?_eq (hcool : cooldown.millis < word64)
    (h : Reached calls (.new maxInFlight threshold cooldown) x)
    (hfew : (x.failed calls host).length < word32) :
    (Breaker.Fences threshold cooldown (x.failed calls host) now →
      x.guard.refusal? now host =
        some (Breaker.fenceFault host cooldown (x.failed calls host) now)) ∧
    (¬Breaker.Fences threshold cooldown (x.failed calls host) now →
      x.guard.refusal? now host = none) := by
  have hbreaker : _ = (Breaker.new threshold cooldown).hearAll _ := h.breaker_eq host
  have hopened : (x.guard.breaker host).state now = .opened ↔
      Breaker.Fences threshold cooldown (x.failed calls host) now := by
    rw [hbreaker]
    exact Breaker.opened_iff_fences now hcool hfew
  refine ⟨fun hfences ↦ ?_, fun hopen ↦ Guard.refusal?_eq_none_iff.mpr (mt hopened.mp hopen)⟩
  rw [Guard.refusal?_of_opened (hopened.mpr hfences), hbreaker]
  exact congrArg some (Guard.fencedFault_eq host hcool hfew hfences)

theorem judged_of_idle (hcool : cooldown.millis < word64)
    (hreached : Reached calls (.new maxInFlight threshold cooldown) x) (hidle : x.Idle)
    (hfresh : v.name ∉ x.asked) (hfew : (x.failed calls (calls v.name).host).length < word32) :
    x.Judged calls threshold cooldown v := by
  obtain ⟨hrefused, hnone⟩ := hreached.refusal?_eq hcool hfew
  refine ⟨canFollow_itinerary hidle hfresh, ?_, fun h ↦ visit_of_refusal (hrefused h),
    fun h ↦ by rw [visit_of_none hidle (hnone h)], ?_⟩
  · by_cases h : x.FindsFenced calls threshold cooldown v
    · rw [visit_of_refusal (hrefused h)]
      have hnever : .begins v.beginning v.name ∉ x.past :=
        fun hmem ↦ hfresh (hreached.asked_of_begun (.new ..) hmem)
      simp [h, hnever]
    · rw [visit_of_none hidle (hnone h)]
      simp [h]
  · intro host hreason ws now
    refine Guard.refusal?_congr (breaker_visitAll_congr hidle.visit hidle ?_ ws)
    rw [breaker_visit hidle]
    split
    · rename_i h
      obtain ⟨rfl, h⟩ := h
      rcases hreason with hfenced | ⟨fault, hreply, hother⟩ | hhost
      · rw [hrefused hfenced] at h
        cases h
      · rw [hreply, Breaker.news?, hother]
        rfl
      · exact absurd rfl hhost
    · rfl

/-- After any calls that overlap with no other, the guard judges the next one by the failures of its
host alone. -/
theorem judged_visitAll (hcool : cooldown.millis < word64) {vs : List (Visit τ)} {v : Visit τ}
    (hnames : ((vs ++ [v]).map Visit.name).Nodup)
    (hfew : (failed calls (calls v.name).host (visitAll calls
      { guard := .new maxInFlight threshold cooldown } vs)).length < word32) :
    Judged calls threshold cooldown
      (visitAll calls { guard := .new maxInFlight threshold cooldown } vs) v := by
  have hnew : Idle ({ guard := .new maxInFlight threshold cooldown } : Traffic τ) :=
    ⟨Nat.lt_of_lt_of_le Nat.zero_lt_one (Nat.le_max_right ..), rfl, rfl, rfl, rfl⟩
  rw [List.map_append, List.map_singleton, List.nodup_append_comm, List.singleton_append,
    List.nodup_cons] at hnames
  have hfresh : v.name ∉
      (visitAll calls { guard := .new maxInFlight threshold cooldown } vs).asked := by
    rw [asked_visitAll hnew]
    simpa using hnames.1
  exact judged_of_idle hcool (reached_visitAll hnew .start hnames.2 fun _ _ ↦ List.not_mem_nil)
    (hnew.visitAll vs) hfresh hfew

def toEither (t : Nat) : Call := toHost (if t = 1 then "oss03" else "oss02") t

def outage : List (Visit Nat) :=
  [⟨0, 0, 0, 10, .error (.connect "oss02" "connection refused")⟩,
    ⟨1, 10, 10, 20, .ok { exitCode := 0, stdout := "", stderr := "" }⟩,
    ⟨2, 20, 20, 30, .error (.timeout "oss02" (.ofSeconds 5))⟩,
    ⟨3, 30, 30, 40, .error (.connect "oss02" "connection refused")⟩]

def latecomer : Visit Nat := ⟨4, 50, 50, 60, .error (.timeout "oss02" (.ofSeconds 5))⟩

theorem judged_outage :
    ((outage ++ [latecomer]).map Visit.name).Nodup ∧
    failed toEither "oss02"
      (visitAll toEither { guard := .new 4 2 (.ofSeconds 60) } outage) = [40, 10] ∧
    Breaker.Fences 2 (.ofSeconds 60) [40, 10] latecomer.arrival ∧
    Judged toEither 2 (.ofSeconds 60)
      (visitAll toEither { guard := .new 4 2 (.ofSeconds 60) } outage) latecomer :=
  ⟨by decide, by decide, ⟨by decide, 40, by decide, by decide⟩,
    judged_visitAll (by decide) (by decide) (by decide)⟩

end Traffic

end Rollout
