import Rollout.Cluster.Host
import Rollout.Proofs.Cluster.Role
import Rollout.Proofs.Document.Records
import Rollout.Proofs.Time.Moment
import Rollout.Run.ReportJson

namespace Rollout

open Json (Kept present)

theorem Role.ofName?_name (r : Role) : ofName? r.name = some r := by cases r <;> rfl

theorem Status.ofName?_name (s : Status) : ofName? s.name = some s := by cases s <;> rfl

theorem StepKind.ofName?_name (k : StepKind) : ofName? k.name = some k := by cases k <;> rfl

theorem AgentHealth.ofName?_name (a : AgentHealth) : ofName? a.name = some a := by cases a <;> rfl

theorem Moment.kept {t : Moment} (h : t.IsExisting) : Kept toJson ofJson? t :=
  ⟨.string _, nofun, read?_text h⟩

/-- The numbers of a record fit into their words, and its times exist. -/
structure StepRecord.Fits (s : StepRecord) : Prop where
  id_lt : s.id < word64
  attempts_lt : s.attempts < word32
  startedAt : ∀ t ∈ s.startedAt, t.IsExisting
  finishedAt : ∀ t ∈ s.finishedAt, t.IsExisting

structure Report.Fits (r : Report) : Prop where
  startedAt : r.startedAt.IsExisting
  finishedAt : ∀ t ∈ r.finishedAt, t.IsExisting
  steps : ∀ s ∈ r.steps, s.Fits

namespace StepRecord

def fields (s : StepRecord) : List (String × Option Json) :=
  [("id", some (.natural s.id)), ("host", some (.string s.host)),
    ("role", some (.string s.role.name)), ("name", some (.string s.name)),
    ("kind", some (.string s.kind.name)), ("state", some (.string s.state.name)),
    ("attempts", some (.natural s.attempts)),
    ("already_satisfied", some (.boolean s.alreadySatisfied)), ("error", s.error.map .string),
    ("skipped_because", s.skippedBecause.map .string),
    ("started_at", s.startedAt.map Moment.toJson), ("finished_at", s.finishedAt.map Moment.toJson)]

theorem toJson_eq (s : StepRecord) : s.toJson = .record (present s.fields) := by
  simp [toJson, fields, Json.optionalMember_eq]

theorem ofJson?_toJson {s : StepRecord} (h : s.Fits) : ofJson? s.toJson = some s := by
  have hstarted := Json.optional_map fun t ht ↦ Moment.kept (h.startedAt t ht)
  have hfinished := Json.optional_map fun t ht ↦ Moment.kept (h.finishedAt t ht)
  rw [ofJson?, toJson_eq, Json.fields?_present s.fields]
  · simp only [fields, List.map_cons, List.map_nil, Option.bind_eq_bind, Option.bind_some,
      Json.required, Json.natural?, Json.string?, Json.boolean?, Json.choice?, Json.orElse,
      if_pos h.id_lt, if_pos h.attempts_lt, Role.ofName?_name, StepKind.ofName?_name,
      Status.ofName?_name, Json.optional_map fun a _ ↦ Json.kept_string a, hstarted, hfinished]
    rfl
  · rfl
  · decide

theorem kept {s : StepRecord} (h : s.Fits) : Kept toJson ofJson? s := by
  refine ⟨?_, nofun, ofJson?_toJson h⟩
  rw [toJson_eq]
  exact Json.plain_present (by simp [fields, Moment.toJson])

end StepRecord

namespace HostRecord

def fields (h : HostRecord) : List (String × Option Json) :=
  [("address", some (.string h.address)),
    ("roles", some (.array (h.roles.map fun r ↦ .string r.name))),
    ("state", some (.string h.state.name)), ("failed_step", h.failedStep.map .string),
    ("last_error", h.lastError.map .string), ("skipped_because", h.skippedBecause.map .string),
    ("agent_health", h.agentHealth.map fun a ↦ .string a.name),
    ("monitoring_degraded", some (.boolean h.monitoringDegraded))]

theorem toJson_eq (h : HostRecord) : h.toJson = .record (present h.fields) := by
  simp [toJson, fields, Json.optionalMember_eq]

theorem ofJson?_toJson (h : HostRecord) : ofJson? h.toJson = some h := by
  have hroles := (Json.kept_array fun r (_ : r ∈ h.roles) ↦
    Json.kept_choice (Role.ofName?_name r)).read_write
  rw [ofJson?, toJson_eq, Json.fields?_present h.fields]
  · simp only [fields, List.map_cons, List.map_nil, Option.bind_eq_bind, Option.bind_some,
      Json.required, Json.string?, Json.boolean?, Json.orElse, hroles, Json.choice?,
      Status.ofName?_name, Json.optional_map fun a _ ↦ Json.kept_string a,
      Json.optional_map fun a _ ↦ Json.kept_choice (AgentHealth.ofName?_name a)]
    rfl
  · rfl
  · decide

theorem kept (h : HostRecord) : Kept toJson ofJson? h := by
  refine ⟨?_, nofun, ofJson?_toJson h⟩
  have hroles := (Json.kept_array fun r (_ : r ∈ h.roles) ↦
    Json.kept_choice (Role.ofName?_name r)).plain
  rw [toJson_eq]
  exact Json.plain_present (by simp [fields, hroles])

end HostRecord

namespace Report

def fields (r : Report) : List (String × Option Json) :=
  [("run_id", some (.string r.runId)), ("started_at", some r.startedAt.toJson),
    ("finished_at", some ((r.finishedAt.map Moment.toJson).getD .null)),
    ("cancelled", some (.boolean r.cancelled)),
    ("hosts", some (.array (r.hosts.map HostRecord.toJson))),
    ("steps", some (.array (r.steps.map StepRecord.toJson)))]

theorem toJson_eq (r : Report) : r.toJson = .record (present r.fields) := rfl

theorem kept {r : Report} (h : r.Fits) : Kept toJson ofJson? r := by
  have hhosts := Json.kept_array fun h (_ : h ∈ r.hosts) ↦ HostRecord.kept h
  have hsteps := Json.kept_array fun s hs ↦ StepRecord.kept (h.steps s hs)
  have hstarted : Moment.ofJson? r.startedAt.toJson = some r.startedAt :=
    (Moment.kept h.startedAt).read_write
  have hfinished :
      Json.optional Moment.ofJson? (some ((r.finishedAt.map Moment.toJson).getD .null)) =
        some r.finishedAt := by
    have hread := Json.optional_map fun t ht ↦ Moment.kept (h.finishedAt t ht)
    cases hend : r.finishedAt with
    | none => rfl
    | some t =>
      rw [hend] at hread
      exact hread
  refine ⟨?_, nofun, ?_⟩
  · have hend : Json.Plain ((r.finishedAt.map Moment.toJson).getD .null) := by
      cases r.finishedAt
      · exact .null
      · exact .string _
    rw [toJson_eq]
    exact Json.plain_present (by simp [fields, Moment.toJson, hhosts.plain, hsteps.plain, hend])
  · rw [ofJson?, toJson_eq, Json.fields?_present r.fields]
    · simp only [fields, List.map_cons, List.map_nil, Option.bind_eq_bind, Option.bind_some,
        Json.required, Json.string?, Json.boolean?, Json.orElse, hstarted, hfinished,
        hhosts.read_write, hsteps.read_write]
      rfl
    · rfl
    · decide

end Report

namespace Login

def fields (l : Login) : List (String × Option Json) :=
  [("hostname", l.hostname.map .string), ("user", l.user.map .string),
    ("identity_file", l.identityFile.map .string)]

theorem toJson_eq (l : Login) : l.toJson = .record (present l.fields) := by
  simp [toJson, fields, Json.optionalMember_eq]

theorem kept (l : Login) : Kept toJson ofJson? l := by
  have hread (o : Option String) :
      Json.orElse none (Json.nullable Json.string?) (o.map .string) = some o :=
    Json.optional_map fun a _ ↦ Json.kept_string a
  refine ⟨?_, nofun, ?_⟩
  · rw [toJson_eq]
    exact Json.plain_present (by simp [fields])
  · rw [ofJson?, toJson_eq, Json.fields?_present l.fields]
    · simp only [fields, List.map_cons, List.map_nil, Option.bind_eq_bind, Option.bind_some, hread]
      rfl
    · rfl
    · decide

theorem eq_of_isEmpty {l : Login} (h : l.isEmpty = true) : l = {} := by
  simp only [isEmpty, Bool.and_eq_true, Option.isNone_iff_eq_none] at h
  cases l
  obtain ⟨⟨rfl, rfl⟩, rfl⟩ := h
  rfl

end Login

namespace Host

def fields (h : Host) : List (String × Option Json) :=
  [("address", some (.string h.address)),
    ("roles", some (.array (h.roles.map fun r ↦ .string r.name))),
    ("state", some (.string h.state.name)), ("last_error", h.lastError.map .string),
    ("login", if h.login.isEmpty then none else some h.login.toJson)]

theorem toJson_eq (h : Host) : h.toJson = .record (present h.fields) := by
  simp only [toJson, fields, Json.optionalMember_eq]
  cases h.login.isEmpty <;> simp

theorem kept {h : Host} (hroles : Role.sorted h.roles = h.roles) : Kept toJson ofJson? h := by
  have hnames := Json.kept_array fun r (_ : r ∈ h.roles) ↦ Json.kept_choice (Role.ofName?_name r)
  have herror : Json.orElse none (Json.nullable Json.string?) (h.lastError.map .string) =
    some h.lastError := Json.optional_map fun a _ ↦ Json.kept_string a
  have hstate : Json.orElse .pending (Json.choice? Status.ofName?) (some (.string h.state.name)) =
    some h.state := Status.ofName?_name h.state
  have hlogin : Json.orElse {} Login.ofJson?
      (if h.login.isEmpty then none else some h.login.toJson) = some h.login := by
    split
    · rename_i hempty
      rw [Login.eq_of_isEmpty hempty]
      rfl
    · exact (Login.kept h.login).read_write
  refine ⟨?_, nofun, ?_⟩
  · rw [toJson_eq]
    exact Json.plain_present (by simp [fields, hnames.plain, (Login.kept h.login).plain])
  · rw [ofJson?, toJson_eq, Json.fields?_present h.fields]
    · simp only [fields, List.map_cons, List.map_nil, Option.bind_eq_bind, Option.bind_some,
        Json.required, Json.string?, hstate, hnames.read_write, herror, hlogin, hroles]
      rfl
    · rfl
    · decide

end Host

theorem Moment.isExisting_of_ofJson? {v : Json} {t : Moment} (h : ofJson? v = some t) :
    t.IsExisting := by
  unfold ofJson? at h
  split at h
  · exact isExisting_of_read? h
  · cases h

namespace Json

theorem lt_of_natural? {bound n : Nat} {v : Json} (h : natural? bound v = some n) : n < bound := by
  unfold natural? at h
  split at h
  · split at h
    · rename_i hlt
      exact Option.some.inj h ▸ hlt
    · cases h
  · cases h

variable {α : Type} {read : Json → Option α} {P : α → Prop} {o : Option Json}

theorem of_required (hread : ∀ v a, read v = some a → P a) {a : α} (h : required read o = some a) :
    P a := by
  cases o with
  | none => cases h
  | some v => exact hread v a h

theorem of_optional (hread : ∀ v a, read v = some a → P a) {r : Option α}
    (h : optional read o = some r) : ∀ a ∈ r, P a := by
  intro a ha
  obtain rfl := Option.mem_def.mp ha
  cases o with
  | none => cases h
  | some v =>
    rw [optional, orElse, nullable.eq_def] at h
    split at h
    · cases h
    · obtain ⟨b, hb, hab⟩ := Option.map_eq_some_iff.mp h
      obtain rfl := Option.some.inj hab
      exact hread v b hb

theorem of_array? (hread : ∀ v a, read v = some a → P a) {v : Json} {l : List α}
    (h : array? read v = some l) : ∀ a ∈ l, P a := by
  intro a ha
  unfold array? at h
  split at h
  · obtain ⟨w, -, hw⟩ := Text.of_mem_mapM h ha
    exact hread w a hw
  · cases h

end Json

theorem StepRecord.fits_of_ofJson? {v : Json} {s : StepRecord} (h : ofJson? v = some s) :
    s.Fits := by
  simp only [ofJson?, Option.bind_eq_bind, Option.bind_eq_some_iff] at h
  obtain ⟨values, -, h⟩ := h
  split at h
  · simp only [Option.bind_eq_some_iff] at h
    obtain ⟨id, hid, host, -, role, -, name, -, kind, -, state, -, attempts, hattempts, satisfied, -,
      error, -, because, -, started, hstarted, finished, hfinished, h⟩ := h
    obtain rfl := Option.some.inj h
    exact ⟨Json.of_required (fun _ _ ↦ Json.lt_of_natural?) hid,
      Json.of_required (fun _ _ ↦ Json.lt_of_natural?) hattempts,
      Json.of_optional (fun _ _ ↦ Moment.isExisting_of_ofJson?) hstarted,
      Json.of_optional (fun _ _ ↦ Moment.isExisting_of_ofJson?) hfinished⟩
  · cases h

theorem Report.fits_of_ofJson? {v : Json} {r : Report} (h : ofJson? v = some r) : r.Fits := by
  simp only [ofJson?, Option.bind_eq_bind, Option.bind_eq_some_iff] at h
  obtain ⟨values, -, h⟩ := h
  split at h
  · simp only [Option.bind_eq_some_iff] at h
    obtain ⟨id, -, started, hstarted, finished, hfinished, cancelled, -, hosts, -, steps, hsteps,
      h⟩ := h
    obtain rfl := Option.some.inj h
    exact ⟨Json.of_required (fun _ _ ↦ Moment.isExisting_of_ofJson?) hstarted,
      Json.of_optional (fun _ _ ↦ Moment.isExisting_of_ofJson?) hfinished,
      Json.of_required (fun _ _ ↦ Json.of_array? fun _ _ ↦ StepRecord.fits_of_ofJson?) hsteps⟩
  · cases h

theorem Report.read?_pretty {r : Report} (h : r.Fits) : read? r.pretty = some r := by
  rw [read?, pretty, (kept h).plain.read?_pretty, Option.bind_some]
  exact (kept h).read_write

theorem Report.read?_compact {r : Report} (h : r.Fits) : read? r.toJson.compact = some r := by
  rw [read?, (kept h).plain.read?_compact, Option.bind_some]
  exact (kept h).read_write

theorem Report.fits_of_read? {s : String} {r : Report} (h : read? s = some r) : r.Fits := by
  obtain ⟨v, -, hv⟩ := Option.bind_eq_some_iff.mp h
  exact fits_of_ofJson? hv

theorem Host.read?_text {h : Host} (hroles : Role.sorted h.roles = h.roles) :
    read? h.text = some h := by
  rw [read?, text, (kept hroles).plain.read?_compact, Option.bind_some]
  exact (kept hroles).read_write

theorem Host.read?_pretty {h : Host} (hroles : Role.sorted h.roles = h.roles) :
    read? h.toJson.pretty = some h := by
  rw [read?, (kept hroles).plain.read?_pretty, Option.bind_some]
  exact (kept hroles).read_write

end Rollout
