import Rollout.Document.Json
import Rollout.Proofs.Document.Printed
import Rollout.Proofs.Text.Pieces
import Rollout.Run.ReportJson

namespace Rollout.Json

variable {α : Type} {write : α → Json} {read : Json → Option α} {a : α} {o : Option α}

/-- A value that is read back from what is written for it. -/
structure Kept (write : α → Json) (read : Json → Option α) (a : α) : Prop where
  plain : Plain (write a)
  ne_null : write a ≠ .null
  read_write : read (write a) = some a

theorem kept_string (s : String) : Kept .string string? s := ⟨.string s, nofun, rfl⟩

theorem kept_choice {name : α → String} {ofName? : String → Option α}
    (h : ofName? (name a) = some a) : Kept (fun a ↦ .string (name a)) (choice? ofName?) a :=
  ⟨.string _, nofun, h⟩

theorem kept_array {l : List α} (h : ∀ a ∈ l, Kept write read a) :
    Kept (fun l ↦ .array (l.map write)) (array? read) l := by
  refine ⟨.array fun v hv ↦ ?_, nofun, ?_⟩
  · obtain ⟨a, ha, rfl⟩ := List.mem_map.mp hv
    exact (h a ha).plain
  · have hread := Text.mapM_map (k := id) fun a ha ↦ (h a ha).read_write
    rwa [List.map_id] at hread

theorem optional_map (h : ∀ a ∈ o, Kept write read a) : optional read (o.map write) = some o := by
  cases o with
  | none => rfl
  | some a =>
    have hkept := h a rfl
    rw [Option.map_some, optional, orElse, nullable.eq_2 read _ hkept.ne_null, hkept.read_write]
    rfl

/-- The members of a record of some fields, of which those without a value are left out. -/
def present (fields : List (String × Option Json)) : List (String × Json) :=
  fields.filterMap fun f ↦ f.2.map (f.1, ·)

@[simp]
theorem present_nil : present [] = [] := rfl

@[simp]
theorem present_cons (f : String × Option Json) (fs : List (String × Option Json)) :
    present (f :: fs) = (f.2.map (f.1, ·)).toList ++ present fs := by
  obtain ⟨name, _ | v⟩ := f <;> rfl

theorem optionalMember_eq (name : String) (write : α → Json) (o : Option α) :
    optionalMember name write o = present [(name, o.map write)] := by
  cases o <;> rfl

variable {fields : List (String × Option Json)} {names : List String}

theorem plain_present (h : ∀ f ∈ fields, ∀ v ∈ f.2, Plain v) :
    Plain (.record (present fields)) := by
  refine .record fun m hm ↦ ?_
  obtain ⟨f, hf, hfm⟩ := List.mem_filterMap.mp hm
  obtain ⟨v, hv, rfl⟩ := Option.map_eq_some_iff.mp hfm
  exact h f hf v hv

theorem name_of_mem_present {m : String × Json} (h : m ∈ present fields) :
    m.1 ∈ fields.map Prod.fst := by
  obtain ⟨f, hf, hfm⟩ := List.mem_filterMap.mp h
  obtain ⟨v, -, rfl⟩ := Option.map_eq_some_iff.mp hfm
  exact List.mem_map_of_mem hf

theorem filter_present (h : (fields.map Prod.fst).Nodup) {f : String × Option Json}
    (hf : f ∈ fields) : (present fields).filter (·.1 == f.1) = (f.2.map (f.1, ·)).toList := by
  induction fields with
  | nil => cases hf
  | cons g fs ih =>
    rw [List.map_cons, List.nodup_cons] at h
    rw [present_cons, List.filter_append]
    rcases List.mem_cons.mp hf with rfl | hf
    · have hrest : (present fs).filter (·.1 == f.1) = [] := by
        rw [List.filter_eq_nil_iff]
        intro m hm heq
        exact h.1 (beq_iff_eq.mp heq ▸ name_of_mem_present hm)
      rw [hrest, List.append_nil]
      cases f.2 <;> simp
    · have hother : g.1 ≠ f.1 := fun heq ↦ h.1 (heq ▸ List.mem_map_of_mem hf)
      rw [ih h.2 hf]
      cases g.2 <;> simp [hother]

theorem fields?_present (fields : List (String × Option Json))
    (hnames : fields.map Prod.fst = names) (h : names.Nodup) :
    fields? names (.record (present fields)) = some (fields.map Prod.snd) := by
  subst hnames
  rw [Json.record, fields?, if_pos (by simp)]
  refine Text.mapM_map fun f hf ↦ ?_
  have hfilter := filter_present h hf
  rw [List.filter_map, show ((fun m : Option String × Json ↦ m.1 == some f.1) ∘
    fun p : String × Json ↦ (some p.1, p.2)) = (·.1 == f.1) from rfl, hfilter]
  cases f.2 <;> rfl

end Rollout.Json
