import Mathlib.Data.List.Infix
import Mathlib.Data.List.TakeWhile
import Mathlib.Data.String.Basic
import Rollout.Text.Blank
import Rollout.Text.Search

namespace Rollout.Text

theorem compareChars_iff (as bs : List Char) : compareChars as bs = true ↔ as = bs ∨ as < bs := by
  induction as generalizing bs with
  | nil => cases bs <;> simp [compareChars]
  | cons a as ih =>
    cases bs with
    | nil => simp [compareChars]
    | cons b bs =>
      rw [compareChars, List.cons_lt_cons_iff, List.cons.injEq]
      by_cases heq : a = b
      · subst heq
        simp [ih]
      · have hlt : a < b ↔ a.toNat < b.toNat := Iff.rfl
        simp [heq, hlt]

theorem lt_iff (a b : String) : lt a b = true ↔ a < b := by
  rw [lt, le, Bool.and_eq_true, compareChars_iff, bne_iff_ne, String.lt_iff_toList_lt,
    String.toList_inj]
  constructor
  · exact fun ⟨hle, hne⟩ ↦ hle.resolve_left hne
  · rintro hlt
    refine ⟨.inr hlt, ?_⟩
    rintro rfl
    exact absurd hlt (List.lt_irrefl _)

theorem trim_eq_empty_iff {s : String} : trim s = "" ↔ allBlank s = true := by
  have hempty : trim s = "" ↔ trimRight (trimLeft s.toList) = [] := by
    rw [trim, ← String.toList_inj, String.toList_ofList]
    rfl
  rw [hempty, trimRight, trimLeft, List.reverse_eq_nil_iff, List.dropWhile_eq_nil_iff,
    allBlank, List.all_eq_true]
  constructor
  · intro h c hc
    rw [← List.takeWhile_append_dropWhile (p := isBlank) (l := s.toList)] at hc
    rcases List.mem_append.mp hc with hc | hc
    · exact List.mem_takeWhile_imp hc
    · exact h c (List.mem_reverse.mpr hc)
  · intro h c hc
    exact h c (List.dropWhile_subset _ (List.mem_reverse.mp hc))

theorem linesFrom_append {cs : List Char} (hcs : '\n' ∉ cs) (line rest : List Char) :
    linesFrom line (cs ++ rest) = linesFrom (cs.reverse ++ line) rest := by
  induction cs generalizing line with
  | nil => rfl
  | cons c cs ih =>
    rw [List.mem_cons, not_or] at hcs
    rw [List.cons_append, linesFrom.eq_3 line c _ fun h ↦ hcs.1 h.symm, ih hcs.2]
    simp

/-- A line as it stands in a text: not empty, without a line feed and without a carriage return at
its end. -/
structure IsLine (cs : List Char) : Prop where
  ne_nil : cs ≠ []
  feed_notMem : '\n' ∉ cs
  getLast?_ne : cs.getLast? ≠ some '\r'

theorem IsLine.dropReturn_reverse {cs : List Char} (h : IsLine cs) :
    (dropReturn cs.reverse).reverse = cs := by
  have hne : cs.reverse.head? ≠ some '\r' := by
    rw [List.head?_reverse]
    exact h.getLast?_ne
  rw [dropReturn.eq_2 _ fun ds heq ↦ hne (by rw [heq]; rfl), List.reverse_reverse]

theorem linesFrom_intercalate {css : List (List Char)} (h : ∀ cs ∈ css, IsLine cs) :
    linesFrom [] (['\n'].intercalate css) = css := by
  induction css with
  | nil => rfl
  | cons cs css ih =>
    obtain ⟨hcs, hcss⟩ := List.forall_mem_cons.mp h
    cases css with
    | nil =>
      have hne : cs.reverse ≠ [] := List.reverse_eq_nil_iff.not.mpr hcs.ne_nil
      rw [List.intercalate_singleton, ← List.append_nil cs, linesFrom_append hcs.feed_notMem]
      simp [linesFrom, hcs.ne_nil]
    | cons ds css =>
      rw [List.intercalate_cons_cons, List.append_assoc, linesFrom_append hcs.feed_notMem,
        List.append_nil]
      show (dropReturn cs.reverse).reverse :: linesFrom [] (['\n'].intercalate (ds :: css)) = _
      rw [hcs.dropReturn_reverse, ih hcss]

/-- The lines of a text are those it was put together from. -/
theorem lines_intercalate {ls : List String} (h : ∀ l ∈ ls, IsLine l.toList) :
    lines (String.intercalate "\n" ls) = ls := by
  have hlines : ∀ cs ∈ ls.map String.toList, IsLine cs := List.forall_mem_map.mpr h
  rw [lines, String.toList_intercalate, show "\n".toList = ['\n'] from rfl,
    linesFrom_intercalate hlines]
  simp

theorem exists_of_mem_splitOn {α : Type} [BEq α] [LawfulBEq α] {x : α} {l p : List α}
    (h : p ∈ l.splitOn x) : ∃ a b, l = a ++ (p ++ b) ∧ (b = [] ∨ b.head? = some x) := by
  induction hn : l.length using Nat.strong_induction_on generalizing l with
  | _ n ih =>
    by_cases hx : x ∈ l
    · obtain ⟨front, rest, rfl, hfront⟩ := List.eq_append_cons_of_mem hx
      rw [List.splitOn_append_cons_self_of_not_mem hfront, List.mem_cons] at h
      rcases h with rfl | h
      · exact ⟨[], x :: rest, rfl, .inr rfl⟩
      · have hlt : rest.length < n := by
          rw [← hn, List.length_append, List.length_cons]
          omega
        obtain ⟨a, b, rfl, hb⟩ := ih _ hlt h rfl
        exact ⟨front ++ x :: a, b, by simp, hb⟩
    · rw [List.splitOn_eq_singleton hx, List.mem_singleton] at h
      exact ⟨[], [], by simp [h], .inl rfl⟩

theorem of_mem_mapM {α β : Type} {f : α → Option β} {l : List α} {m : List β}
    (h : l.mapM f = some m) {b : β} (hb : b ∈ m) : ∃ a ∈ l, f a = some b := by
  induction l generalizing m with
  | nil =>
    obtain rfl := Option.some.inj h
    cases hb
  | cons a l ih =>
    simp only [List.mapM_cons, Option.bind_eq_bind, Option.bind_eq_some_iff] at h
    obtain ⟨c, hc, cs, hcs, h⟩ := h
    obtain rfl := Option.some.inj h
    rcases List.mem_cons.mp hb with rfl | hb
    · exact ⟨a, List.mem_cons_self, hc⟩
    · obtain ⟨a', ha', hfa⟩ := ih hcs hb
      exact ⟨a', List.mem_cons_of_mem a ha', hfa⟩

theorem mapM_map {α β γ : Type} {f : α → β} {g : β → Option γ} {k : α → γ} {l : List α}
    (h : ∀ a ∈ l, g (f a) = some (k a)) : (l.map f).mapM g = some (l.map k) := by
  induction l with
  | nil => rfl
  | cons a l ih =>
    obtain ⟨ha, hl⟩ := List.forall_mem_cons.mp h
    rw [List.map_cons, List.mapM_cons, ha, ih hl]
    rfl

end Rollout.Text
