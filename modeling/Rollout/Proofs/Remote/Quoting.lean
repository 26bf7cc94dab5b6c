import Mathlib.Logic.Function.Basic
import Rollout.Remote.Shell

namespace Rollout.Shell

/-- How a character of a line is read: it parts words, it only says how others are read, or it is a
character of a word as it stands, between quotes, or behind a backslash. -/
inductive Manner
  | blank
  | mark
  | bare
  | quoted
  | escaped
  deriving DecidableEq, Repr

namespace Reading

def plainManner (c : Char) : Manner :=
  if isSeparator c then .blank else if c = '\'' ∨ c = '\\' then .mark else .bare

def manner : Reading → Char → Manner
  | .between, c | .plain _, c => plainManner c
  | .quoted _, c => if c = '\'' then .mark else .quoted
  | .escaped _, _ => .escaped

def next : Reading → Char → Reading
  | .between, c => if isSeparator c then .between else plainChar [] c
  | .plain w, c => if isSeparator c then .between else plainChar w c
  | .quoted w, c => if c == '\'' then .plain w else .quoted (c :: w)
  | .escaped w, c => .plain (c :: w)

def completed : Reading → Char → List (List Char)
  | .plain w, c => if isSeparator c then [w.reverse] else []
  | _, _ => []

theorem plainManner_ne_escaped (c : Char) : plainManner c ≠ .escaped := by
  unfold plainManner
  split
  · simp
  · split <;> simp

theorem manner_of_next {r : Reading} {a b : Char} (h : (r.next a).manner b = .escaped) :
    a = '\\' ∧ r.manner a = .mark := by
  have houtside : ∀ w, (if isSeparator a then Reading.between else plainChar w a).manner b =
      .escaped → a = '\\' ∧ plainManner a = .mark := by
    intro w h
    split at h
    · exact absurd h (plainManner_ne_escaped b)
    · rename_i hseparator
      simp only [plainChar, beq_iff_eq] at h
      split at h
      · simp only [manner] at h
        split at h <;> cases h
      · split at h
        · rename_i hslash
          subst hslash
          exact ⟨rfl, rfl⟩
        · exact absurd h (plainManner_ne_escaped b)
  cases r with
  | between => exact houtside [] h
  | plain w => exact houtside w h
  | escaped w => exact absurd h (plainManner_ne_escaped b)
  | quoted w =>
    simp only [next, beq_iff_eq] at h
    split at h
    · exact absurd h (plainManner_ne_escaped b)
    · simp only [manner] at h
      split at h <;> cases h

end Reading

theorem wordsFrom_cons (r : Reading) (c : Char) (cs : List Char) :
    wordsFrom r (c :: cs) = (wordsFrom (r.next c) cs).map (r.completed c ++ ·) := by
  cases r with
  | between =>
    simp only [wordsFrom, Reading.next, Reading.completed, List.nil_append, Option.map_id']
    split <;> rfl
  | plain w =>
    simp only [wordsFrom, Reading.next, Reading.completed]
    split <;> simp
  | quoted w =>
    simp only [wordsFrom, Reading.next, Reading.completed, List.nil_append, Option.map_id']
    split <;> rfl
  | escaped w => simp only [wordsFrom, Reading.next, Reading.completed, List.nil_append,
      Option.map_id']

def mannersFrom (r : Reading) : List Char → List (Char × Manner)
  | [] => []
  | c :: cs => (c, r.manner c) :: mannersFrom (r.next c) cs

def manners (line : String) : List (Char × Manner) := mannersFrom .between line.toList

theorem mannersFrom_append (r : Reading) (as bs : List Char) :
    mannersFrom r (as ++ bs) = mannersFrom r as ++ mannersFrom (as.foldl Reading.next r) bs := by
  induction as generalizing r with
  | nil => rfl
  | cons a as ih => simp [mannersFrom, ih]

/-- Nothing is escaped but what stands directly behind a backslash. -/
theorem getElem?_mannersFrom_escaped {r : Reading} {line : List Char} {i : Nat} {c : Char}
    (h : (mannersFrom r line)[i + 1]? = some (c, .escaped)) :
    (mannersFrom r line)[i]? = some ('\\', .mark) := by
  induction line generalizing r i with
  | nil => simp [mannersFrom] at h
  | cons a as ih =>
    cases i with
    | succ i => exact ih h
    | zero =>
      cases as with
      | nil => simp [mannersFrom] at h
      | cons b bs =>
        simp only [mannersFrom, List.getElem?_cons_succ, List.getElem?_cons_zero,
          Option.some.injEq, Prod.mk.injEq] at h ⊢
        exact Reading.manner_of_next h.2

/-- The words that are complete within a part of a line. -/
def completedIn (r : Reading) : List Char → List (List Char)
  | [] => []
  | c :: cs => r.completed c ++ completedIn (r.next c) cs

theorem wordsFrom_append (r : Reading) (as bs : List Char) :
    wordsFrom r (as ++ bs) =
      (wordsFrom (as.foldl Reading.next r) bs).map (completedIn r as ++ ·) := by
  induction as generalizing r with
  | nil => simp [completedIn]
  | cons a as ih =>
    rw [List.cons_append, wordsFrom_cons, ih, Option.map_map, List.foldl_cons]
    congr 1
    funext ws
    simp [completedIn]

theorem Reading.of_ended {r : Reading} {ws : List (List Char)} (h : wordsFrom r [] = some ws) :
    r.next ' ' = .between ∧ r.completed ' ' = ws ∧ r.manner ' ' = .blank := by
  cases r with
  | between | plain w =>
    cases h
    exact ⟨rfl, rfl, rfl⟩
  | quoted w | escaped w => cases h

section Blank

variable {left : List Char} {before : List (List Char)} (h : words? left = some before)
include h

theorem exists_ended : ∃ ws, wordsFrom (left.foldl Reading.next .between) [] = some ws ∧
    before = completedIn .between left ++ ws := by
  have hsplit := wordsFrom_append .between left []
  rw [List.append_nil, ← words?, h] at hsplit
  obtain ⟨ws, hws, rfl⟩ := Option.map_eq_some_iff.mp hsplit.symm
  exact ⟨ws, hws, rfl⟩

theorem words?_blank (rest : List Char) :
    words? (left ++ ' ' :: rest) = (words? rest).map (before ++ ·) := by
  obtain ⟨ws, hws, rfl⟩ := exists_ended h
  obtain ⟨hnext, hcompleted, -⟩ := Reading.of_ended hws
  rw [words?, wordsFrom_append, wordsFrom_cons, hnext, hcompleted, Option.map_map]
  congr 1
  funext vs
  simp

theorem mannersFrom_blank (rest : List Char) :
    mannersFrom .between (left ++ ' ' :: rest) =
      mannersFrom .between left ++ (' ', .blank) :: mannersFrom .between rest := by
  obtain ⟨ws, hws, -⟩ := exists_ended h
  obtain ⟨hnext, -, hmanner⟩ := Reading.of_ended hws
  rw [mannersFrom_append, mannersFrom, hnext, hmanner]

end Blank

def quotedManners (c : Char) : List (Char × Manner) :=
  if c = '\'' then [('\'', .mark), ('\\', .mark), ('\'', .escaped), ('\'', .mark)]
  else [(c, .quoted)]

theorem inside_quotedManners {c : Char} {p : Char × Manner} (h : p ∈ quotedManners c) :
    p.2 ≠ .blank ∧ p.2 ≠ .bare := by
  unfold quotedManners at h
  split at h
  · simp only [List.mem_cons, List.not_mem_nil, or_false] at h
    rcases h with rfl | rfl | rfl | rfl <;> simp
  · rw [List.mem_singleton.mp h]
    simp

theorem filter_quotedManners (c : Char) :
    (quotedManners c).filter (fun p ↦ p.2 ≠ .mark) =
      [(c, if c = '\'' then .escaped else .quoted)] := by
  unfold quotedManners
  split
  · rename_i hc
    subst hc
    rfl
  · rfl

theorem wordsFrom_quoted (w s rest : List Char) :
    wordsFrom (.quoted w) (s.flatMap quotedChar ++ rest) =
      wordsFrom (.quoted (s.reverse ++ w)) rest := by
  induction s generalizing w with
  | nil => rfl
  | cons c s ih =>
    have hone : ∀ more, wordsFrom (.quoted w) (quotedChar c ++ more) =
        wordsFrom (.quoted (c :: w)) more := by
      intro more
      by_cases hc : c = '\''
      · subst hc
        rfl
      · simp [quotedChar, wordsFrom, hc]
    rw [List.flatMap_cons, List.append_assoc, hone, ih, List.reverse_cons, List.append_assoc]
    rfl

theorem mannersFrom_quoted (w s rest : List Char) :
    mannersFrom (.quoted w) (s.flatMap quotedChar ++ rest) =
      s.flatMap quotedManners ++ mannersFrom (.quoted (s.reverse ++ w)) rest := by
  induction s generalizing w with
  | nil => rfl
  | cons c s ih =>
    have hone : ∀ more, mannersFrom (.quoted w) (quotedChar c ++ more) =
        quotedManners c ++ mannersFrom (.quoted (c :: w)) more := by
      intro more
      by_cases hc : c = '\''
      · subst hc
        rfl
      · simp [quotedChar, quotedManners, mannersFrom, Reading.manner, Reading.next, hc]
    simp only [List.flatMap_cons, List.append_assoc, hone, ih, List.reverse_cons]
    rfl

theorem words?_quoteChars (s : List Char) : words? (quoteChars s) = some [s] := by
  have hquoted := wordsFrom_quoted [] s ['\'']
  rw [List.append_nil] at hquoted
  exact hquoted.trans (by simp [wordsFrom])

theorem mannersFrom_quoteChars (s : List Char) :
    mannersFrom .between (quoteChars s) =
      ('\'', .mark) :: s.flatMap quotedManners ++ [('\'', .mark)] := by
  have hquoted := mannersFrom_quoted [] s ['\'']
  exact congrArg (('\'', .mark) :: ·) hquoted

theorem toList_quote (s : String) : (quote s).toList = quoteChars s.toList :=
  String.toList_ofList

theorem quote_injective : Function.Injective quote := by
  intro s t h
  have hwords := words?_quoteChars s.toList
  rw [← toList_quote, h, toList_quote, words?_quoteChars] at hwords
  exact String.toList_inj.mp (by simpa using hwords.symm)

/-- How a line is read in which something is written, between two blanks, for a text: as one word
that is the text. No character of the text is read outside of quotes, except for single quotes, each
behind a backslash. -/
structure Sheltered (left written right : String) (before : List (List Char)) (text : String)
    (after : List (List Char)) : Prop where
  words_eq : words? (left ++ " " ++ written ++ " " ++ right).toList =
    some (before ++ text.toList :: after)
  manners_eq : manners (left ++ " " ++ written ++ " " ++ right) =
    manners left ++ (' ', .blank) :: manners written ++ (' ', .blank) :: manners right
  inside : ∀ p ∈ manners written, p.2 ≠ .blank ∧ p.2 ≠ .bare
  literal : (manners written).filter (fun p ↦ p.2 ≠ .mark) =
    text.toList.map fun c ↦ (c, if c = '\'' then .escaped else .quoted)
  behind : ∀ i c, (manners written)[i]? = some (c, .escaped) →
    ∃ k, i = k + 1 ∧ (manners written)[k]? = some ('\\', .mark)

/-- Whatever a text is and wherever a word may stand, what is written for it shelters it. -/
theorem sheltered_quote {left right : String} {before after : List (List Char)} (s : String)
    (hleft : words? left.toList = some before) (hright : words? right.toList = some after) :
    Sheltered left (quote s) right before s after ∧ Function.Injective quote := by
  have hline : (left ++ " " ++ quote s ++ " " ++ right).toList =
      left.toList ++ ' ' :: (quoteChars s.toList ++ ' ' :: right.toList) := by
    simp [toList_quote]
  have hwritten : manners (quote s) = ('\'', .mark) :: s.toList.flatMap quotedManners ++
      [('\'', .mark)] := by
    rw [manners, toList_quote, mannersFrom_quoteChars]
  refine ⟨⟨?_, ?_, ?_, ?_, ?_⟩, quote_injective⟩
  · rw [hline, words?_blank hleft, words?_blank (words?_quoteChars _), hright]
    simp
  · rw [manners, hline, mannersFrom_blank hleft, mannersFrom_blank (words?_quoteChars _), manners,
      manners, manners, toList_quote]
    simp
  · intro p hp
    rw [hwritten] at hp
    simp only [List.cons_append, List.mem_cons, List.mem_append, List.mem_flatMap,
      List.not_mem_nil, or_false] at hp
    rcases hp with rfl | ⟨c, -, hp⟩ | rfl
    · simp
    · exact inside_quotedManners hp
    · simp
  · rw [hwritten, List.cons_append, List.filter_cons_of_neg (by simp), List.filter_append,
      List.filter_flatMap]
    simp only [filter_quotedManners]
    simp [← List.map_eq_flatMap]
  · intro i c hi
    cases i with
    | zero => simp [hwritten] at hi
    | succ i => exact ⟨i, rfl, getElem?_mannersFrom_escaped hi⟩

/-- A text that holds quotes, next to a backslash and at its ends, a command and a line break. -/
theorem sheltered_intricate :
    words? "mv -n".toList = some ["mv".toList, "-n".toList] ∧
    words? "/srv/new\\ name".toList = some ["/srv/new name".toList] ∧
    Sheltered "mv -n" (quote "'it\\'s; rm *\n''") "/srv/new\\ name" ["mv".toList, "-n".toList]
      "'it\\'s; rm *\n''" ["/srv/new name".toList] :=
  have hleft : words? "mv -n".toList = some ["mv".toList, "-n".toList] := by decide
  have hright : words? "/srv/new\\ name".toList = some ["/srv/new name".toList] := by decide
  ⟨hleft, hright, (sheltered_quote _ hleft hright).1⟩

end Rollout.Shell
