import Mathlib.Tactic.Tauto
import Rollout.Metrics.Reading
import Rollout.Proofs.Text.Digits
import Rollout.Proofs.Text.Pieces

namespace Rollout

theorem Binary64.feed_notMem_positional (digits : Nat) (scale : Int) :
    '\n' ∉ (positional digits scale).toList := by
  have hdigits : '\n' ∉ (Text.decimal digits).toList := fun hmem ↦
    absurd (Text.isDigit_of_mem_decimal hmem) (by decide)
  have hzeros : ∀ n, '\n' ∉ List.replicate n '0' := fun n hmem ↦
    absurd (List.eq_of_mem_replicate hmem) (by decide)
  rw [positional]
  split
  · rw [String.toList_append, String.toList_ofList, List.mem_append, not_or]
    exact ⟨hdigits, hzeros _⟩
  · have hpadded : ∀ n, '\n' ∉ List.replicate n '0' ++ (Text.decimal digits).toList := fun n hmem ↦
      (List.mem_append.mp hmem).elim (hzeros n) hdigits
    rw [String.toList_ofList, List.mem_append, List.mem_cons, not_or, not_or]
    exact ⟨fun hmem ↦ hpadded _ (List.mem_of_mem_take hmem), by decide,
      fun hmem ↦ hpadded _ (List.mem_of_mem_drop hmem)⟩

theorem Binary64.feed_notMem_toDecimal (x : Binary64) : '\n' ∉ x.toDecimal.toList := by
  have hsign : ∀ s : Bool, '\n' ∉ (if s then "-" else "").toList := by decide
  fun_cases toDecimal x
  · decide
  · decide
  · decide
  · rw [String.toList_append, List.mem_append, not_or]
    exact ⟨hsign _, by decide⟩
  · rw [String.toList_append, List.mem_append, not_or]
    exact ⟨hsign _, feed_notMem_positional _ _⟩

namespace Sample

def names (s : Sample) : List String := [s.key, s.host, s.subsystem]

theorem mem_of_mem_escapedName {c : Char} {cs : List Char} (hc : c ∈ escapedName cs) :
    c = '\\' ∨ c ∈ cs := by
  induction cs with
  | nil => cases hc
  | cons d cs ih =>
    rw [escapedName] at hc
    split at hc <;> simp only [List.mem_cons] at hc ⊢ <;> tauto

theorem isLine_lineChars {s : Sample} (h : ∀ n ∈ s.names, '\n' ∉ n.toList) :
    Text.IsLine s.lineChars := by
  have hname : ∀ n ∈ s.names, '\n' ∉ escapedName n.toList := fun n hn hmem ↦
    (mem_of_mem_escapedName hmem).elim (by decide) (h n hn)
  have htime : ∀ c ∈ (Text.signedDecimal (lineTime s.time)).toList, c ≠ '\n' ∧ c ≠ '\r' := by
    intro c hc
    rcases Text.of_mem_signedDecimal hc with rfl | hdigit
    · decide
    · exact ⟨fun heq ↦ absurd (heq ▸ hdigit) (by decide),
        fun heq ↦ absurd (heq ▸ hdigit) (by decide)⟩
  have hline : s.lineChars = (escapedName s.key.toList ++ ",host=".toList ++
      escapedName s.host.toList ++ ",subsystem=".toList ++ escapedName s.subsystem.toList ++
      " value=".toList ++ s.value.toDecimal.toList) ++
        ' ' :: (Text.signedDecimal (lineTime s.time)).toList := rfl
  refine ⟨?_, ?_, ?_⟩
  · rw [hline]
    exact List.append_ne_nil_of_right_ne_nil _ (List.cons_ne_nil _ _)
  · have hkey := hname s.key (by simp [names])
    have hhost := hname s.host (by simp [names])
    have hsubsystem := hname s.subsystem (by simp [names])
    have hvalue := s.value.feed_notMem_toDecimal
    have hstamp : '\n' ∉ (Text.signedDecimal (lineTime s.time)).toList := fun hmem ↦
      (htime _ hmem).1 rfl
    rw [hline]
    simp only [List.mem_append, List.mem_cons, not_or]
    exact ⟨⟨⟨⟨⟨⟨⟨hkey, by decide⟩, hhost⟩, by decide⟩, hsubsystem⟩, by decide⟩, hvalue⟩,
      by decide, hstamp⟩
  · intro hlast
    rw [hline, List.getLast?_append_of_ne_nil _ (List.cons_ne_nil _ _)] at hlast
    rcases List.mem_cons.mp (List.mem_of_getLast? hlast) with heq | hmem
    · cases heq
    · exact (htime _ hmem).2 rfl

theorem lines_body {batch : List Sample} (h : ∀ s ∈ batch, ∀ n ∈ s.names, '\n' ∉ n.toList) :
    Text.lines (body batch) = batch.map line := by
  refine Text.lines_intercalate fun l hl ↦ ?_
  obtain ⟨s, hs, rfl⟩ := List.mem_map.mp hl
  rw [line, String.toList_ofList]
  exact isLine_lineChars (h s hs)

abbrev Sign := Char × Bool

/-- Marks end or part names, except where a backslash stands directly before one and makes it
literal. Any other backslash stands for itself. -/
def signs : List Char → List Sign
  | [] => []
  | [c] => [(c, isMark c)]
  | c :: d :: cs =>
    if c == '\\' && isMark d then (d, false) :: signs cs else (c, isMark c) :: signs (d :: cs)

def signText (ss : List Sign) : String := String.ofList (ss.map Prod.fst)

def cutAt (mark : Char) : List Sign → Option (List Sign × List Sign)
  | [] => none
  | s :: ss =>
    if s == (mark, true) then some ([], ss) else (cutAt mark ss).map fun p ↦ (s :: p.1, p.2)

structure Heading where
  key : String
  tags : List (String × String)
  deriving DecidableEq

def readTag? (ss : List Sign) : Option (String × String) :=
  (cutAt '=' ss).map fun p ↦ (signText p.1, signText p.2)

/-- Reads what stands before the first blank that ends names: a key, and tags behind commas. -/
def readLine? (l : String) : Option Heading := do
  let (before, _) ← cutAt ' ' (signs l.toList)
  match before.splitOn (',', true) with
  | [] => none
  | key :: tags => return ⟨signText key, ← tags.mapM readTag?⟩

def heading (s : Sample) : Heading := ⟨s.key, [("host", s.host), ("subsystem", s.subsystem)]⟩

def Heading.names (o : Heading) : List String := o.key :: o.tags.flatMap fun t ↦ [t.1, t.2]

def EndsInBackslash (n : String) : Prop := n.toList.getLast? = some '\\'

instance (n : String) : Decidable (EndsInBackslash n) :=
  inferInstanceAs (Decidable (n.toList.getLast? = some '\\'))

def literals (cs : List Char) : List Sign := cs.map (·, false)

theorem mark_notMem_literals (mark : Char) (cs : List Char) : (mark, true) ∉ literals cs := by
  simp [literals]

theorem signText_literals (n : String) : signText (literals n.toList) = n := by
  simp [signText, literals, Function.comp_def]

theorem signs_cons {c : Char} {cs : List Char}
    (h : c ≠ '\\' ∨ ∀ d, cs.head? = some d → isMark d = false) :
    signs (c :: cs) = (c, isMark c) :: signs cs := by
  cases cs with
  | nil => rfl
  | cons d cs =>
    rw [signs, if_neg]
    rw [Bool.and_eq_true, beq_iff_eq]
    rintro ⟨rfl, hd⟩
    rcases h with h | h
    · exact h rfl
    · rw [h d rfl] at hd
      cases hd

theorem signs_escaped {c : Char} (h : isMark c = true) (cs : List Char) :
    signs ('\\' :: c :: cs) = (c, false) :: signs cs := by
  rw [signs, if_pos]
  rw [h]
  rfl

theorem isMark_of_head?_escapedName {cs : List Char} (h : cs ≠ []) (rest : List Char) :
    ∀ d, (escapedName cs ++ rest).head? = some d → isMark d = false := by
  cases cs with
  | nil => exact absurd rfl h
  | cons c cs =>
    rw [escapedName]
    split
    · intro d hd
      obtain rfl := Option.some.inj hd
      decide
    · rename_i hc
      intro d hd
      obtain rfl := Option.some.inj hd
      exact Bool.eq_false_iff.mpr hc

theorem signs_escapedName {cs : List Char} (h : cs.getLast? ≠ some '\\') (rest : List Char) :
    signs (escapedName cs ++ rest) = literals cs ++ signs rest := by
  induction cs with
  | nil => rfl
  | cons c cs ih =>
    have htail : cs.getLast? ≠ some '\\' := fun hlast ↦ h (by rw [List.getLast?_cons, hlast]; rfl)
    -- a backslash is not the last character, and an escaped name does not begin with a mark
    have hnext : c ≠ '\\' ∨ cs ≠ [] := by
      by_contra hboth
      rw [not_or, not_not, not_not] at hboth
      exact h (by rw [hboth.1, hboth.2]; rfl)
    rw [escapedName]
    split
    · rename_i hc
      rw [List.cons_append, List.cons_append, signs_escaped hc, ih htail]
      rfl
    · rename_i hc
      rw [List.cons_append, signs_cons (hnext.imp_right fun hcs ↦
        isMark_of_head?_escapedName hcs rest), ih htail, Bool.eq_false_iff.mpr hc]
      rfl

theorem cutAt_append {mark : Char} {before : List Sign} (h : (mark, true) ∉ before)
    (after : List Sign) : cutAt mark (before ++ (mark, true) :: after) = some (before, after) := by
  induction before with
  | nil => exact if_pos (beq_self_eq_true _)
  | cons s ss ih =>
    rw [List.mem_cons, not_or] at h
    rw [List.cons_append, cutAt, ih h.2, if_neg]
    · rfl
    · rw [beq_iff_eq]
      exact fun heq ↦ h.1 heq.symm

theorem cutAt_eq_some {mark : Char} {ss before after : List Sign}
    (h : cutAt mark ss = some (before, after)) : ss = before ++ (mark, true) :: after := by
  induction ss generalizing before with
  | nil => cases h
  | cons s ss ih =>
    rw [cutAt] at h
    split at h
    · rename_i heq
      obtain ⟨rfl, rfl⟩ := Prod.mk.inj (Option.some.inj h)
      rw [beq_iff_eq.mp heq]
      rfl
    · obtain ⟨p, hp, hcut⟩ := Option.map_eq_some_iff.mp h
      obtain ⟨rfl, rfl⟩ := Prod.mk.inj hcut
      rw [ih hp]
      rfl

theorem signs_append {cs : List Char} (h : '\\' ∉ cs) (rest : List Char) :
    signs (cs ++ rest) = cs.map (fun c ↦ (c, isMark c)) ++ signs rest := by
  induction cs with
  | nil => rfl
  | cons c cs ih =>
    rw [List.mem_cons, not_or] at h
    rw [List.cons_append, signs_cons (.inl fun heq ↦ h.1 heq.symm), ih h.2]
    rfl

def tagSigns (name value : String) : List Sign :=
  literals name.toList ++ ('=', true) :: literals value.toList

theorem mark_notMem_tagSigns {mark : Char} (h : mark ≠ '=') (name value : String) :
    (mark, true) ∉ tagSigns name value := by
  simp [tagSigns, literals, h]

theorem readTag?_tagSigns (name value : String) :
    readTag? (tagSigns name value) = some (name, value) := by
  rw [readTag?, tagSigns, cutAt_append (mark_notMem_literals _ _), Option.map_some,
    signText_literals, signText_literals]

theorem exists_signs_line {s : Sample} (h : ∀ n ∈ s.names, ¬ EndsInBackslash n) :
    ∃ rest, signs s.line.toList = literals s.key.toList ++ (',', true) :: (tagSigns "host" s.host ++
      (',', true) :: (tagSigns "subsystem" s.subsystem ++ (' ', true) :: rest)) := by
  have hkey := h s.key (by simp [names])
  have hhost := h s.host (by simp [names])
  have hsubsystem := h s.subsystem (by simp [names])
  have hfields : ∃ rest, signs (" value=".toList ++ (s.value.toDecimal.toList ++
      ' ' :: (Text.signedDecimal (lineTime s.time)).toList)) = (' ', true) :: rest :=
    ⟨_, signs_append (by decide) _⟩
  obtain ⟨rest, hrest⟩ := hfields
  refine ⟨rest, ?_⟩
  rw [line, String.toList_ofList, lineChars]
  simp only [List.append_assoc]
  rw [signs_escapedName hkey, signs_append (by decide), signs_escapedName hhost,
    signs_append (by decide), signs_escapedName hsubsystem, hrest]
  simp [tagSigns, literals, isMark]

theorem readLine?_line {s : Sample} (h : ∀ n ∈ s.names, ¬ EndsInBackslash n) :
    readLine? s.line = some s.heading := by
  obtain ⟨rest, hsigns⟩ := exists_signs_line h
  have hblank : (' ', true) ∉ literals s.key.toList ++ (',', true) :: (tagSigns "host" s.host ++
      (',', true) :: tagSigns "subsystem" s.subsystem) := by
    simp [tagSigns, literals]
  have hcut := cutAt_append hblank rest
  simp only [List.append_assoc, List.cons_append] at hcut
  rw [readLine?, hsigns, hcut]
  simp only [Option.bind_eq_bind, Option.bind_some]
  rw [List.splitOn_append_cons_self_of_not_mem (mark_notMem_literals _ _),
    List.splitOn_append_cons_self_of_not_mem (mark_notMem_tagSigns (by decide) _ _),
    List.splitOn_eq_singleton (mark_notMem_tagSigns (by decide) _ _)]
  simp [readTag?_tagSigns, signText_literals, heading]

theorem head_signs {c : Char} {cs : List Char} {s : Sign} {ss : List Sign}
    (h : signs (c :: cs) = s :: ss) (hs : s.2 = true) : isMark c = true := by
  cases cs with
  | nil =>
    obtain ⟨rfl, -⟩ := List.cons.inj h
    exact hs
  | cons d cs =>
    rw [signs] at h
    split at h <;> obtain ⟨rfl, -⟩ := List.cons.inj h
    · cases hs
    · exact hs

/-- No mark ends or parts names directly behind a backslash. -/
theorem signs_ne {cs : List Char} {before after : List Sign} {mark : Char} {parts : Bool} :
    signs cs ≠ before ++ ('\\', parts) :: (mark, true) :: after := by
  fun_induction signs cs generalizing before with
  | case1 => simp
  | case2 c => cases before <;> simp
  | case3 c d cs hescaped ih =>
    rw [Bool.and_eq_true] at hescaped
    cases before with
    | nil =>
      intro heq
      obtain ⟨hd, -⟩ := List.cons.inj heq
      rw [(Prod.mk.inj hd).1] at hescaped
      exact absurd hescaped.2 (by decide)
    | cons s before => exact fun heq ↦ ih (List.cons.inj heq).2
  | case4 c d cs hplain ih =>
    cases before with
    | nil =>
      intro heq
      obtain ⟨hc, hrest⟩ := List.cons.inj heq
      apply hplain
      rw [(Prod.mk.inj hc).1, head_signs hrest rfl]
      rfl
    | cons s before => exact fun heq ↦ ih (List.cons.inj heq).2

theorem not_endsInBackslash_signText {cs : List Char} {before ss after : List Sign} {mark : Char}
    (h : signs cs = before ++ (ss ++ (mark, true) :: after)) : ¬ EndsInBackslash (signText ss) := by
  intro hlast
  rw [EndsInBackslash, signText, String.toList_ofList, List.getLast?_map,
    Option.map_eq_some_iff] at hlast
  obtain ⟨⟨c, parts⟩, hss, rfl⟩ := hlast
  obtain ⟨front, rfl⟩ := List.getLast?_eq_some_iff.mp hss
  rw [List.append_assoc, ← List.append_assoc before] at h
  exact signs_ne h

theorem not_endsInBackslash_of_readLine? {l : String} {o : Heading} (h : readLine? l = some o) :
    ∀ n ∈ o.names, ¬ EndsInBackslash n := by
  simp only [readLine?, Option.bind_eq_bind, Option.bind_eq_some_iff] at h
  obtain ⟨⟨before, after⟩, hcut, h⟩ := h
  -- every piece stands before a comma or before the blank
  have hpiece : ∀ p ∈ before.splitOn (',', true), ∃ front mark rest,
      signs l.toList = front ++ (p ++ (mark, true) :: rest) := by
    intro p hp
    obtain ⟨a, b, rfl, hb⟩ := Text.exists_of_mem_splitOn hp
    rw [cutAt_eq_some hcut]
    rcases hb with rfl | hb
    · exact ⟨a, ' ', after, by simp⟩
    · obtain ⟨b, rfl⟩ := List.head?_eq_some_iff.mp hb
      exact ⟨a, ',', b ++ (' ', true) :: after, by simp⟩
  split at h
  · cases h
  · rename_i key tags hsplit
    obtain ⟨ts, hts, h⟩ := Option.bind_eq_some_iff.mp h
    obtain rfl := Option.some.inj h
    rw [hsplit] at hpiece
    intro n hn
    rcases List.mem_cons.mp hn with rfl | hn
    · obtain ⟨front, mark, rest, hsigns⟩ := hpiece key (List.mem_cons_self ..)
      exact not_endsInBackslash_signText hsigns
    · obtain ⟨t, ht, hn⟩ := List.mem_flatMap.mp hn
      obtain ⟨p, hp, htag⟩ := Text.of_mem_mapM hts ht
      obtain ⟨front, mark, rest, hsigns⟩ := hpiece p (List.mem_cons_of_mem _ hp)
      obtain ⟨⟨name, value⟩, hequals, rfl⟩ := Option.map_eq_some_iff.mp htag
      rw [cutAt_eq_some hequals, List.append_assoc, List.cons_append] at hsigns
      rcases List.mem_pair.mp hn with rfl | rfl
      · exact not_endsInBackslash_signText hsigns
      · have hvalue : signs l.toList =
            (front ++ (name ++ [('=', true)])) ++ (value ++ (mark, true) :: rest) := by
          rw [hsigns]
          simp
        exact not_endsInBackslash_signText hvalue

/-- What can be read off the body of a batch whose names have no line feed: the names of each sample
whose names do not end in a backslash, and of no other. -/
theorem readLine?_body {batch : List Sample} (h : ∀ s ∈ batch, ∀ n ∈ s.names, '\n' ∉ n.toList) :
    Text.lines (body batch) = batch.map line ∧
      (∀ s ∈ batch, readLine? s.line = some s.heading ↔ ∀ n ∈ s.names, ¬ EndsInBackslash n) ∧
      ∀ (l : String) (o : Heading), readLine? l = some o → ∀ n ∈ o.names, ¬ EndsInBackslash n := by
  refine ⟨lines_body h, fun s _ ↦ ⟨fun hread n hn ↦ ?_, readLine?_line⟩,
    fun l o ↦ not_endsInBackslash_of_readLine?⟩
  refine not_endsInBackslash_of_readLine? hread n ?_
  simp only [names, List.mem_cons, List.not_mem_nil, or_false] at hn
  rcases hn with rfl | rfl | rfl <;> simp [Heading.names, heading]

def oddBatch : List Sample :=
  [⟨5, "oss 01", "pfs=a", "write bytes", .one⟩, ⟨-5, "oss\\,01", "\\ ", "a\\=b\\c", .one⟩,
    ⟨0, "", "", "", .one⟩]

theorem readLine?_oddBatch : (∀ s ∈ oddBatch, ∀ n ∈ s.names, '\n' ∉ n.toList) ∧
    Text.lines (body oddBatch) = oddBatch.map line ∧
      ∀ s ∈ oddBatch, readLine? s.line = some s.heading :=
  have hnames : ∀ s ∈ oddBatch, ∀ n ∈ s.names, '\n' ∉ n.toList := by decide
  have hends : ∀ s ∈ oddBatch, ∀ n ∈ s.names, ¬ EndsInBackslash n := by decide
  have hread := readLine?_body hnames
  ⟨hnames, hread.1, fun s hs ↦ (hread.2.1 s hs).mpr (hends s hs)⟩

/-- The mark after a name that ends in a backslash belongs to the name. -/
theorem readLine?_backslash :
    (∀ n ∈ names ⟨0, "oss01", "load", "load\\", .one⟩, '\n' ∉ n.toList) ∧
      readLine? (line ⟨0, "oss01", "load", "load\\", .one⟩) ≠
        some (heading ⟨0, "oss01", "load", "load\\", .one⟩) ∧
      readLine? (line ⟨0, "oss01", "load", "load\\", .one⟩) =
        some ⟨"load,host=oss01", [("subsystem", "load")]⟩ := by
  decide +kernel

end Sample

end Rollout
