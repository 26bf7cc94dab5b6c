import Mathlib.Data.List.Forall2
import Rollout.Document.JsonReader
import Rollout.Document.JsonWriter
import Rollout.Proofs.Text.Digits

namespace Rollout.Json

/-- The values that records are made of: no broken strings, and no other numbers than natural ones. -/
inductive Plain : Json → Prop
  | null : Plain .null
  | boolean (b : Bool) : Plain (.boolean b)
  | natural (n : Nat) : Plain (.natural n)
  | string (s : String) : Plain (.string s)
  | array {items : List Json} : (∀ v ∈ items, Plain v) → Plain (.array items)
  | record {members : List (String × Json)} : (∀ m ∈ members, Plain m.2) → Plain (.record members)

attribute [simp] Plain.boolean Plain.natural Plain.string

inductive Escapes (c : Char) : List Char → Prop
  | plain : c ≠ '"' → c ≠ '\\' → ¬ c.toNat < 0x20 → Escapes c [c]
  | letter {e : Char} : simpleEscape? e = some c → Escapes c ['\\', e]
  | number {d₁ d₂ d₃ d₄ : Char} : fourHex? d₁ d₂ d₃ d₄ = some c.toNat → c.toNat < 0x20 →
      (∀ d ∈ [d₁, d₂, d₃, d₄], d ≠ '"' ∧ d ≠ '\\') → Escapes c ['\\', 'u', d₁, d₂, d₃, d₄]

theorem escapes_hexDigits {c : Char} (h : c.toNat < 0x20) :
    Escapes c (['\\', 'u'] ++ Text.hexDigits 4 c.toNat) := by
  have hread : ∀ n < 0x20, fourHex? (Text.hexDigit (n / 16 / 16 / 16 % 16))
      (Text.hexDigit (n / 16 / 16 % 16)) (Text.hexDigit (n / 16 % 16)) (Text.hexDigit (n % 16)) =
        some n := by
    decide
  have hplain : ∀ d < 16, Text.hexDigit d ≠ '"' ∧ Text.hexDigit d ≠ '\\' := by decide
  have hmod : ∀ n, n % 16 < 16 := fun n ↦ Nat.mod_lt n (by decide)
  refine .number (hread _ h) h ?_
  simp only [List.forall_mem_cons]
  exact ⟨hplain _ (hmod _), hplain _ (hmod _), hplain _ (hmod _), hplain _ (hmod _), nofun⟩

theorem escapes_escapedChar (c : Char) : Escapes c (escapedChar c) := by
  unfold escapedChar
  simp only [beq_iff_eq]
  split_ifs with h₁ h₂ h₃ h₄ h₅ h₆ h₇ h₈
  · exact .letter (by rw [h₁]; rfl)
  · exact .letter (by rw [h₂]; rfl)
  · exact .letter (by rw [h₃]; rfl)
  · exact .letter (by rw [h₄]; rfl)
  · exact .letter (by rw [h₅]; rfl)
  · exact .letter (by rw [h₆]; rfl)
  · exact .letter (by rw [h₇]; rfl)
  · exact escapes_hexDigits h₈
  · exact .plain h₁ h₂ h₈

theorem lexFrom_escaped {c : Char} {cs : List Char} (h : Escapes c cs) (raw rest : List Char) :
    lexFrom (.inString raw) (cs ++ rest) = lexFrom (.inString (cs.reverse ++ raw)) rest := by
  have hplain : ∀ {d : Char} (raw rest : List Char), d ≠ '"' → d ≠ '\\' →
      lexFrom (.inString raw) (d :: rest) = lexFrom (.inString (d :: raw)) rest := by
    intro d raw rest hquote hslash
    rw [lexFrom, if_neg (by simpa using hquote), if_neg (by simpa using hslash)]
  cases h with
  | plain hquote hslash _ => exact hplain _ _ hquote hslash
  | letter _ => rfl
  | @number d₁ d₂ d₃ d₄ _ _ hdigits =>
    simp only [List.forall_mem_cons] at hdigits
    obtain ⟨h₁, h₂, h₃, h₄, -⟩ := hdigits
    show lexFrom (.inString ('u' :: '\\' :: raw)) (d₁ :: d₂ :: d₃ :: d₄ :: rest) = _
    rw [hplain _ _ h₁.1 h₁.2, hplain _ _ h₂.1 h₂.2, hplain _ _ h₃.1 h₃.2, hplain _ _ h₄.1 h₄.2]
    rfl

theorem unescapeFrom_escaped {c : Char} {cs : List Char} (h : Escapes c cs) (rest : List Char) :
    unescapeFrom none (cs ++ rest) = (unescapeFrom none rest).cons c := by
  cases h with
  | plain hquote hslash hlow =>
    rw [List.singleton_append, unescapeFrom.eq_4]
    · simp [hslash, hlow]
    · exact fun _ _ _ _ _ heq _ ↦ hslash heq
    · exact fun _ _ heq _ ↦ hslash heq
  | @letter e hletter =>
    show unescapeFrom none ('\\' :: e :: rest) = _
    rw [unescapeFrom.eq_3, hletter]
    · rfl
    · rintro _ _ _ _ _ rfl _
      cases hletter
  | @number d₁ d₂ d₃ d₄ hread hlow _ =>
    show unescapeFrom none ('\\' :: 'u' :: d₁ :: d₂ :: d₃ :: d₄ :: rest) = _
    rw [unescapeFrom, hread]
    have hhigh : ¬ 0xD800 ≤ c.toNat := by omega
    have hlower : ¬ 0xDC00 ≤ c.toNat := by omega
    simp [hhigh, hlower]

def rawChars (s : String) : List Char := s.toList.flatMap escapedChar

theorem lexFrom_rawChars (s : String) (rest : List Char) :
    lexFrom (.inString []) (rawChars s ++ '"' :: rest) =
      (lexFrom .between rest).map (.string (rawChars s) :: ·) := by
  have hread : ∀ (cs raw : List Char),
      lexFrom (.inString raw) (cs.flatMap escapedChar ++ '"' :: rest) =
        (lexFrom .between rest).map (.string (raw.reverse ++ cs.flatMap escapedChar) :: ·) := by
    intro cs
    induction cs with
    | nil => intro raw; simp [lexFrom]
    | cons c cs ih =>
      intro raw
      rw [List.flatMap_cons, List.append_assoc, lexFrom_escaped (escapes_escapedChar c), ih]
      simp
  exact hread s.toList []

theorem unescape_rawChars (s : String) : unescape (rawChars s) = .text s.toList := by
  rw [unescape, rawChars]
  induction s.toList with
  | nil => rfl
  | cons c cs ih =>
    rw [List.flatMap_cons, unescapeFrom_escaped (escapes_escapedChar c), ih]
    rfl

/-- What may stand behind a token of any kind. -/
def Parted (cs : List Char) : Prop :=
  ∀ c ∈ cs.head?, c = '"' ∨ isSpace c = true ∨ (punctuation? c).isSome

def IsBare (c : Char) : Prop := c ≠ '"' ∧ isSpace c = false ∧ punctuation? c = none

/-- A text that is read to some tokens, if it is parted from what comes then. -/
def Lexes (cs : List Char) (ts : List Token) : Prop :=
  ∀ rest, Parted rest → lexFrom .between (cs ++ rest) = (lexFrom .between rest).map (ts ++ ·)

theorem Lexes.nil : Lexes [] [] := fun rest _ ↦ by simp

theorem Lexes.append {as bs : List Char} {ts us : List Token} (h : Lexes as ts) (h' : Lexes bs us)
    (hparted : ∀ rest, Parted rest → Parted (bs ++ rest)) : Lexes (as ++ bs) (ts ++ us) := by
  intro rest hrest
  rw [List.append_assoc, h _ (hparted rest hrest), h' rest hrest]
  simp [Function.comp_def]

theorem Lexes.space {c : Char} {cs : List Char} {ts : List Token} (hc : isSpace c = true)
    (h : Lexes cs ts) : Lexes (c :: cs) ts := by
  intro rest hrest
  have hquote : c ≠ '"' := by rintro rfl; cases hc
  rw [List.cons_append, lexFrom, if_neg (by simpa using hquote), if_pos hc]
  exact h rest hrest

theorem isSpace_of_punctuation {c : Char} {t : Token} (h : punctuation? c = some t) :
    c ≠ '"' ∧ isSpace c = false := by
  unfold punctuation? at h
  split at h <;> cases h <;> decide

theorem Lexes.mark {c : Char} {cs : List Char} {t : Token} {ts : List Token}
    (hc : punctuation? c = some t) (h : Lexes cs ts) : Lexes (c :: cs) (t :: ts) := by
  intro rest hrest
  obtain ⟨hquote, hspace⟩ := isSpace_of_punctuation hc
  rw [List.cons_append, lexFrom, if_neg (by simpa using hquote), if_neg (by simp [hspace]), hc]
  simp [h rest hrest, Function.comp_def]

theorem lexes_stringChars (s : String) : Lexes (stringChars s) [.string (rawChars s)] := by
  intro rest _
  have hchars : stringChars s ++ rest = '"' :: (rawChars s ++ '"' :: rest) := by
    simp [stringChars, rawChars]
  rw [hchars]
  exact lexFrom_rawChars s rest

theorem lexFrom_inBare_of_parted (w : List Char) {rest : List Char} (h : Parted rest) :
    lexFrom (.inBare w) rest = (lexFrom .between rest).map (.bare w.reverse :: ·) := by
  cases rest with
  | nil => rfl
  | cons c cs =>
    simp only [lexFrom]
    split_ifs with hquote hspace
    · rfl
    · rfl
    · rcases h c rfl with rfl | hc | hc
      · exact absurd rfl hquote
      · exact absurd hc hspace
      · obtain ⟨t, ht⟩ := Option.isSome_iff_exists.mp hc
        rw [ht]
        simp [Function.comp_def]

theorem lexes_bare {cs : List Char} (hne : cs ≠ []) (h : ∀ c ∈ cs, IsBare c) :
    Lexes cs [.bare cs] := by
  intro rest hrest
  have hbare : ∀ (ds w : List Char), (∀ c ∈ ds, IsBare c) →
      lexFrom (.inBare w) (ds ++ rest) =
        (lexFrom .between rest).map (.bare (w.reverse ++ ds) :: ·) := by
    intro ds
    induction ds with
    | nil => intro w _; rw [List.append_nil]; exact lexFrom_inBare_of_parted w hrest
    | cons d ds ih =>
      intro w hds
      obtain ⟨⟨hquote, hspace, hmark⟩, hds⟩ := List.forall_mem_cons.mp hds
      rw [List.cons_append, lexFrom, if_neg (by simpa using hquote), if_neg (by simp [hspace]),
        hmark]
      simp [ih (d :: w) hds]
  obtain ⟨c, cs, rfl⟩ := List.exists_cons_of_ne_nil hne
  obtain ⟨⟨hquote, hspace, hmark⟩, hcs⟩ := List.forall_mem_cons.mp h
  rw [List.cons_append, lexFrom, if_neg (by simpa using hquote), if_neg (by simp [hspace]), hmark]
  exact hbare cs [c] hcs

def Reads (cs : List Char) (v : Json) : Prop :=
  ∃ t ts, t ≠ .closeBracket ∧ Lexes cs (t :: ts) ∧ ∀ frames rest,
    (t :: ts ++ rest).foldlM Parse.step ⟨.value, frames⟩ = rest.foldlM Parse.step ⟨.after v, frames⟩

theorem Reads.space {c : Char} {cs : List Char} {v : Json} (hc : isSpace c = true)
    (h : Reads cs v) : Reads (c :: cs) v := by
  obtain ⟨t, ts, hne, hlex, hread⟩ := h
  exact ⟨t, ts, hne, hlex.space hc, hread⟩

theorem Reads.read? {cs : List Char} {v : Json} (h : Reads cs v) :
    read? (String.ofList cs) = some v := by
  obtain ⟨t, ts, -, hlex, hread⟩ := h
  have htokens : lexFrom .between cs = some (t :: ts) := by
    have hall := hlex [] fun c hc ↦ by cases hc
    rwa [List.append_nil, lexFrom, Option.map_some, List.append_nil] at hall
  have hparse := hread [] []
  rw [List.append_nil] at hparse
  rw [Json.read?, String.toList_ofList, readChars?, htokens]
  simp only [Option.bind_eq_bind, Option.bind_some, ofTokens?, hparse]
  rfl

theorem reads_bare {cs : List Char} {v : Json} (hne : cs ≠ []) (h : ∀ c ∈ cs, IsBare c)
    (hv : ofBare? cs = some v) : Reads cs v := by
  refine ⟨.bare cs, [], by simp, lexes_bare hne h, fun frames rest ↦ ?_⟩
  rw [List.cons_append, List.foldlM_cons, Parse.step, beginValue, hv]
  rfl

theorem reads_stringChars (s : String) : Reads (stringChars s) (.string s) := by
  refine ⟨.string (rawChars s), [], by simp, lexes_stringChars s, fun frames rest ↦ ?_⟩
  rw [List.cons_append, List.foldlM_cons, Parse.step, beginValue, unescape_rawChars,
    Unescaped.value?, String.ofList_toList]
  rfl

/-- How the parts of an array or of an object are read, one after the other. -/
structure Row (β : Type) where
  openMark : Char
  closeMark : Char
  open_ : Token
  close : Token
  first : List Frame → Parse
  start : List β → List Frame → Parse
  after : List β → β → List Frame → Parse
  whole : List β → Json
  punctuation_open : punctuation? openMark = some open_
  punctuation_close : punctuation? closeMark = some close
  step_open (frames : List Frame) : (⟨.value, frames⟩ : Parse).step open_ = some (first frames)
  step_empty (frames : List Frame) :
    (first frames).step close = some ⟨.after (whole []), frames⟩
  step_first {t : Token} (frames : List Frame) :
    t ≠ close → (first frames).step t = (start [] frames).step t
  step_comma (done : List β) (b : β) (frames : List Frame) :
    (after done b frames).step .comma = some (start (b :: done) frames)
  step_close (done : List β) (b : β) (frames : List Frame) :
    (after done b frames).step close = some ⟨.after (whole (b :: done).reverse), frames⟩
  open_ne : open_ ≠ .closeBracket

namespace Row

variable {β : Type} (r : Row β)

def Reads (cs : List Char) (b : β) : Prop :=
  ∃ t ts, t ≠ r.close ∧ Lexes cs (t :: ts) ∧ ∀ done frames rest,
    (t :: ts ++ rest).foldlM Parse.step (r.start done frames) =
      rest.foldlM Parse.step (r.after done b frames)

variable {r}

theorem Reads.space {c : Char} {cs : List Char} {b : β} (hc : isSpace c = true)
    (h : r.Reads cs b) : r.Reads (c :: cs) b := by
  obtain ⟨t, ts, hne, hlex, hread⟩ := h
  exact ⟨t, ts, hne, hlex.space hc, hread⟩

theorem reads_commaSeparated {ps : List (List Char)} {bs : List β}
    (h : List.Forall₂ r.Reads ps bs) (hne : ps ≠ []) :
    ∃ t ts, t ≠ r.close ∧ Lexes (commaSeparated ps) (t :: ts) ∧ ∀ done frames rest,
      (t :: ts ++ r.close :: rest).foldlM Parse.step (r.start done frames) =
        rest.foldlM Parse.step ⟨.after (r.whole (done.reverse ++ bs)), frames⟩ := by
  induction h with
  | nil => exact absurd rfl hne
  | @cons p b ps bs hp hps ih =>
    obtain ⟨t, ts, hclose, hlex, hread⟩ := hp
    cases ps with
    | nil =>
      cases hps
      refine ⟨t, ts, hclose, hlex, fun done frames rest ↦ ?_⟩
      rw [hread, List.foldlM_cons, r.step_close]
      simp
    | cons q ps =>
      obtain ⟨t', ts', -, hlex', hread'⟩ := ih (List.cons_ne_nil q ps)
      refine ⟨t, ts ++ .comma :: t' :: ts', hclose, ?_, fun done frames rest ↦ ?_⟩
      · refine hlex.append (hlex'.mark rfl) fun rest _ c hc ↦ ?_
        obtain rfl := Option.some.inj hc
        exact .inr (.inr rfl)
      · have hassoc : t :: (ts ++ .comma :: t' :: ts') ++ r.close :: rest =
            t :: ts ++ .comma :: (t' :: ts' ++ r.close :: rest) := by simp
        rw [hassoc, hread, List.foldlM_cons, r.step_comma]
        simp only [Option.bind_eq_bind, Option.bind_some]
        rw [hread']
        simp

theorem reads_whole {ps : List (List Char)} {bs : List β} (h : List.Forall₂ r.Reads ps bs)
    {gap : List Char} (hgap : ∀ c ∈ gap, isSpace c = true) :
    Json.Reads (r.openMark :: (commaSeparated ps ++ (gap ++ [r.closeMark]))) (r.whole bs) := by
  have hend : Lexes (gap ++ [r.closeMark]) [r.close] := by
    induction gap with
    | nil => exact Lexes.nil.mark r.punctuation_close
    | cons c gap ih =>
      obtain ⟨hc, hgap⟩ := List.forall_mem_cons.mp hgap
      exact (ih hgap).space hc
  have hparted : ∀ rest, Parted (gap ++ [r.closeMark] ++ rest) := by
    intro rest c hc
    cases gap with
    | nil =>
      obtain rfl := Option.some.inj hc
      exact .inr (.inr (by rw [r.punctuation_close]; rfl))
    | cons d gap =>
      obtain rfl := Option.some.inj hc
      exact .inr (.inl (hgap _ (List.mem_cons_self ..)))
  by_cases hne : ps = []
  · subst hne
    cases h
    refine ⟨r.open_, [r.close], r.open_ne, hend.mark r.punctuation_open, fun frames rest ↦ ?_⟩
    simp only [List.cons_append, List.nil_append, List.foldlM_cons, r.step_open, r.step_empty,
      Option.bind_eq_bind, Option.bind_some]
  · obtain ⟨t, ts, hclose, hlex, hread⟩ := reads_commaSeparated h hne
    refine ⟨r.open_, t :: ts ++ [r.close], r.open_ne,
      (hlex.append hend fun rest _ ↦ hparted rest).mark r.punctuation_open, fun frames rest ↦ ?_⟩
    have hall := hread [] frames rest
    rw [List.cons_append, List.foldlM_cons] at hall
    simp only [List.cons_append, List.append_assoc, List.nil_append, List.foldlM_cons, r.step_open,
      Option.bind_eq_bind, Option.bind_some, r.step_first frames hclose]
    exact hall

def items : Row Json where
  openMark := '['
  closeMark := ']'
  open_ := .openBracket
  close := .closeBracket
  first frames := ⟨.firstItem, frames⟩
  start done frames := ⟨.value, .items done :: frames⟩
  after done v frames := ⟨.after v, .items done :: frames⟩
  whole := .array
  punctuation_open := rfl
  punctuation_close := rfl
  step_open _ := rfl
  step_empty _ := rfl
  step_first _ h := if_neg h
  step_comma _ _ _ := rfl
  step_close _ _ _ := rfl
  open_ne := by decide

def members : Row (Option String × Json) where
  openMark := '\x7b'
  closeMark := '\x7d'
  open_ := .openBrace
  close := .closeBrace
  first frames := ⟨.firstKey [], frames⟩
  start done frames := ⟨.key done, frames⟩
  after done m frames := ⟨.after m.2, .members done m.1 :: frames⟩
  whole := .object
  punctuation_open := rfl
  punctuation_close := rfl
  step_open _ := rfl
  step_empty _ := rfl
  step_first _ h := if_neg h
  step_comma _ _ _ := rfl
  step_close _ _ _ := rfl
  open_ne := by decide

end Row

theorem Reads.item {cs : List Char} {v : Json} (h : Reads cs v) : Row.items.Reads cs v := by
  obtain ⟨t, ts, hne, hlex, hread⟩ := h
  exact ⟨t, ts, hne, hlex, fun done frames rest ↦ hread (.items done :: frames) rest⟩

theorem Reads.member {cs : List Char} {v : Json} (h : Reads cs v) (k : String) :
    Row.members.Reads (stringChars k ++ ':' :: cs) (some k, v) := by
  obtain ⟨t, ts, -, hlex, hread⟩ := h
  refine ⟨.string (rawChars k), .colon :: t :: ts, Token.noConfusion, ?_, fun done frames rest ↦ ?_⟩
  · refine (lexes_stringChars k).append (hlex.mark rfl) fun rest _ c hc ↦ ?_
    obtain rfl := Option.some.inj hc
    exact .inr (.inr rfl)
  · have hkey : (Row.members.start done frames).step (.string (rawChars k)) =
        some ⟨.colon done (some k), frames⟩ := by
      simp only [Row.members, Parse.step, beginMember, unescape_rawChars, Unescaped.key?,
        String.ofList_toList]
      rfl
    rw [List.cons_append, List.foldlM_cons, hkey]
    exact hread (.members done (some k) :: frames) rest

theorem compactItems_eq (items : List Json) : compactItems items = items.map compactChars := by
  induction items with
  | nil => rfl
  | cons v vs ih => rw [compactItems, ih, List.map_cons]

theorem prettyItems_eq (level : Nat) (items : List Json) :
    prettyItems level items = items.map fun v ↦ newLine level ++ prettyChars level v := by
  induction items with
  | nil => rfl
  | cons v vs ih => rw [prettyItems, ih, List.map_cons]

theorem compactMembers_eq (members : List (Option String × Json)) :
    compactMembers members = members.map fun m ↦ keyChars m.1 ++ ':' :: compactChars m.2 := by
  induction members with
  | nil => rfl
  | cons m ms ih => rw [compactMembers, ih, List.map_cons]

theorem prettyMembers_eq (level : Nat) (members : List (Option String × Json)) :
    prettyMembers level members = members.map fun m ↦
      newLine level ++ keyChars m.1 ++ ':' :: ' ' :: prettyChars level m.2 := by
  induction members with
  | nil => rfl
  | cons m ms ih => rw [prettyMembers, ih, List.map_cons]

theorem isBare_of_isDigit {c : Char} (h : c.isDigit = true) : IsBare c := by
  refine ⟨?_, ?_, ?_⟩
  · rintro rfl
    exact absurd h (by decide)
  · rw [Bool.eq_false_iff]
    intro hspace
    simp only [isSpace, Bool.or_eq_true, beq_iff_eq] at hspace
    rcases hspace with ((rfl | rfl) | rfl) | rfl <;> exact absurd h (by decide)
  · unfold punctuation?
    split <;> first | rfl | exact absurd h (by decide)

theorem isWhole_toDigits (n : Nat) : isWhole (Nat.toDigits 10 n) = true := by
  have hdigits : (Nat.toDigits 10 n).all Char.isDigit = true :=
    List.all_eq_true.mpr fun _ ↦ Text.isDigit_of_mem_toDigits
  unfold isWhole
  split
  · exact absurd ‹_› Nat.toDigits_ne_nil
  · rename_i r heq
    rcases Nat.eq_zero_or_pos n with rfl | hpos
    · obtain ⟨-, rfl⟩ := List.cons.inj heq
      rfl
    · exact absurd (congrArg List.head? heq) (Text.head?_toDigits_ne hpos)
  · exact hdigits

theorem ofBare?_toDigits (n : Nat) : ofBare? (Nat.toDigits 10 n) = some (.natural n) := by
  have hword : ∀ (c : Char) (cs : List Char), c.isDigit = false → Nat.toDigits 10 n ≠ c :: cs := by
    intro c cs hc heq
    rw [Text.isDigit_of_mem_toDigits (heq ▸ List.mem_cons_self ..)] at hc
    cases hc
  rw [ofBare?, if_neg (by simpa using hword _ _ (by decide)),
    if_neg (by simpa using hword _ _ (by decide)), if_neg (by simpa using hword _ _ (by decide)),
    if_pos (isWhole_toDigits n), Text.natOfDigits_toDigits]

theorem isSpace_of_mem_newLine {level : Nat} {c : Char} (h : c ∈ newLine level) :
    isSpace c = true := by
  rcases List.mem_cons.mp h with rfl | h
  · rfl
  · rw [List.eq_of_mem_replicate h]
    rfl

theorem Row.Reads.spaces {β : Type} {r : Row β} {gap cs : List Char} {b : β} (h : r.Reads cs b)
    (hgap : ∀ c ∈ gap, isSpace c = true) : r.Reads (gap ++ cs) b := by
  induction gap with
  | nil => exact h
  | cons c gap ih =>
    obtain ⟨hc, hgap⟩ := List.forall_mem_cons.mp hgap
    exact (ih hgap).space hc

theorem reads_array {items : List Json} {write : Json → List Char}
    (h : ∀ v ∈ items, Reads (write v) v) (before after : List Char)
    (hbefore : ∀ c ∈ before, isSpace c = true) (hafter : ∀ c ∈ after, isSpace c = true) :
    Reads ('[' :: (commaSeparated (items.map fun v ↦ before ++ write v) ++ (after ++ [']'])))
      (.array items) := by
  refine Row.items.reads_whole ?_ hafter
  rw [List.forall₂_map_left_iff, List.forall₂_same]
  exact fun v hv ↦ (h v hv).item.spaces hbefore

theorem reads_record {members : List (String × Json)} {write : Json → List Char}
    (h : ∀ m ∈ members, Reads (write m.2) m.2) (before after : List Char)
    (hbefore : ∀ c ∈ before, isSpace c = true) (hafter : ∀ c ∈ after, isSpace c = true) :
    Reads ('\x7b' :: (commaSeparated ((members.map fun m ↦ (some m.1, m.2)).map fun m ↦
      before ++ keyChars m.1 ++ ':' :: write m.2) ++ (after ++ ['\x7d']))) (.record members) := by
  refine Row.members.reads_whole ?_ hafter
  rw [List.forall₂_map_left_iff, List.forall₂_map_left_iff, List.forall₂_map_right_iff,
    List.forall₂_same]
  intro m hm
  rw [List.append_assoc]
  exact ((h m hm).member m.1).spaces hbefore

theorem reads_bareValue {v : Json} (hv : v ∈ [.null, .boolean true, .boolean false]) :
    Reads (compactChars v) v := by
  have hletters : ∀ w ∈ ["null".toList, "true".toList, "false".toList], ∀ c ∈ w, IsBare c := by
    simp [IsBare]
    decide
  simp only [List.mem_cons, List.not_mem_nil, or_false] at hv
  rcases hv with rfl | rfl | rfl
  · exact reads_bare (by decide) (hletters _ (by decide)) rfl
  · exact reads_bare (by decide) (hletters _ (by decide)) rfl
  · exact reads_bare (by decide) (hletters _ (by decide)) rfl

theorem reads_toDigits (n : Nat) : Reads (Nat.toDigits 10 n) (.natural n) :=
  reads_bare Nat.toDigits_ne_nil (fun _ hc ↦ isBare_of_isDigit (Text.isDigit_of_mem_toDigits hc))
    (ofBare?_toDigits n)

theorem Plain.reads_compactChars {v : Json} (h : Plain v) : Reads (compactChars v) v := by
  induction h with
  | null => exact reads_bareValue (by simp)
  | boolean b => exact reads_bareValue (by cases b <;> simp)
  | natural n => exact reads_toDigits n
  | string s => exact reads_stringChars s
  | array _ ih =>
    rw [compactChars, compactItems_eq]
    exact reads_array ih [] [] nofun nofun
  | record _ ih =>
    rw [Json.record, compactChars, compactMembers_eq]
    exact reads_record ih [] [] nofun nofun

theorem Plain.reads_prettyChars {v : Json} (h : Plain v) (level : Nat) :
    Reads (prettyChars level v) v := by
  induction h generalizing level with
  | null => exact reads_bareValue (by simp)
  | boolean b => exact reads_bareValue (by cases b <;> simp)
  | natural n => exact reads_toDigits n
  | string s => exact reads_stringChars s
  | @array items _ ih =>
    have hread := fun v hv ↦ ih v hv (level + 1)
    cases items with
    | nil => exact reads_array hread [] [] nofun nofun
    | cons v vs =>
      rw [prettyChars, prettyItems_eq, List.cons_append, List.cons_append, List.append_assoc]
      exact reads_array hread _ _ (fun _ ↦ isSpace_of_mem_newLine) fun _ ↦ isSpace_of_mem_newLine
  | @record members _ ih =>
    let write (v : Json) : List Char := ' ' :: prettyChars (level + 1) v
    have hread : ∀ m ∈ members, Reads (write m.2) m.2 := fun m hm ↦ (ih m hm (level + 1)).space rfl
    cases members with
    | nil => exact reads_record hread [] [] nofun nofun
    | cons m ms =>
      rw [Json.record, List.map_cons, prettyChars, prettyMembers_eq, List.cons_append,
        List.cons_append, List.append_assoc]
      exact reads_record hread _ _ (fun _ ↦ isSpace_of_mem_newLine) fun _ ↦ isSpace_of_mem_newLine

theorem Plain.read?_compact {v : Json} (h : Plain v) : read? v.compact = some v :=
  h.reads_compactChars.read?

theorem Plain.read?_pretty {v : Json} (h : Plain v) : read? v.pretty = some v :=
  (h.reads_prettyChars 0).read?

end Rollout.Json
