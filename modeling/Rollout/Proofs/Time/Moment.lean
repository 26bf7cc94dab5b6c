import Mathlib.Algebra.Ring.Nat
import Mathlib.Tactic.SplitIfs
import Rollout.Proofs.Text.Digits
import Rollout.Time.Moment

namespace Rollout.Moment

structure IsExisting (t : Moment) : Prop where
  year : yearInRange t.year = true
  month_pos : 1 ≤ t.month
  month_le : t.month ≤ 12
  day_pos : 1 ≤ t.day
  day_le : t.day ≤ daysInMonth t.year t.month
  hour_le : t.hour ≤ 23
  minute_le : t.minute ≤ 59
  second_le : t.second ≤ 60
  nano_lt : t.nano < 1000000000

theorem isValid_iff {t : Moment} : t.isValid = true ↔ t.IsExisting := by
  simp only [isValid, Bool.and_eq_true, decide_eq_true_eq]
  constructor
  · rintro ⟨⟨⟨⟨⟨⟨⟨⟨h₁, h₂⟩, h₃⟩, h₄⟩, h₅⟩, h₆⟩, h₇⟩, h₈⟩, h₉⟩
    exact ⟨h₁, h₂, h₃, h₄, h₅, h₆, h₇, h₈, h₉⟩
  · rintro ⟨h₁, h₂, h₃, h₄, h₅, h₆, h₇, h₈, h₉⟩
    exact ⟨⟨⟨⟨⟨⟨⟨⟨h₁, h₂⟩, h₃⟩, h₄⟩, h₅⟩, h₆⟩, h₇⟩, h₈⟩, h₉⟩

theorem daysInMonth_le (y : Int) (m : Nat) : daysInMonth y m ≤ 31 := by
  unfold daysInMonth
  split_ifs <;> omega

theorem isDigit_of_mem_digits {width n : Nat} {c : Char} (hc : c ∈ digits width n) :
    c.isDigit = true := by
  rcases List.mem_append.mp hc with hc | hc
  · rw [List.eq_of_mem_replicate hc]
    rfl
  · exact Text.isDigit_of_mem_toDigits hc

theorem digits_ne_nil (width n : Nat) : digits width n ≠ [] :=
  List.append_ne_nil_of_right_ne_nil _ Nat.toDigits_ne_nil

theorem length_digits {width n : Nat} (hwidth : 0 < width) (h : n < 10 ^ width) :
    (digits width n).length = width := by
  have hle := (Nat.length_toDigits_le_iff (by decide) hwidth).mpr h
  rw [digits, List.length_append, List.length_replicate]
  omega

theorem natOfDigits_digits (width n : Nat) : Text.natOfDigits (digits width n) = n :=
  Text.natOfDigits_replicate_append _ n

theorem isBlank_of_isDigit {c : Char} (h : c.isDigit = true) : Text.isBlank c = false := by
  have hrange : 48 ≤ c.toNat ∧ c.toNat ≤ 57 := by
    simpa [Char.isDigit, UInt32.le_iff_toNat_le] using h
  simp only [Text.isBlank, Bool.or_eq_false_iff, Bool.and_eq_false_iff, decide_eq_false_iff_not,
    beq_eq_false_iff_ne]
  omega

theorem trimLeft_cons {c : Char} (h : Text.isBlank c = false) (cs : List Char) :
    Text.trimLeft (c :: cs) = c :: cs := by
  rw [Text.trimLeft, List.dropWhile_cons_of_neg (by simp [h])]

def EndsNumber (cs : List Char) : Prop := ∀ c ∈ cs.head?, c.isDigit = false

theorem takeWhile_of_endsNumber {cs : List Char} (h : EndsNumber cs) :
    cs.takeWhile Char.isDigit = [] := by
  cases cs with
  | nil => rfl
  | cons c cs => rw [List.takeWhile_cons_of_neg (by simp [h c rfl])]

theorem dropWhile_of_endsNumber {cs : List Char} (h : EndsNumber cs) :
    cs.dropWhile Char.isDigit = cs := by
  cases cs with
  | nil => rfl
  | cons c cs => rw [List.dropWhile_cons_of_neg (by simp [h c rfl])]

theorem takeWhile_digits (width n : Nat) {rest : List Char} (h : EndsNumber rest) :
    (digits width n ++ rest).takeWhile Char.isDigit = digits width n := by
  rw [List.takeWhile_append_of_pos fun _ ↦ isDigit_of_mem_digits, takeWhile_of_endsNumber h,
    List.append_nil]

theorem dropWhile_digits (width n : Nat) {rest : List Char} (h : EndsNumber rest) :
    (digits width n ++ rest).dropWhile Char.isDigit = rest := by
  rw [List.dropWhile_append_of_pos fun _ ↦ isDigit_of_mem_digits, dropWhile_of_endsNumber h]

theorem exists_digits_eq_cons (width n : Nat) :
    ∃ c cs, digits width n = c :: cs ∧ c.isDigit = true := by
  obtain ⟨c, cs, h⟩ := List.exists_cons_of_ne_nil (digits_ne_nil width n)
  exact ⟨c, cs, h, isDigit_of_mem_digits (h ▸ List.mem_cons_self ..)⟩

theorem trimLeft_digits (width n : Nat) (rest : List Char) :
    Text.trimLeft (digits width n ++ rest) = digits width n ++ rest := by
  obtain ⟨c, cs, h, hc⟩ := exists_digits_eq_cons width n
  rw [h, List.cons_append, trimLeft_cons (isBlank_of_isDigit hc)]

theorem readNumber?_digits {most width n : Nat} {rest : List Char} (h : EndsNumber rest)
    (hlength : (digits width n).length ≤ most) :
    readNumber? most (digits width n ++ rest) = some (n, rest) := by
  have htake : (digits width n).take most = digits width n := List.take_of_length_le hlength
  simp only [readNumber?, trimLeft_digits, takeWhile_digits width n h, htake, natOfDigits_digits,
    List.drop_left]
  rw [if_neg (by simpa using digits_ne_nil width n)]

theorem readNumber?_two {n : Nat} (hn : n < 100) {rest : List Char} (h : EndsNumber rest) :
    readNumber? 2 (digits 2 n ++ rest) = some (n, rest) :=
  readNumber?_digits h (Nat.le_of_eq (length_digits (by decide) hn))

theorem readMark?_cons {mark : Char} (h : Text.isBlank mark = false) (rest : List Char) :
    readMark? mark (mark :: rest) = some rest := by
  rw [readMark?, trimLeft_cons h]
  simp

theorem readYear?_yearChars (y : Int) {rest : List Char} (h : EndsNumber rest) :
    readYear? (yearChars y ++ rest) = some (y, rest) := by
  unfold yearChars
  split_ifs with hfour hneg
  · simp only [Bool.and_eq_true, decide_eq_true_eq] at hfour
    have hlength : (digits 4 y.toNat).length ≤ 4 :=
      Nat.le_of_eq (length_digits (by decide) (by omega))
    have hread := readNumber?_digits h hlength
    obtain ⟨c, cs, hdigits, hc⟩ := exists_digits_eq_cons 4 y.toNat
    rw [readYear?, trimLeft_digits]
    split
    · rename_i r heq
      rw [hdigits, List.cons_append] at heq
      rw [(List.cons.inj heq).1] at hc
      exact absurd hc (by decide)
    · rename_i r heq
      rw [hdigits, List.cons_append] at heq
      rw [(List.cons.inj heq).1] at hc
      exact absurd hc (by decide)
    · rw [hread, Option.map_some, Int.toNat_of_nonneg hfour.1]
  all_goals
    have hlength : (digits 4 y.natAbs).length ≤ (digits 4 y.natAbs ++ rest).length := by
      rw [List.length_append]
      exact Nat.le_add_right ..
    have hread := readNumber?_digits h hlength
    have hhead : ((digits 4 y.natAbs ++ rest).head?.map Char.isDigit).getD false = true := by
      obtain ⟨c, cs, hdigits, hc⟩ := exists_digits_eq_cons 4 y.natAbs
      rw [hdigits]
      exact hc
    rw [List.cons_append, readYear?, trimLeft_cons (by decide)]
    simp only [hhead, if_true, hread, Option.map_some]
  · rw [Int.ofNat_natAbs_of_nonpos (by omega), Int.neg_neg]
  · rw [Int.natAbs_of_nonneg (by omega)]

theorem endsNumber_fractionChars (nano : Nat) : EndsNumber (fractionChars nano ++ ['Z']) := by
  unfold fractionChars
  split_ifs <;> intro c hc <;> obtain rfl := Option.some.inj hc <;> rfl

theorem readFraction?_digits {width n : Nat} (h : (digits width n).length = width)
    (hwidth : width ≤ 9) {rest : List Char} (hrest : EndsNumber rest) :
    readFraction? ('.' :: digits width n ++ rest) = some (n * 10 ^ (9 - width), rest) := by
  have htake : (digits width n).take 9 = digits width n :=
    List.take_of_length_le (Nat.le_trans (Nat.le_of_eq h) hwidth)
  simp only [List.cons_append, readFraction?, takeWhile_digits width n hrest, htake,
    dropWhile_digits width n hrest, natOfDigits_digits, h]
  rw [if_neg (by simpa using digits_ne_nil width n)]
  rfl

theorem readFraction?_fractionChars {nano : Nat} (h : nano < 1000000000) :
    readFraction? (fractionChars nano ++ ['Z']) = some (nano, ['Z']) := by
  have hrest : EndsNumber ['Z'] := fun c hc ↦ by
    obtain rfl := Option.some.inj hc
    rfl
  unfold fractionChars
  simp only [beq_iff_eq]
  split_ifs with hzero hmilli hmicro
  · rw [hzero]
    rfl
  · rw [readFraction?_digits (length_digits (by decide) (by omega)) (by decide) hrest]
    congr 2
    omega
  · rw [readFraction?_digits (length_digits (by decide) (by omega)) (by decide) hrest]
    congr 2
    omega
  · rw [readFraction?_digits (length_digits (by decide) (by omega)) (by decide) hrest]
    congr 2
    omega

theorem earlierBy_zero {t : Moment} (h : t.IsExisting) : t.earlierBy 0 = t := by
  have hhour := h.hour_le
  have hminute := h.minute_le
  obtain ⟨year, month, day, hour, minute, second, nano⟩ := t
  simp only at hhour hminute
  simp only [earlierBy]
  rw [if_neg (by omega), if_neg (by omega)]
  congr 1 <;> omega

theorem endsNumber_cons {c : Char} (h : c.isDigit = false) (cs : List Char) :
    EndsNumber (c :: cs) := fun d hd ↦ by
  obtain rfl := Option.some.inj hd
  exact h

theorem chars_eq (t : Moment) :
    t.chars = yearChars t.year ++ '-' :: (digits 2 t.month ++ '-' :: (digits 2 t.day ++
      'T' :: (digits 2 t.hour ++ ':' :: (digits 2 t.minute ++ ':' :: (digits 2 t.second ++
        (fractionChars t.nano ++ ['Z'])))))) := by
  simp [chars]

theorem read?_text {t : Moment} (h : t.IsExisting) : read? t.text = some t := by
  have hday : t.day < 100 := by
    have hle := h.day_le
    have hmost := daysInMonth_le t.year t.month
    omega
  have hmonth := h.month_le
  have hhour := h.hour_le
  have hminute := h.minute_le
  have hsecond := h.second_le
  have hdash : Text.isBlank '-' = false := by decide
  have hcolon : Text.isBlank ':' = false := by decide
  rw [read?, text, String.toList_ofList, chars_eq]
  -- one part after the other is read, and each leaves the next one
  refine Option.bind_eq_some_iff.mpr ⟨_, readYear?_yearChars _ (endsNumber_cons rfl _), ?_⟩
  refine Option.bind_eq_some_iff.mpr ⟨_, readMark?_cons hdash _, ?_⟩
  refine Option.bind_eq_some_iff.mpr ⟨_, readNumber?_two (by omega) (endsNumber_cons rfl _), ?_⟩
  refine Option.bind_eq_some_iff.mpr ⟨_, readMark?_cons hdash _, ?_⟩
  refine Option.bind_eq_some_iff.mpr ⟨_, readNumber?_two hday (endsNumber_cons rfl _), ?_⟩
  refine Option.bind_eq_some_iff.mpr ⟨_, readNumber?_two (by omega) (endsNumber_cons rfl _), ?_⟩
  refine Option.bind_eq_some_iff.mpr ⟨_, readMark?_cons hcolon _, ?_⟩
  refine Option.bind_eq_some_iff.mpr ⟨_, readNumber?_two (by omega) (endsNumber_cons rfl _), ?_⟩
  refine Option.bind_eq_some_iff.mpr ⟨_, readMark?_cons hcolon _, ?_⟩
  refine Option.bind_eq_some_iff.mpr
    ⟨_, readNumber?_two (by omega) (endsNumber_fractionChars _), ?_⟩
  refine Option.bind_eq_some_iff.mpr ⟨_, readFraction?_fractionChars h.nano_lt, ?_⟩
  refine Option.bind_eq_some_iff.mpr ⟨(0, []), rfl, ?_⟩
  simp only [isValid_iff.mpr h, earlierBy_zero h, h.year]
  rfl

theorem one_le_daysInMonth (y : Int) (m : Nat) : 1 ≤ daysInMonth y m := by
  unfold daysInMonth
  split_ifs <;> omega

theorem IsExisting.previousDay {t : Moment} (h : t.IsExisting)
    (hyear : yearInRange t.previousDay.year = true) : t.previousDay.IsExisting := by
  have hpos := h.day_pos
  have hle := h.day_le
  unfold Moment.previousDay at hyear ⊢
  split_ifs at hyear ⊢ with hday hmonth
  · exact { h with day_pos := by simp only; omega, day_le := by simp only; omega }
  · exact { h with
      month_pos := by simp only; omega
      month_le := Nat.le_trans (Nat.sub_le ..) h.month_le
      day_pos := one_le_daysInMonth ..
      day_le := Nat.le_refl _ }
  · exact { h with
      year := hyear
      month_pos := (by decide : 1 ≤ 12)
      month_le := Nat.le_refl 12
      day_pos := (by decide : 1 ≤ 31)
      day_le := Nat.le_refl 31 }

theorem IsExisting.nextDay {t : Moment} (h : t.IsExisting)
    (hyear : yearInRange t.nextDay.year = true) : t.nextDay.IsExisting := by
  have hpos := h.day_pos
  unfold Moment.nextDay at hyear ⊢
  split_ifs at hyear ⊢ with hday hmonth
  · exact { h with day_pos := by simp only; omega, day_le := by simp only; omega }
  · exact { h with
      month_pos := by simp only; omega
      month_le := by simp only; omega
      day_pos := Nat.le_refl 1
      day_le := one_le_daysInMonth .. }
  · exact { h with
      year := hyear
      month_pos := Nat.le_refl 1
      month_le := (by decide : 1 ≤ 12)
      day_pos := Nat.le_refl 1
      day_le := one_le_daysInMonth .. }

theorem IsExisting.earlierBy {t : Moment} (h : t.IsExisting) {minutes : Int}
    (hminutes : minutes.natAbs < 1440)
    (hyear : yearInRange (t.earlierBy minutes).year = true) : (t.earlierBy minutes).IsExisting := by
  have hhour := h.hour_le
  have hminute := h.minute_le
  simp only [Moment.earlierBy] at hyear ⊢
  split_ifs at hyear ⊢ with hbefore hafter
  · have hday := h.previousDay hyear
    exact { hday with hour_le := by simp only; omega, minute_le := by simp only; omega }
  · have hday := h.nextDay hyear
    exact { hday with hour_le := by simp only; omega, minute_le := by simp only; omega }
  · exact { h with hour_le := by simp only; omega, minute_le := by simp only; omega }

theorem isExisting_of_read? {s : String} {t : Moment} (h : read? s = some t) : t.IsExisting := by
  obtain ⟨⟨year, _⟩, -, h⟩ := Option.bind_eq_some_iff.mp h
  obtain ⟨_, -, h⟩ := Option.bind_eq_some_iff.mp h
  obtain ⟨⟨month, _⟩, -, h⟩ := Option.bind_eq_some_iff.mp h
  obtain ⟨_, -, h⟩ := Option.bind_eq_some_iff.mp h
  obtain ⟨⟨day, cs⟩, -, h⟩ := Option.bind_eq_some_iff.mp h
  cases cs with
  | nil => cases h
  | cons c cs =>
    dsimp only at h
    split at h
    · obtain ⟨_, -, h⟩ := Option.bind_eq_some_iff.mp h
      obtain ⟨⟨hour, _⟩, -, h⟩ := Option.bind_eq_some_iff.mp h
      obtain ⟨_, -, h⟩ := Option.bind_eq_some_iff.mp h
      obtain ⟨⟨minute, _⟩, -, h⟩ := Option.bind_eq_some_iff.mp h
      obtain ⟨_, -, h⟩ := Option.bind_eq_some_iff.mp h
      obtain ⟨⟨second, _⟩, -, h⟩ := Option.bind_eq_some_iff.mp h
      obtain ⟨⟨nano, _⟩, -, h⟩ := Option.bind_eq_some_iff.mp h
      obtain ⟨⟨offset, _⟩, -, h⟩ := Option.bind_eq_some_iff.mp h
      dsimp only at h
      split_ifs at h with hbad hyear
      obtain rfl := Option.some.inj h
      simp only [Bool.or_eq_true, Bool.not_eq_true', decide_eq_true_eq, not_or, ge_iff_le,
        Nat.not_le, Bool.not_eq_false] at hbad
      exact (isValid_iff.mp hbad.1.2).earlierBy hbad.2 hyear
    · cases h

end Rollout.Moment
