import Mathlib.Data.String.Basic
import Rollout.Remote.Ssh

namespace Rollout

namespace Text

theorem head?_wordsFrom {cs : List Char} (hcs : ∀ c ∈ cs, isBlank c = false) (word : List Char)
    (hne : word.reverse ++ cs ≠ []) {b : Char} (hb : isBlank b = true) (rest : List Char) :
    (wordsFrom word (cs ++ b :: rest)).head? = some (word.reverse ++ cs) := by
  induction cs generalizing word with
  | nil =>
    have hword : word.isEmpty = false := by simpa using hne
    simp [wordsFrom, hb, hword]
  | cons c cs ih =>
    obtain ⟨hc, hcs⟩ := List.forall_mem_cons.mp hcs
    rw [List.cons_append, wordsFrom, hc]
    simpa using ih hcs (c :: word) (by simp)

theorem bounds_of_hexValue? {c : Char} (h : (hexValue? c).isSome = true) :
    48 ≤ c.toNat ∧ c.toNat ≤ 102 := by
  have hle : ∀ a b : Char, a ≤ b ↔ a.toNat ≤ b.toNat := fun _ _ ↦ Iff.rfl
  simp only [hexValue?, Bool.and_eq_true, decide_eq_true_eq, hle] at h
  split at h
  · rename_i hdigit
    exact ⟨hdigit.1, Nat.le_trans hdigit.2 (by decide)⟩
  split at h
  · rename_i _ hlower
    exact ⟨Nat.le_trans (by decide) hlower.1, hlower.2⟩
  split at h
  · rename_i _ _ hupper
    exact ⟨Nat.le_trans (by decide) hupper.1, Nat.le_trans hupper.2 (by decide)⟩
  · cases h

theorem isBlank_of_hexValue? {c : Char} (h : (hexValue? c).isSome = true) :
    isBlank c = false := by
  have hbounds := bounds_of_hexValue? h
  simp [isBlank]
  omega

theorem utf8Size_of_hexValue? {c : Char} (h : (hexValue? c).isSome = true) : c.utf8Size = 1 :=
  Char.utf8Size_eq_one_iff.mpr (Nat.le_trans (bounds_of_hexValue? h).2 (by decide))

theorem isSome_hexValue?_of_toLower {c : Char} (h : (hexValue? c.toLower).isSome = true) :
    (hexValue? c).isSome = true := by
  by_cases hupper : 65 ≤ c.toNat ∧ c.toNat ≤ 90
  · have hall : ∀ n < 91, (hexValue? (Char.ofNat n).toLower).isSome = true →
        (hexValue? (Char.ofNat n)).isSome = true := by decide
    have hc := hall c.toNat (Nat.lt_succ_of_le hupper.2)
    rw [Char.ofNat_toNat] at hc
    exact hc h
  · have hself : c.toLower = c := dif_neg hupper
    rwa [hself] at h

theorem hexDigit_spec : ∀ n < 16, (hexValue? (hexDigit n)).isSome = true ∧
    (hexDigit n).toLower = hexDigit n := by
  decide

theorem of_mem_hexDigits {width n : Nat} {c : Char} (hc : c ∈ hexDigits width n) :
    (hexValue? c).isSome = true ∧ c.toLower = c := by
  induction width generalizing n with
  | zero => cases hc
  | succ width ih =>
    rcases List.mem_append.mp hc with hc | hc
    · exact ih hc
    · rw [List.mem_singleton.mp hc]
      exact hexDigit_spec _ (Nat.mod_lt _ (by decide))

theorem length_hexDigits (width n : Nat) : (hexDigits width n).length = width := by
  induction width generalizing n with
  | zero => rfl
  | succ width ih => simp [hexDigits, ih]

end Text

namespace Checksum

def IsDigest (w : String) : Prop :=
  w.toList.length = 64 ∧ ∀ c ∈ w.toList, (Text.hexValue? c).isSome = true

instance (w : String) : Decidable (IsDigest w) :=
  inferInstanceAs (Decidable (w.toList.length = 64 ∧
    ∀ c ∈ w.toList, (Text.hexValue? c).isSome = true))

def lower (w : String) : String := String.ofList (w.toList.map Char.toLower)

theorem isHex_iff {w : String} :
    isHex w = true ↔ ∀ c ∈ w.toList, (Text.hexValue? c).isSome = true := by
  simp [isHex]

theorem utf8ByteSize_of_hex {w : String} (h : ∀ c ∈ w.toList, (Text.hexValue? c).isSome = true) :
    w.utf8ByteSize = w.toList.length := by
  have hlen : ∀ cs : List Char, (∀ c ∈ cs, (Text.hexValue? c).isSome = true) →
      String.utf8Len cs = cs.length := by
    intro cs hcs
    induction cs with
    | nil => rfl
    | cons c cs ih =>
      obtain ⟨hc, hcs⟩ := List.forall_mem_cons.mp hcs
      rw [String.utf8Len_cons, ih hcs, Text.utf8Size_of_hexValue? hc, List.length_cons]
  rw [← hlen _ h, ← String.utf8ByteSize_ofList, String.ofList_toList]

theorem isDigest_of_lower {w : String} (h : IsDigest (lower w)) : IsDigest w := by
  rw [IsDigest, lower, String.toList_ofList, List.length_map, List.forall_mem_map] at h
  exact ⟨h.1, fun c hc ↦ Text.isSome_hexValue?_of_toLower (h.2 c hc)⟩

theorem isDigest_iff {w : String} : w.utf8ByteSize = 64 ∧ isHex w = true ↔ IsDigest w := by
  rw [isHex_iff, IsDigest]
  exact and_congr_left fun h ↦ by rw [utf8ByteSize_of_hex h]

variable {shown digest path : String}

theorem read_of_isDigest (hfirst : (Text.words shown).head? = some digest)
    (hdigest : IsDigest digest) : read shown = .ok (lower digest) := by
  obtain ⟨hsize, hhex⟩ := isDigest_iff.mpr hdigest
  obtain ⟨ws, hws⟩ := List.head?_eq_some_iff.mp hfirst
  simp [read, hws, hsize, hhex, lower]

theorem read_of_not_isDigest (hfirst : (Text.words shown).head? = some digest)
    (hnot : ¬ IsDigest digest) :
    read shown = .error (.other ("unexpected sha256sum output: " ++ Text.trim shown)) := by
  obtain ⟨ws, hws⟩ := List.head?_eq_some_iff.mp hfirst
  rw [← isDigest_iff] at hnot
  simp only [read, hws, Bool.and_eq_true, decide_eq_true_eq, hnot, if_false]

theorem read_of_blank (hnone : (Text.words shown).head? = none) :
    read shown = .error (.other "empty sha256sum output") := by
  rw [List.head?_eq_none_iff] at hnone
  simp [read, hnone]

end Checksum

namespace Sha256

theorem length_digest (message : List UInt8) : (digest message).length = 32 := rfl

theorem of_mem_hex {message : List UInt8} {c : Char} (hc : c ∈ (hex message).toList) :
    (Text.hexValue? c).isSome = true ∧ c.toLower = c := by
  rw [hex, String.toList_ofList] at hc
  obtain ⟨b, -, hc⟩ := List.mem_flatMap.mp hc
  exact Text.of_mem_hexDigits hc

theorem isDigest_hex (message : List UInt8) : Checksum.IsDigest (hex message) := by
  refine ⟨?_, fun c hc ↦ (of_mem_hex hc).1⟩
  rw [hex, String.toList_ofList, List.length_flatMap]
  simp [Text.length_hexDigits, length_digest]

theorem lower_hex (message : List UInt8) : Checksum.lower (hex message) = hex message := by
  rw [Checksum.lower, List.map_congr_left fun c hc ↦ (of_mem_hex hc).2, List.map_id',
    String.ofList_toList]

end Sha256

namespace Checksum

def IsPlain (path : String) : Prop := ∀ c ∈ path.toList, c ≠ '\\' ∧ c ≠ '\n' ∧ c ≠ '\r'

theorem isPlain_iff {path : String} :
    (path.toList.all fun c ↦ c != '\\' && c != '\n' && c != '\r') = true ↔ IsPlain path := by
  simp only [IsPlain, List.all_eq_true, Bool.and_eq_true, bne_iff_ne, ne_eq, and_assoc]

instance (path : String) : Decidable (IsPlain path) := decidable_of_iff _ isPlain_iff

theorem escapedChar_of_plain {c : Char} (h : c ≠ '\\' ∧ c ≠ '\n' ∧ c ≠ '\r') :
    escapedChar c = [c] := by
  simp [escapedChar, h]

theorem length_escapedChar_of_not_plain {c : Char} (h : ¬ (c ≠ '\\' ∧ c ≠ '\n' ∧ c ≠ '\r')) :
    (escapedChar c).length = 2 := by
  by_cases hslash : c = '\\'
  · subst hslash
    rfl
  · by_cases hfeed : c = '\n'
    · subst hfeed
      rfl
    · obtain rfl : c = '\r' := by simpa [hslash, hfeed] using h
      rfl

theorem length_le_escaped (cs : List Char) : cs.length ≤ (cs.flatMap escapedChar).length := by
  induction cs with
  | nil => exact Nat.le_refl _
  | cons c cs ih =>
    have hone : 1 ≤ (escapedChar c).length := by
      by_cases hc : c ≠ '\\' ∧ c ≠ '\n' ∧ c ≠ '\r'
      · rw [escapedChar_of_plain hc]
        exact Nat.le_refl _
      · rw [length_escapedChar_of_not_plain hc]
        decide
    simp only [List.flatMap_cons, List.length_append, List.length_cons]
    omega

theorem escaped_eq_iff {path : String} :
    path.toList.flatMap escapedChar = path.toList ↔ IsPlain path := by
  unfold IsPlain
  generalize path.toList = cs
  induction cs with
  | nil => simp
  | cons c cs ih =>
    rw [List.forall_mem_cons, ← ih, List.flatMap_cons]
    by_cases hc : c ≠ '\\' ∧ c ≠ '\n' ∧ c ≠ '\r'
    · rw [escapedChar_of_plain hc, and_iff_right hc, List.singleton_append, List.cons.injEq,
        and_iff_right rfl]
    · refine iff_of_false (fun heq ↦ ?_) fun hboth ↦ hc hboth.1
      have hlength := congrArg List.length heq
      have hle := length_le_escaped cs
      rw [List.length_append, length_escapedChar_of_not_plain hc, List.length_cons] at hlength
      omega

def linePrefix (path : String) : String := if IsPlain path then "" else "\\"

theorem line_eq (digest path : String) :
    line digest path = linePrefix path ++ digest ++ "  " ++
      String.ofList (path.toList.flatMap escapedChar) ++ "\n" := by
  simp only [line, linePrefix]
  by_cases hplain : IsPlain path
  · rw [if_pos hplain, if_pos (beq_iff_eq.mpr (escaped_eq_iff.mpr hplain))]
  · rw [if_neg hplain, if_neg fun h ↦ hplain (escaped_eq_iff.mp (beq_iff_eq.mp h))]

/-- The first word of the line for a file is the digest only if the name is plain. -/
theorem head?_words_line {digest : String} (hdigest : IsDigest digest) (path : String) :
    (Text.words (line digest path)).head? = some (linePrefix path ++ digest) := by
  have hblank : ∀ c ∈ (linePrefix path ++ digest).toList, Text.isBlank c = false := by
    intro c hc
    rw [String.toList_append, List.mem_append] at hc
    rcases hc with hc | hc
    · unfold linePrefix at hc
      split at hc
      · cases hc
      · rw [List.mem_singleton.mp hc]
        decide
    · exact Text.isBlank_of_hexValue? (hdigest.2 c hc)
  have hne : [].reverse ++ (linePrefix path ++ digest).toList ≠ [] := by
    have hlength := hdigest.1
    intro hnil
    rw [List.reverse_nil, List.nil_append, String.toList_append, List.append_eq_nil_iff] at hnil
    rw [hnil.2] at hlength
    cases hlength
  obtain ⟨rest, hline⟩ : ∃ rest, (line digest path).toList =
      (linePrefix path ++ digest).toList ++ ' ' :: rest := by
    refine ⟨' ' :: (path.toList.flatMap escapedChar ++ ['\n']), ?_⟩
    have hblanks : "  ".toList = [' ', ' '] := rfl
    have hend : "\n".toList = ['\n'] := rfl
    simp only [line_eq, String.toList_append, String.toList_ofList, hblanks, hend,
      List.append_assoc, List.cons_append, List.nil_append]
  have hfirst := Text.head?_wordsFrom hblank [] hne (b := ' ') (by decide) rest
  rw [← hline] at hfirst
  rw [Text.words, List.head?_map, hfirst, List.reverse_nil, List.nil_append, Option.map_some,
    String.ofList_toList]

theorem read_line {digest : String} (hdigest : IsDigest digest) (path : String) :
    read (line digest path) = if IsPlain path then .ok (lower digest)
      else .error (.other ("unexpected sha256sum output: " ++ Text.trim (line digest path))) := by
  have hfirst := head?_words_line hdigest path
  split
  · rename_i hplain
    rw [linePrefix, if_pos hplain, String.empty_append] at hfirst
    exact read_of_isDigest hfirst hdigest
  · rename_i hplain
    rw [linePrefix, if_neg hplain] at hfirst
    refine read_of_not_isDigest hfirst fun hboth ↦ ?_
    have hlength := hboth.1
    rw [String.toList_append, List.length_append, hdigest.1] at hlength
    cases hlength

end Checksum

end Rollout
