import Mathlib.Data.List.Basic
import Rollout.Text.LossyUtf8

namespace Rollout.Text

theorem toBytes_eq (s : String) : toBytes s = s.toList.flatMap String.utf8EncodeChar := by
  rw [toBytes, String.toUTF8, ← String.utf8Encode_toList, List.utf8Encode, List.data_toByteArray]

section Lossy

variable {b : UInt8} {bs : List UInt8}

theorem lossyFrom_single (h : b.toNat < 0x80) :
    lossyFrom none (b :: bs) = Char.ofNat b.toNat :: lossyFrom none bs := by
  have hform : leadForm? b.toNat = some ⟨0, 0, 0, b.toNat⟩ := if_pos h
  simp only [lossyFrom, beginChar, hform]
  rfl

theorem lossyFrom_lead {n low high bits : Nat}
    (h : leadForm? b.toNat = some ⟨n + 1, low, high, bits⟩) :
    lossyFrom none (b :: bs) = lossyFrom (some ⟨n + 1, low, high, bits⟩) bs := by
  simp only [lossyFrom, beginChar, h]
  rfl

theorem lossyFrom_middle {n low high bits : Nat} (hlow : low ≤ b.toNat) (hhigh : b.toNat ≤ high) :
    lossyFrom (some ⟨n + 2, low, high, bits⟩) (b :: bs) =
      lossyFrom (some ⟨n + 1, 0x80, 0xBF, bits * 64 + b.toNat % 64⟩) bs := by
  simp [lossyFrom, hlow, hhigh]

theorem lossyFrom_last {low high bits : Nat} (hlow : low ≤ b.toNat) (hhigh : b.toNat ≤ high) :
    lossyFrom (some ⟨1, low, high, bits⟩) (b :: bs) =
      Char.ofNat (bits * 64 + b.toNat % 64) :: lossyFrom none bs := by
  simp [lossyFrom, hlow, hhigh]

end Lossy

section Lead

variable {v : Nat}

theorem leadForm?_two (hlow : 0x80 ≤ v) (hhigh : v < 0x800) :
    leadForm? (v / 64 % 32 + 192) = some ⟨1, 0x80, 0xBF, v / 64⟩ := by
  have hbits : v / 64 % 32 + 192 - 0xC0 = v / 64 := by omega
  unfold leadForm?
  rw [if_neg (by omega), if_neg (by omega), if_pos (by omega), hbits]

/-- The second byte keeps within the range that the first one sets: short forms and surrogates are
left out. -/
theorem leadForm?_three (hlow : 0x800 ≤ v) (hhigh : v < 0x10000) (hvalid : v < 0xD800 ∨ 0xDFFF < v) :
    ∃ low high, leadForm? (v / 4096 % 16 + 224) = some ⟨2, low, high, v / 4096⟩ ∧
      low ≤ v / 64 % 64 + 128 ∧ v / 64 % 64 + 128 ≤ high := by
  have hbits : v / 4096 % 16 + 224 - 0xE0 = v / 4096 := by omega
  unfold leadForm?
  rw [if_neg (by omega), if_neg (by omega), if_neg (by omega)]
  by_cases hfirst : v / 4096 = 0
  · rw [if_pos (by omega), hfirst]
    exact ⟨_, _, rfl, by omega, by omega⟩
  · rw [if_neg (by omega)]
    by_cases hsurrogate : v / 4096 = 0xD
    · rw [if_pos (by omega), hsurrogate]
      exact ⟨_, _, rfl, by omega, by omega⟩
    · rw [if_neg (by omega), if_pos (by omega), hbits]
      exact ⟨_, _, rfl, by omega, by omega⟩

theorem leadForm?_four (hlow : 0x10000 ≤ v) (hhigh : v < 0x110000) :
    ∃ low high, leadForm? (v / 262144 % 8 + 240) = some ⟨3, low, high, v / 262144⟩ ∧
      low ≤ v / 4096 % 64 + 128 ∧ v / 4096 % 64 + 128 ≤ high := by
  have hbits : v / 262144 % 8 + 240 - 0xF0 = v / 262144 := by omega
  unfold leadForm?
  rw [if_neg (by omega), if_neg (by omega), if_neg (by omega), if_neg (by omega),
    if_neg (by omega), if_neg (by omega)]
  by_cases hfirst : v / 262144 = 0
  · rw [if_pos (by omega), hfirst]
    exact ⟨_, _, rfl, by omega, by omega⟩
  · rw [if_neg (by omega)]
    by_cases hlast : v / 262144 = 4
    · rw [if_neg (by omega), if_pos (by omega), hlast]
      exact ⟨_, _, rfl, by omega, by omega⟩
    · rw [if_pos (by omega), hbits]
      exact ⟨_, _, rfl, by omega, by omega⟩

end Lead

/-- The bytes of a character are read as this character. -/
theorem lossyFrom_utf8EncodeChar (c : Char) (rest : List UInt8) :
    lossyFrom none (String.utf8EncodeChar c ++ rest) = c :: lossyFrom none rest := by
  have hvalid : c.toNat < 0xD800 ∨ 0xDFFF < c.toNat ∧ c.toNat < 0x110000 := c.valid
  have hself : Char.ofNat c.toNat = c := Char.ofNat_toNat c
  have hval : c.val.toNat = c.toNat := rfl
  have hbyte : ∀ n, n < 256 → (UInt8.ofNat n).toNat = n := fun n hn ↦ UInt8.toNat_ofNat_of_lt hn
  generalize c.toNat = v at hvalid hself hval
  simp only [String.utf8EncodeChar, hval]
  split
  · rw [List.singleton_append, lossyFrom_single] <;> rw [hbyte _ (by omega)]
    · rw [hself]
    · omega
  split
  · have hlead := leadForm?_two (v := v) (by omega) (by omega)
    have hbits : v / 64 * 64 + (v % 64 + 128) % 64 = v := by omega
    rw [← hbyte (v / 64 % 32 + 192) (by omega)] at hlead
    rw [List.cons_append, lossyFrom_lead hlead, List.singleton_append, lossyFrom_last] <;>
      rw [hbyte _ (by omega)]
    · rw [hbits, hself]
    · omega
    · omega
  split
  · obtain ⟨low, high, hlead, hsecond⟩ := leadForm?_three (v := v) (by omega) (by omega) (by omega)
    have hbits : (v / 4096 * 64 + (v / 64 % 64 + 128) % 64) * 64 + (v % 64 + 128) % 64 = v := by
      omega
    rw [← hbyte (v / 4096 % 16 + 224) (by omega)] at hlead
    rw [← hbyte (v / 64 % 64 + 128) (by omega)] at hsecond
    rw [List.cons_append, lossyFrom_lead hlead, List.cons_append,
      lossyFrom_middle hsecond.1 hsecond.2, List.singleton_append, lossyFrom_last] <;>
      rw [hbyte _ (by omega)]
    · rw [hbyte _ (by omega), hbits, hself]
    · omega
    · omega
  · obtain ⟨low, high, hlead, hsecond⟩ := leadForm?_four (v := v) (by omega) (by omega)
    have hbits : ((v / 262144 * 64 + (v / 4096 % 64 + 128) % 64) * 64 +
        (v / 64 % 64 + 128) % 64) * 64 + (v % 64 + 128) % 64 = v := by omega
    rw [← hbyte (v / 262144 % 8 + 240) (by omega)] at hlead
    rw [← hbyte (v / 4096 % 64 + 128) (by omega)] at hsecond
    rw [List.cons_append, lossyFrom_lead hlead, List.cons_append,
      lossyFrom_middle hsecond.1 hsecond.2, List.cons_append, lossyFrom_middle,
      List.singleton_append, lossyFrom_last] <;> rw [hbyte _ (by omega)]
    · rw [hbyte _ (by omega), hbyte _ (by omega), hbits, hself]
    all_goals omega

theorem lossyFrom_flatMap (cs : List Char) :
    lossyFrom none (cs.flatMap String.utf8EncodeChar) = cs := by
  induction cs with
  | nil => rfl
  | cons c cs ih => rw [List.flatMap_cons, lossyFrom_utf8EncodeChar, ih]

theorem ofBytes_toBytes (s : String) : ofBytes (toBytes s) = s := by
  rw [ofBytes, toBytes_eq, lossyFrom_flatMap, String.ofList_toList]

end Rollout.Text
