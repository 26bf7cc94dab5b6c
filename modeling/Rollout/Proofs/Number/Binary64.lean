import Mathlib.Data.Nat.Log
import Mathlib.Tactic.NormNum
import Mathlib.Tactic.Ring
import Rollout.Number.Binary64

namespace Rollout.Binary64

variable {a b n v p : Nat}

theorem leadingBit_eq : leadingBit = 2 ^ 52 := rfl

theorem roundQuotient_mul (q : Nat) {den : Nat} (hden : 0 < den) :
    roundQuotient (q * den) den = q := by
  simp only [roundQuotient, Nat.mul_mod_left, Nat.mul_zero, hden, if_true]
  exact Nat.mul_div_cancel q hden

theorem log2_mul_two_pow (hv : 0 < v) : Nat.log2 (v * 2 ^ p) = Nat.log2 v + p := by
  rw [Nat.log2_eq_iff (Nat.mul_pos hv (Nat.two_pow_pos p)).ne', Nat.add_right_comm, Nat.pow_add,
    Nat.pow_add]
  exact ⟨Nat.mul_le_mul_right _ (Nat.log2_self_le hv.ne'),
    Nat.mul_lt_mul_of_pos_right Nat.lt_log2_self (Nat.two_pow_pos p)⟩

theorem log2_le (hv : 0 < v) (hlt : v < 2 ^ 53) : Nat.log2 v ≤ 52 :=
  Nat.le_of_lt_succ ((Nat.log2_lt hv.ne').mpr hlt)

theorem bounds_significand (hv : 0 < v) (hlt : v < 2 ^ 53) :
    2 ^ 52 ≤ v * 2 ^ (52 - Nat.log2 v) ∧ v * 2 ^ (52 - Nat.log2 v) < 2 ^ 53 := by
  have hlog := log2_le hv hlt
  constructor
  · calc 2 ^ 52 = 2 ^ Nat.log2 v * 2 ^ (52 - Nat.log2 v) := by rw [← Nat.pow_add]; congr 1; omega
      _ ≤ v * 2 ^ (52 - Nat.log2 v) := Nat.mul_le_mul_right _ (Nat.log2_self_le hv.ne')
  · calc v * 2 ^ (52 - Nat.log2 v) < 2 ^ (Nat.log2 v + 1) * 2 ^ (52 - Nat.log2 v) :=
        Nat.mul_lt_mul_of_pos_right Nat.lt_log2_self (Nat.two_pow_pos _)
      _ = 2 ^ 53 := by rw [← Nat.pow_add]; congr 1; omega

/-- `v * 2 ^ n` as a double, with all bits of its significand; what is too large is infinite. -/
def shifted (v n : Nat) : Binary64 :=
  if Nat.log2 v + n ≤ 1023 then
    .finite false (v * 2 ^ (52 - Nat.log2 v)) ((Nat.log2 v + n : Nat) - 52)
  else .infinite false

theorem shifted_of_le (h : Nat.log2 v + n ≤ 1023) : shifted v n =
    .finite false (v * 2 ^ (52 - Nat.log2 v)) ((Nat.log2 v + n : Nat) - 52) := if_pos h

theorem shifted_of_lt (h : 1023 < Nat.log2 v + n) : shifted v n = .infinite false :=
  if_neg (Nat.not_le_of_lt h)

theorem scaled_two_pow {i j k : Nat} {e : Int} (h : (i : Int) = j + e + k) :
    ∃ d, 0 < d ∧ scaled (v * 2 ^ i) (2 ^ j) e = (v * 2 ^ k * d, d) := by
  rcases Int.lt_or_le e 0 with he | he
  · have hsum : i + (-e).toNat = k + j := by omega
    refine ⟨2 ^ j, Nat.two_pow_pos j, ?_⟩
    rw [scaled, if_pos he, Nat.pow_eq, Nat.mul_assoc, Nat.mul_assoc, ← Nat.pow_add, ← Nat.pow_add,
      hsum]
  · have hsum : i = k + (j + e.toNat) := by omega
    refine ⟨2 ^ (j + e.toNat), Nat.two_pow_pos _, ?_⟩
    rw [scaled, if_neg (by omega), Nat.pow_eq, Nat.mul_assoc, ← Nat.pow_add, ← Nat.pow_add, hsum]

theorem ofRatio_two_pow (hv : 0 < v) (hlt : v < 2 ^ 53) {i j n : Nat} (h : i = j + n) :
    ofRatio false (v * 2 ^ i) (2 ^ j) = shifted v n := by
  obtain ⟨hlow, hhigh⟩ := bounds_significand hv hlt
  have hlog := log2_le hv hlt
  have hnum : v * 2 ^ i ≠ 0 := (Nat.mul_pos hv (Nat.two_pow_pos i)).ne'
  have hguess : max ((Nat.log2 (v * 2 ^ i) : Int) - (Nat.log2 (2 ^ j) : Int) - 53) minExponent =
      ((Nat.log2 v + n : Nat) : Int) - 53 := by
    rw [log2_mul_two_pow hv, Nat.log2_two_pow, minExponent]
    omega
  -- At first one bit too many is asked for.
  obtain ⟨d, hd, hlong⟩ := scaled_two_pow (v := v) (i := i) (j := j) (k := 52 - Nat.log2 v + 1)
    (e := ((Nat.log2 v + n : Nat) : Int) - 53) (by omega)
  obtain ⟨d', hd', hfit⟩ := scaled_two_pow (v := v) (i := i) (j := j) (k := 52 - Nat.log2 v)
    (e := ((Nat.log2 v + n : Nat) : Int) - 53 + 1) (by omega)
  have hexp : ((Nat.log2 v + n : Nat) : Int) - 53 + 1 = (Nat.log2 v + n : Nat) - 52 := by omega
  rw [ofRatio, if_neg hnum]
  simp only [hguess, hlong, hfit]
  have htwice : v * 2 ^ (52 - Nat.log2 v + 1) = 2 * (v * 2 ^ (52 - Nat.log2 v)) := by
    rw [Nat.pow_succ]
    ring
  rw [Nat.mul_div_cancel _ hd, if_neg (by rw [htwice, leadingBit_eq]; omega),
    roundQuotient_mul _ hd', pack, if_neg (by rw [leadingBit_eq]; omega), hexp, maxExponent, shifted]
  split
  · rw [if_neg (by omega)]
  · rw [if_pos (by omega)]

theorem ofNat_eq (hv : 0 < v) (hlt : v < 2 ^ 53) : ofNat v = shifted v 0 := by
  have h := ofRatio_two_pow (i := 0) (j := 0) (n := 0) hv hlt rfl
  rwa [Nat.pow_zero, Nat.mul_one] at h

theorem ofScaled_eq (hv : 0 < v) (hlt : v < 2 ^ 53) {i n : Nat} {e : Int} (h : (i : Int) + e = n) :
    ofScaled false (v * 2 ^ i) e = shifted v n := by
  rw [ofScaled]
  split
  · exact ofRatio_two_pow hv hlt (by omega)
  · rw [Nat.pow_eq, Nat.mul_assoc, ← Nat.pow_add]
    exact ofRatio_two_pow (j := 0) hv hlt (by omega)

theorem log2_add_le (ha : 0 < a) (hb : 0 < b) : Nat.log2 a + Nat.log2 b ≤ Nat.log2 (a * b) := by
  rw [Nat.le_log2 (Nat.mul_pos ha hb).ne', Nat.pow_add]
  exact Nat.mul_le_mul (Nat.log2_self_le ha.ne') (Nat.log2_self_le hb.ne')

theorem mul_shifted (ha : 0 < a) (hb : 0 < b) (h : a * b < 2 ^ 53) (m n : Nat) :
    (shifted a m).mul (shifted b n) = shifted (a * b) (m + n) := by
  have hlog := log2_add_le ha hb
  have hlogs := log2_le (Nat.mul_pos ha hb) h
  have hsignificand : a * 2 ^ (52 - Nat.log2 a) * (b * 2 ^ (52 - Nat.log2 b)) =
      a * b * 2 ^ (52 - Nat.log2 a + (52 - Nat.log2 b)) := by
    rw [Nat.pow_add]
    ring
  have hnonzero : ∀ {c : Nat}, 0 < c → c * 2 ^ (52 - Nat.log2 c) ≠ 0 :=
    fun hc ↦ (Nat.mul_pos hc (Nat.two_pow_pos _)).ne'
  rcases Nat.lt_or_ge 1023 (Nat.log2 a + m) with hm | hm <;>
    rcases Nat.lt_or_ge 1023 (Nat.log2 b + n) with hn | hn
  · rw [shifted_of_lt hm, shifted_of_lt hn, shifted_of_lt (by omega), mul, bne_self_eq_false]
  · rw [shifted_of_lt hm, shifted_of_le hn, shifted_of_lt (by omega), mul, if_neg (hnonzero hb),
      bne_self_eq_false]
  · rw [shifted_of_le hm, shifted_of_lt hn, shifted_of_lt (by omega), mul, if_neg (hnonzero ha),
      bne_self_eq_false]
  · rw [shifted_of_le hm, shifted_of_le hn, mul, hsignificand, bne_self_eq_false]
    exact ofScaled_eq (Nat.mul_pos ha hb) h (by omega)

theorem toWord_shifted (hv : 0 < v) (hlt : v < 2 ^ 53) (n : Nat) :
    (shifted v n).toWord = Nat.min (v * 2 ^ n) (word64 - 1) := by
  have hlog := log2_le hv hlt
  unfold shifted
  split
  · have hfloor : floorScaled (v * 2 ^ (52 - Nat.log2 v)) ((Nat.log2 v + n : Nat) - 52) =
        v * 2 ^ n := by
      rw [floorScaled]
      split
      · have hsum : 52 - Nat.log2 v = n + (-(((Nat.log2 v + n : Nat) : Int) - 52)).toNat := by omega
        rw [Nat.pow_eq, hsum, Nat.pow_add, ← Nat.mul_assoc, Nat.mul_div_cancel _ (Nat.two_pow_pos _)]
      · rw [Nat.pow_eq, Nat.mul_assoc, ← Nat.pow_add]
        congr 2
        omega
    rw [toWord, hfloor]
  · have hlarge : 2 ^ 64 ≤ v * 2 ^ n := by
      calc 2 ^ 64 ≤ 2 ^ (Nat.log2 v + n) := Nat.pow_le_pow_right (by decide) (by omega)
        _ = 2 ^ Nat.log2 v * 2 ^ n := Nat.pow_add ..
        _ ≤ v * 2 ^ n := Nat.mul_le_mul_right _ (Nat.log2_self_le hv.ne')
    rw [toWord]
    exact (Nat.min_eq_right (by rw [word64]; omega)).symm

theorem ofRatio_zero (den : Nat) : ofRatio false 0 den = .finite false 0 minExponent := if_pos rfl

theorem ofScaled_zero (e : Int) : ofScaled false 0 e = ofNat 0 := by
  rw [ofScaled, Nat.zero_mul, ofRatio_zero, ofRatio_zero, ite_self, ofNat, ofRatio_zero]

theorem exists_ofNat_eq (h : n < 2 ^ 53) :
    ∃ m e, ofNat n = .finite false m e ∧ (n = 0 → m = 0) := by
  rcases Nat.eq_zero_or_pos n with rfl | hpos
  · exact ⟨0, minExponent, ofRatio_zero 1, fun _ ↦ rfl⟩
  · have hlog := log2_le hpos h
    rw [ofNat_eq hpos h, shifted, if_pos (by omega)]
    exact ⟨_, _, rfl, fun hzero ↦ absurd hzero hpos.ne'⟩

theorem ofNat_mul_ofNat (ha : a < 2 ^ 53) (hb : b < 2 ^ 53) (h : a * b < 2 ^ 53) :
    (ofNat a).mul (ofNat b) = ofNat (a * b) := by
  rcases Nat.eq_zero_or_pos (a * b) with hzero | hpos
  · obtain ⟨m, e, hm, hm0⟩ := exists_ofNat_eq ha
    obtain ⟨m', e', hm', hm0'⟩ := exists_ofNat_eq hb
    have hprod : m * m' = 0 :=
      Nat.mul_eq_zero.mpr ((Nat.mul_eq_zero.mp hzero).imp hm0 hm0')
    rw [hm, hm', mul, hprod, bne_self_eq_false, ofScaled_zero, hzero]
  · have hapos : 0 < a := Nat.pos_of_mul_pos_right hpos
    have hbpos : 0 < b := Nat.pos_of_mul_pos_left hpos
    rw [ofNat_eq hapos ha, ofNat_eq hbpos hb, mul_shifted hapos hbpos h, ofNat_eq hpos h]

theorem toWord_ofNat (h : n < 2 ^ 53) : (ofNat n).toWord = n := by
  rcases Nat.eq_zero_or_pos n with rfl | hpos
  · rw [ofNat, ofRatio_zero, toWord, floorScaled, Nat.zero_mul, Nat.zero_div, ite_self]
    exact Nat.zero_min _
  · rw [ofNat_eq hpos h, toWord_shifted hpos h, Nat.pow_zero, Nat.mul_one]
    exact Nat.min_eq_left (by rw [word64]; omega)

/-- A power of two by repeated squaring is exact, times what has been gathered before. -/
theorem powFrom_shifted {fuel n : Nat} (hn : n < 2 ^ fuel) (p q : Nat) :
    powFrom fuel (shifted 1 p) (shifted 1 q) n = shifted 1 (p + q * n) := by
  have hmul : ∀ p q, (shifted 1 p).mul (shifted 1 q) = shifted 1 (p + q) :=
    mul_shifted Nat.one_pos Nat.one_pos (by decide)
  induction fuel generalizing p q n with
  | zero =>
    obtain rfl : n = 0 := by omega
    rfl
  | succ fuel ih =>
    have hodd : (if n % 2 = 1 then (shifted 1 p).mul (shifted 1 q) else shifted 1 p) =
        shifted 1 (p + q * (n % 2)) := by
      rcases Nat.mod_two_eq_zero_or_one n with h | h
      · rw [if_neg (by omega), h, Nat.mul_zero, Nat.add_zero]
      · rw [if_pos h, hmul, h, Nat.mul_one]
    have hsplit : q * n = q * (n % 2) + (q + q) * (n / 2) := by
      calc q * n = q * (n % 2 + 2 * (n / 2)) := by rw [Nat.mod_add_div]
        _ = q * (n % 2) + (q + q) * (n / 2) := by ring
    rw [powFrom, hodd]
    split
    · rename_i hlast
      rw [hsplit, hlast, Nat.mul_zero, Nat.add_zero]
    · rw [hmul, ih (by rw [Nat.pow_succ] at hn; omega), hsplit, Nat.add_assoc]

theorem ofNat_two_eq_shifted : ofNat 2 = shifted 1 1 := by decide

theorem pow_two (n : Nat) : (ofNat 2).pow n = shifted 1 n := by
  have hone : one = shifted 1 0 := ofNat_eq Nat.one_pos (by decide)
  rw [pow, if_neg (by omega), Int.natAbs_natCast, hone, ofNat_two_eq_shifted,
    powFrom_shifted Nat.lt_log2_self, Nat.zero_add, Nat.one_mul]

/-- The whole part of a number times a power of two. Zero stays zero, also when the power of two is
infinite and the product no number. -/
theorem toWord_ofNat_mul_shifted (h : a < 2 ^ 53) (n : Nat) :
    ((ofNat a).mul (shifted 1 n)).toWord = Nat.min (a * 2 ^ n) (word64 - 1) := by
  rcases Nat.eq_zero_or_pos a with rfl | hpos
  · have hnone : (Nat.min (0 * 2 ^ n) (word64 - 1)) = 0 := by rw [Nat.zero_mul]; exact Nat.zero_min _
    rw [hnone, ofNat, ofRatio_zero, shifted]
    split
    · rw [mul, Nat.zero_mul, bne_self_eq_false, ofScaled_zero, toWord_ofNat (by decide)]
    · rw [mul, if_pos rfl, toWord]
  · rw [ofNat_eq hpos h, mul_shifted hpos Nat.one_pos (by rwa [Nat.mul_one]), Nat.mul_one,
      Nat.zero_add, toWord_shifted hpos h]

def OneLe : Binary64 → Prop
  | .infinite false => True
  | .finite false m e => 1 ≤ floorScaled m e
  | _ => False

variable {m num den : Nat} {e : Int} {x : Binary64}

theorem OneLe.toWord (h : OneLe x) : 1 ≤ x.toWord := by
  unfold OneLe at h
  split at h
  · decide
  · exact Nat.le_min.mpr ⟨h, by decide⟩
  · cases h

theorem one_le_floorScaled_iff :
    1 ≤ floorScaled m e ↔ if e < 0 then 2 ^ (-e).toNat ≤ m else 1 ≤ m := by
  rw [floorScaled]
  split
  · rw [Nat.pow_eq, Nat.le_div_iff_mul_le (Nat.two_pow_pos _), Nat.one_mul]
  · exact ⟨Nat.pos_of_mul_pos_right, fun h ↦ Nat.mul_pos h (Nat.two_pow_pos _)⟩

theorem oneLe_pack (h : 1 ≤ floorScaled m e) : OneLe (pack false m e) := by
  rw [pack]
  split
  · rename_i htwice
    subst htwice
    split
    · trivial
    · rw [OneLe, one_le_floorScaled_iff]
      rw [one_le_floorScaled_iff] at h
      split
      · rw [if_pos (by omega), show (-e).toNat = (-(e + 1)).toNat + 1 by omega, Nat.pow_succ] at h
        omega
      · decide
  · split
    · trivial
    · exact h

theorem div_le_roundQuotient : num / den ≤ roundQuotient num den := by
  simp only [roundQuotient]
  split
  · exact le_rfl
  · split
    · exact Nat.le_succ _
    · exact Nat.le_add_right ..

theorem one_le_floorScaled_scaled (hden : 0 < den) (hle : den ≤ num)
    (he : e ≤ 0 ∨ e + Nat.log2 den + 1 ≤ Nat.log2 num) :
    1 ≤ floorScaled (roundQuotient (scaled num den e).1 (scaled num den e).2) e := by
  rw [one_le_floorScaled_iff]
  split
  · rename_i hneg
    rw [scaled, if_pos hneg]
    refine Nat.le_trans ?_ div_le_roundQuotient
    rw [Nat.le_div_iff_mul_le hden, Nat.mul_comm]
    exact Nat.mul_le_mul_right _ hle
  · rename_i hpos
    rw [scaled, if_neg hpos]
    refine Nat.le_trans ?_ div_le_roundQuotient
    refine (Nat.le_div_iff_mul_le (Nat.mul_pos hden (Nat.two_pow_pos _))).mpr ?_
    rw [Nat.one_mul]
    rcases he with hzero | hlog
    · obtain rfl : e = 0 := by omega
      exact (Nat.mul_one den).trans_le hle
    · have hnum : num ≠ 0 := by omega
      calc den * 2 ^ e.toNat ≤ 2 ^ (Nat.log2 den + 1) * 2 ^ e.toNat :=
            Nat.mul_le_mul_right _ Nat.lt_log2_self.le
        _ = 2 ^ (Nat.log2 den + 1 + e.toNat) := (Nat.pow_add ..).symm
        _ ≤ 2 ^ Nat.log2 num := Nat.pow_le_pow_right (by decide) (by omega)
        _ ≤ num := Nat.log2_self_le hnum

theorem oneLe_ofRatio (hden : 0 < den) (hle : den ≤ num) : OneLe (ofRatio false num den) := by
  rw [ofRatio, if_neg (by omega)]
  simp only
  split
  · refine oneLe_pack (one_le_floorScaled_scaled hden hle ?_)
    rw [minExponent]
    omega
  · refine oneLe_pack (one_le_floorScaled_scaled hden hle ?_)
    rw [minExponent]
    omega

theorem ofNat_two : ofNat 2 = .finite false (2 ^ 52) (-51) := ofNat_eq (by decide) (by decide)

theorem OneLe.double (h : OneLe x) : OneLe (x.mul (ofNat 2)) := by
  rw [ofNat_two]
  unfold OneLe at h
  split at h
  · trivial
  · rename_i m e
    rw [one_le_floorScaled_iff] at h
    rw [mul, bne_self_eq_false, ofScaled]
    split
    · refine oneLe_ofRatio (Nat.two_pow_pos _) ?_
      split at h
      · have hexp : (-(e + -51)).toNat = (-e).toNat + 51 := by omega
        rw [hexp, Nat.pow_eq, Nat.pow_add]
        exact Nat.mul_le_mul h (by decide)
      · calc 2 ^ (-(e + -51)).toNat ≤ 2 ^ 52 := Nat.pow_le_pow_right (by decide) (by omega)
          _ ≤ m * 2 ^ 52 := Nat.le_mul_of_pos_left _ h
    · refine oneLe_ofRatio (by decide) (Nat.mul_pos (Nat.mul_pos ?_ (by decide)) (Nat.two_pow_pos _))
      split at h
      · omega
      · exact h
  · cases h

end Rollout.Binary64
