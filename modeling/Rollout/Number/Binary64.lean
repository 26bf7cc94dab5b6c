namespace Rollout

def word16 : Nat := 0x10000

def word32 : Nat := 0x100000000

def word64 : Nat := 0x10000000000000000

def word63 : Nat := 0x8000000000000000

/-- A double-precision number. A finite one has the value `± significand * 2 ^ exponent`. -/
inductive Binary64
  | nan
  | infinite (negative : Bool)
  | finite (negative : Bool) (significand : Nat) (exponent : Int)
  deriving DecidableEq, Repr, Inhabited

namespace Binary64

def minExponent : Int := -1074

def maxExponent : Int := 971

def leadingBit : Nat := 0x10000000000000

def roundQuotient (num den : Nat) : Nat :=
  let q := num / den
  let twice := 2 * (num % den)
  if twice < den then q else if den < twice then q + 1 else q + q % 2

def scaled (num den : Nat) (e : Int) : Nat × Nat :=
  if e < 0 then (num * Nat.pow 2 (-e).toNat, den) else (num, den * Nat.pow 2 e.toNat)

def pack (negative : Bool) (significand : Nat) (exponent : Int) : Binary64 :=
  if significand = 2 * leadingBit then
    if maxExponent ≤ exponent then .infinite negative
    else .finite negative leadingBit (exponent + 1)
  else if maxExponent < exponent then .infinite negative
  else .finite negative significand exponent

/-- The double nearest to `num / den`, a tie going to the even significand. -/
def ofRatio (negative : Bool) (num den : Nat) : Binary64 :=
  if num = 0 then .finite negative 0 minExponent
  else
    let guess : Int := (Nat.log2 num : Int) - (Nat.log2 den : Int) - 53
    let low := max guess minExponent
    let (n, d) := scaled num den low
    if n / d < 2 * leadingBit then pack negative (roundQuotient n d) low
    else
      let (n, d) := scaled num den (low + 1)
      pack negative (roundQuotient n d) (low + 1)

def ofNat (n : Nat) : Binary64 := ofRatio false n 1

def zero : Binary64 := .finite false 0 minExponent

def one : Binary64 := ofNat 1

def ofScaled (negative : Bool) (significand : Nat) (exponent : Int) : Binary64 :=
  if exponent < 0 then ofRatio negative significand (Nat.pow 2 (-exponent).toNat)
  else ofRatio negative (significand * Nat.pow 2 exponent.toNat) 1

def mul : Binary64 → Binary64 → Binary64
  | .nan, _ | _, .nan => .nan
  | .infinite s, .infinite t => .infinite (s != t)
  | .infinite s, .finite t m _ | .finite t m _, .infinite s =>
    if m = 0 then .nan else .infinite (s != t)
  | .finite s m e, .finite t n f => ofScaled (s != t) (m * n) (e + f)

def inv : Binary64 → Binary64
  | .nan => .nan
  | .infinite s => .finite s 0 minExponent
  | .finite s m e =>
    if m = 0 then .infinite s
    else if e < 0 then ofRatio s (Nat.pow 2 (-e).toNat) m
    else ofRatio s 1 (m * Nat.pow 2 e.toNat)

def floorScaled (m : Nat) (e : Int) : Nat :=
  if e < 0 then m / Nat.pow 2 (-e).toNat else m * Nat.pow 2 e.toNat

/-- The number itself if it is at least one, otherwise (also if it is no number) one. -/
def atLeastOne : Binary64 → Binary64
  | .nan => one
  | .infinite true => one
  | .infinite false => .infinite false
  | .finite true _ _ => one
  | .finite false m e => if floorScaled m e = 0 then one else .finite false m e

/-- The whole part, brought into the range from `0` to `2 ^ 64 - 1`; no number becomes `0`. -/
def toWord : Binary64 → Nat
  | .nan => 0
  | .infinite true => 0
  | .infinite false => word64 - 1
  | .finite true _ _ => 0
  | .finite false m e => min (floorScaled m e) (word64 - 1)

def powFrom (fuel : Nat) (acc base : Binary64) (n : Nat) : Binary64 :=
  match fuel with
  | 0 => acc
  | fuel + 1 =>
    let acc := if n % 2 = 1 then acc.mul base else acc
    if n / 2 = 0 then acc else powFrom fuel acc (base.mul base) (n / 2)

/-- A whole power by repeated squaring; a negative exponent gives the reciprocal of the power. -/
def pow (base : Binary64) (n : Int) : Binary64 :=
  let p := powFrom (Nat.log2 n.natAbs + 1) one base n.natAbs
  if n < 0 then p.inv else p

/-- The 64 bits that stand for the number; all that are no numbers share one pattern. -/
def bits : Binary64 → Nat
  | .nan => 0x7FF8000000000000
  | .infinite s => (if s then word63 else 0) + 0x7FF * leadingBit
  | .finite s m e =>
    (if s then word63 else 0) +
      (if m < leadingBit then m else (e - minExponent + 1).toNat * leadingBit + (m - leadingBit))

def isNaN : Binary64 → Bool
  | .nan => true
  | _ => false

end Binary64

end Rollout
