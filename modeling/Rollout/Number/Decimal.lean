import Rollout.Number.Binary64
import Rollout.Text.Search

namespace Rollout.Binary64

/-- The double nearest to `digits * 10 ^ scale`. Exponents far outside the range of doubles are
settled without computing the power. -/
def ofDecimal (negative : Bool) (digits : Nat) (scale : Int) : Binary64 :=
  if digits = 0 then .finite negative 0 minExponent
  else
    let magnitude : Int := (Nat.log2 digits : Int) * 30103 / 100000 + scale
    if 400 < magnitude then .infinite negative
    else if magnitude < -400 then .finite negative 0 minExponent
    else if scale < 0 then ofRatio negative digits (Nat.pow 10 (-scale).toNat)
    else ofRatio negative (digits * Nat.pow 10 scale.toNat) 1

def readExponent? : List Char → Option Int
  | [] => some 0
  | c :: cs =>
    if c == 'e' || c == 'E' then
      let (negative, digits) :=
        match cs with
        | '-' :: ds => (true, ds)
        | '+' :: ds => (false, ds)
        | ds => (false, ds)
      if digits.isEmpty || !digits.all Char.isDigit then none
      else
        let n : Int := Text.natOfDigits digits
        some (if negative then -n else n)
    else none

/-- A numeral without its sign: digits, at most one point, at least one digit, then perhaps an
exponent; or one of the words for infinity and for no number, in letters of either case. -/
def readMagnitude? (negative : Bool) (cs : List Char) : Option Binary64 :=
  let word := Text.foldedCase (String.ofList cs)
  if cs.all Char.isAlpha && (word == "inf" || word == "infinity") then some (.infinite negative)
  else if cs.all Char.isAlpha && word == "nan" then some .nan
  else
    let whole := cs.takeWhile Char.isDigit
    let rest := cs.dropWhile Char.isDigit
    let (fraction, tail) :=
      match rest with
      | '.' :: ds => (ds.takeWhile Char.isDigit, ds.dropWhile Char.isDigit)
      | ds => ([], ds)
    if whole.isEmpty && fraction.isEmpty then none
    else
      (readExponent? tail).map fun e ↦
        ofDecimal negative (Text.natOfDigits (whole ++ fraction)) (e - fraction.length)

def readChars? : List Char → Option Binary64
  | '-' :: cs => readMagnitude? true cs
  | '+' :: cs => readMagnitude? false cs
  | cs => readMagnitude? false cs

def read? (s : String) : Option Binary64 := readChars? s.toList

/-- The least and the greatest real that round to `m * 2 ^ e`, over the unit `2 ^ (e - 2)`. They
round to it themselves exactly if `m` is even. -/
def interval (m : Nat) (e : Int) : Nat × Nat :=
  if m = leadingBit && minExponent < e then (4 * m - 1, 4 * m + 2) else (4 * m - 2, 4 * m + 2)

def inInterval (m : Nat) (e : Int) (num den : Nat) : Bool :=
  let (low, high) := interval m e
  if m % 2 = 0 then low * den ≤ num && num ≤ high * den
  else low * den < num && num < high * den

/-- The points `k` and `k + 1` of the grid of multiples of `10 ^ scale` around the value, as pairs
of the multiple and its distance from the value, if they read back. -/
def gridHits (m : Nat) (e scale : Int) : List (Nat × Nat) :=
  -- `10 ^ scale / 2 ^ (e - 2) = up / down`
  let (u, v) := if scale < 0 then (1, Nat.pow 10 (-scale).toNat) else (Nat.pow 10 scale.toNat, 1)
  let (up, down) := scaled u v (e - 2)
  let k := 4 * m * down / up
  [k, k + 1].filterMap fun c ↦
    if c ≠ 0 && inInterval m e (c * up) down then
      some (c, if 4 * m * down ≤ c * up then c * up - 4 * m * down else 4 * m * down - c * up)
    else none

def nearest? : List (Nat × Nat) → Option Nat
  | [] => none
  | [(c, _)] => some c
  | (c, x) :: (d, y) :: _ =>
    some (if x < y then c else if y < x then d else if c % 2 = 0 then c else d)

/-- Tries grids from the coarsest to the finest until one has a point that reads back. -/
def shortestFrom (m : Nat) (e : Int) : Nat → Int → Nat × Int
  | 0, scale => (0, scale)
  | fuel + 1, scale =>
    match nearest? (gridHits m e scale) with
    | some c => (c, scale)
    | none => shortestFrom m e fuel (scale - 1)

def shortest (m : Nat) (e : Int) : Nat × Int :=
  let magnitude : Int := ((Nat.log2 m : Int) + e) * 30103 / 100000 + 2
  shortestFrom m e 400 magnitude

/-- Digits and scale in positional notation. -/
def positional (digits : Nat) (scale : Int) : String :=
  let ds := Text.decimal digits
  if 0 ≤ scale then ds ++ String.ofList (List.replicate scale.toNat '0')
  else
    let places := (-scale).toNat
    let padded := List.replicate (places + 1 - ds.length) '0' ++ ds.toList
    let cut := padded.length - places
    String.ofList (padded.take cut ++ '.' :: padded.drop cut)

def toDecimal : Binary64 → String
  | .nan => "NaN"
  | .infinite s => if s then "-inf" else "inf"
  | .finite s m e =>
    let sign := if s then "-" else ""
    if m = 0 then sign ++ "0"
    else
      let (digits, scale) := shortest m e
      sign ++ positional digits scale

end Rollout.Binary64
