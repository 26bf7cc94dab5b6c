
namespace Rollout.Text

def occursIn (piece : List Char) : List Char → Bool
  | [] => piece.isEmpty
  | c :: cs => piece.isPrefixOf (c :: cs) || occursIn piece cs

def contains (s piece : String) : Bool := occursIn piece.toList s.toList

/-- Replaces `piece` from left to right, where occurrences do not overlap; `skip` counts the
characters of an occurrence that are still to be passed over. -/
def replaceFrom (piece by_ : List Char) (skip : Nat) : List Char → List Char
  | [] => []
  | c :: cs =>
    match skip with
    | skip + 1 => replaceFrom piece by_ skip cs
    | 0 =>
      if piece.isPrefixOf (c :: cs) then by_ ++ replaceFrom piece by_ (piece.length - 1) cs
      else c :: replaceFrom piece by_ 0 cs

def replace (s piece by_ : String) : String :=
  String.ofList (replaceFrom piece.toList by_.toList 0 s.toList)

def splitAtFirst (mark : Char) (cs : List Char) : Option (List Char × List Char) :=
  match cs.dropWhile (· != mark) with
  | [] => none
  | _ :: rest => some (cs.takeWhile (· != mark), rest)

def splitOnce (s : String) (mark : Char) : Option (String × String) :=
  (splitAtFirst mark s.toList).map fun p ↦ (String.ofList p.1, String.ofList p.2)

/-- The letter without its case, as far as comparing with unaccented lower-case words goes: among
all other characters only the Kelvin sign has such a letter as its lower case. -/
def foldCase (c : Char) : Char := if c == '\u212A' then 'k' else c.toLower

def foldedCase (s : String) : String := String.ofList (s.toList.map foldCase)

def padRight (width : Nat) (s : String) : String :=
  s ++ String.ofList (List.replicate (width - s.length) ' ')

def padLeft (width : Nat) (s : String) : String :=
  String.ofList (List.replicate (width - s.length) ' ') ++ s

def decimal (n : Nat) : String := Nat.repr n

def signedDecimal : Int → String
  | .ofNat n => decimal n
  | .negSucc n => "-" ++ decimal (n + 1)

def hexDigit (n : Nat) : Char := Nat.digitChar n

/-- The last `width` hexadecimal digits of a number, most significant first. -/
def hexDigits : Nat → Nat → List Char
  | 0, _ => []
  | width + 1, n => hexDigits width (n / 16) ++ [hexDigit (n % 16)]

def hexValue? (c : Char) : Option Nat :=
  if '0' ≤ c && c ≤ '9' then some (c.toNat - 48)
  else if 'a' ≤ c && c ≤ 'f' then some (c.toNat - 87)
  else if 'A' ≤ c && c ≤ 'F' then some (c.toNat - 55)
  else none

def natOfDigits (cs : List Char) : Nat := cs.foldl (fun n c ↦ 10 * n + (c.toNat - 48)) 0

def compareChars : List Char → List Char → Bool
  | [], _ => true
  | _ :: _, [] => false
  | a :: as, b :: bs => if a == b then compareChars as bs else a.toNat < b.toNat

/-- Whether a text comes before or equals another in the order of code points, which is also the
order of their UTF-8 bytes. -/
def le (a b : String) : Bool := compareChars a.toList b.toList

def lt (a b : String) : Bool := le a b && a != b

end Rollout.Text
