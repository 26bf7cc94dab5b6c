import Rollout.Text.Blank
import Rollout.Text.Search

namespace Rollout

/-- A point in time. `second` is `60` in a leap second. -/
structure Moment where
  year : Int
  month : Nat
  day : Nat
  hour : Nat
  minute : Nat
  second : Nat
  nano : Nat
  deriving DecidableEq, Repr, Inhabited

namespace Moment

def isLeapYear (y : Int) : Bool := y % 4 == 0 && (y % 100 != 0 || y % 400 == 0)

def daysInMonth (y : Int) (m : Nat) : Nat :=
  if m == 2 then (if isLeapYear y then 29 else 28)
  else if m == 4 || m == 6 || m == 9 || m == 11 then 30
  else 31

/-- The calendar reaches from year -262143 to year 262142. -/
def yearInRange (y : Int) : Bool := -262143 ≤ y && y ≤ 262142

def isValid (t : Moment) : Bool :=
  yearInRange t.year && 1 ≤ t.month && t.month ≤ 12 && 1 ≤ t.day &&
    t.day ≤ daysInMonth t.year t.month && t.hour ≤ 23 && t.minute ≤ 59 && t.second ≤ 60 &&
    t.nano < 1000000000

def nextDay (t : Moment) : Moment :=
  if t.day < daysInMonth t.year t.month then { t with day := t.day + 1 }
  else if t.month < 12 then { t with month := t.month + 1, day := 1 }
  else { t with year := t.year + 1, month := 1, day := 1 }

def previousDay (t : Moment) : Moment :=
  if 1 < t.day then { t with day := t.day - 1 }
  else if 1 < t.month then
    { t with month := t.month - 1, day := daysInMonth t.year (t.month - 1) }
  else { t with year := t.year - 1, month := 12, day := 31 }

/-- The same clock reading `minutes` earlier, for an offset of less than a day. -/
def earlierBy (t : Moment) (minutes : Int) : Moment :=
  let m : Int := (t.hour * 60 + t.minute : Nat) - minutes
  let at_ (t : Moment) (m : Int) : Moment :=
    { t with hour := (m / 60).toNat, minute := (m % 60).toNat }
  if m < 0 then at_ t.previousDay (m + 1440)
  else if 1440 ≤ m then at_ t.nextDay (m - 1440)
  else at_ t m

def digits (width n : Nat) : List Char :=
  let ds := Nat.toDigits 10 n
  List.replicate (width - ds.length) '0' ++ ds

def yearChars (y : Int) : List Char :=
  if 0 ≤ y && y ≤ 9999 then digits 4 y.toNat
  else (if y < 0 then '-' else '+') :: digits 4 y.natAbs

/-- The shortest of no, three, six and nine digits that loses nothing. -/
def fractionChars (nano : Nat) : List Char :=
  if nano == 0 then []
  else if nano % 1000000 == 0 then '.' :: digits 3 (nano / 1000000)
  else if nano % 1000 == 0 then '.' :: digits 6 (nano / 1000)
  else '.' :: digits 9 nano

def chars (t : Moment) : List Char :=
  yearChars t.year ++ '-' :: digits 2 t.month ++ '-' :: digits 2 t.day ++
    'T' :: digits 2 t.hour ++ ':' :: digits 2 t.minute ++ ':' :: digits 2 t.second ++
    fractionChars t.nano ++ ['Z']

def text (t : Moment) : String := String.ofList t.chars

def readNumber? (width : Nat) (cs : List Char) : Option (Nat × List Char) :=
  let cs := Text.trimLeft cs
  let ds := (cs.takeWhile Char.isDigit).take width
  if ds.isEmpty then none else some (Text.natOfDigits ds, cs.drop ds.length)

def readYear? (cs : List Char) : Option (Int × List Char) :=
  match Text.trimLeft cs with
  | '-' :: r =>
    if (r.head?.map Char.isDigit).getD false then
      (readNumber? r.length r).map fun p ↦ (-(p.1 : Int), p.2)
    else none
  | '+' :: r =>
    if (r.head?.map Char.isDigit).getD false then
      (readNumber? r.length r).map fun p ↦ ((p.1 : Int), p.2)
    else none
  | r => (readNumber? 4 r).map fun p ↦ ((p.1 : Int), p.2)

def readMark? (mark : Char) (cs : List Char) : Option (List Char) :=
  match Text.trimLeft cs with
  | c :: r => if c == mark then some r else none
  | [] => none

/-- A fraction in nanoseconds, if a point comes; digits after the ninth are passed over. -/
def readFraction? : List Char → Option (Nat × List Char)
  | '.' :: r =>
    let ds := r.takeWhile Char.isDigit
    if ds.isEmpty then none
    else
      let kept := ds.take 9
      some (Text.natOfDigits kept * Nat.pow 10 (9 - kept.length), r.dropWhile Char.isDigit)
  | r => some (0, r)

/-- The offset from universal time in minutes: a `Z`, the word `UTC`, or a sign, two digits of
hours and two of minutes. -/
def readOffset? (cs : List Char) : Option (Int × List Char) :=
  match Text.trimLeft cs with
  | [] => none
  | c :: r =>
    let word := (c :: r).take 3
    if word.map Char.toLower == ['u', 't', 'c'] then some (0, (c :: r).drop 3)
    else if c == 'Z' || c == 'z' then some (0, r)
    else if c == '+' || c == '-' || c == '\u2212' then
      match r with
      | h₁ :: h₂ :: r =>
        if h₁.isDigit && h₂.isDigit then
          match r.dropWhile fun c ↦ c == ':' || Text.isBlank c with
          | m₁ :: m₂ :: rest =>
            if m₁.isDigit && m₂.isDigit && m₁.toNat ≤ '5'.toNat then
              let n : Int := 60 * Text.natOfDigits [h₁, h₂] + Text.natOfDigits [m₁, m₂]
              some (if c == '+' then n else -n, rest)
            else none
          | _ => none
        else none
      | _ => none
    else none

/-- Reads a date, a separator (`T` or one space), a time and an offset of less than a day. -/
def readChars? (cs : List Char) : Option Moment := do
  let (year, cs) ← readYear? cs
  let cs ← readMark? '-' cs
  let (month, cs) ← readNumber? 2 cs
  let cs ← readMark? '-' cs
  let (day, cs) ← readNumber? 2 cs
  let cs ← match cs with
    | c :: r => if c == 't' || c == 'T' || c == ' ' then some r else none
    | [] => none
  let (hour, cs) ← readNumber? 2 cs
  let cs ← readMark? ':' cs
  let (minute, cs) ← readNumber? 2 cs
  let cs ← readMark? ':' cs
  let (second, cs) ← readNumber? 2 cs
  let (nano, cs) ← readFraction? cs
  let (offset, cs) ← readOffset? cs
  let local_ : Moment := ⟨year, month, day, hour, minute, second, nano⟩
  if !(Text.trimLeft cs).isEmpty || !local_.isValid || offset.natAbs ≥ 1440 then none
  else
    let t := local_.earlierBy offset
    if yearInRange t.year then some t else none

def read? (s : String) : Option Moment := readChars? s.toList

/-- A nominal start of time for runs whose clock only counts from zero. -/
def origin : Moment := ⟨2000, 1, 1, 0, 0, 0, 0⟩

def later (t : Moment) (millis : Nat) : Moment :=
  let total := ((t.hour * 60 + t.minute) * 60 + t.second) * 1000 + t.nano / 1000000 + millis
  let ms := total % 86400000
  let t := (List.range (total / 86400000)).foldl (fun t _ ↦ t.nextDay) t
  { t with
    hour := ms / 3600000
    minute := ms / 60000 % 60
    second := ms / 1000 % 60
    nano := ms % 1000 * 1000000 }

end Moment

end Rollout
