import Rollout.Document.Toml
import Rollout.Number.Binary64
import Rollout.Number.Decimal

namespace Rollout.Toml

abbrev Reader (α : Type) := List Char → Option (α × List Char)

/-- Arrays and inline tables may be nested less deeply than this, and a key has fewer parts. -/
def depthLimit : Nat := 80

def isIndent (c : Char) : Bool := c == ' ' || c == '\t'

def skipIndent (cs : List Char) : List Char := cs.dropWhile isIndent

def isPlain (c : Char) : Bool := c == '\t' || (0x20 ≤ c.toNat && c.toNat != 0x7F)

def lineEnd? : List Char → Option (List Char)
  | '\n' :: cs => some cs
  | '\r' :: '\n' :: cs => some cs
  | _ => none

def skipComment : List Char → List Char
  | '#' :: cs => cs.dropWhile isPlain
  | cs => cs

def skipFiller : Nat → List Char → List Char
  | 0, cs => cs
  | fuel + 1, cs =>
    let rest := skipComment (skipIndent cs)
    match lineEnd? rest with
    | some rest => skipFiller fuel rest
    | none => rest

def skipBlankLines : Nat → List Char → List Char
  | 0, cs => cs
  | fuel + 1, cs =>
    match lineEnd? (skipIndent cs) with
    | some rest => skipBlankLines fuel rest
    | none => skipIndent cs

def hexNumber? (ds : List Char) : Option Nat :=
  ds.foldlM (fun n c ↦ (Text.hexValue? c).map (16 * n + ·)) 0

def scalar? (n : Nat) : Option Char :=
  if n < 0xD800 || (0xE000 ≤ n && n < 0x110000) then some (Char.ofNat n) else none

def readEscape : Reader Char
  | 'b' :: cs => some ('\x08', cs)
  | 't' :: cs => some ('\t', cs)
  | 'n' :: cs => some ('\n', cs)
  | 'f' :: cs => some ('\x0c', cs)
  | 'r' :: cs => some ('\r', cs)
  | '"' :: cs => some ('"', cs)
  | '\\' :: cs => some ('\\', cs)
  | 'u' :: cs =>
    if cs.length < 4 then none
    else ((hexNumber? (cs.take 4)).bind scalar?).map fun c ↦ (c, cs.drop 4)
  | 'U' :: cs =>
    if cs.length < 8 then none
    else ((hexNumber? (cs.take 8)).bind scalar?).map fun c ↦ (c, cs.drop 8)
  | _ => none

def readBasic (fuel : Nat) : Reader (List Char)
  | '"' :: cs => some ([], cs)
  | '\\' :: cs =>
    match fuel with
    | 0 => none
    | fuel + 1 => do
      let (c, cs) ← readEscape cs
      let (s, cs) ← readBasic fuel cs
      return (c :: s, cs)
  | c :: cs =>
    match fuel with
    | 0 => none
    | fuel + 1 =>
      if isPlain c then (readBasic fuel cs).map fun p ↦ (c :: p.1, p.2) else none
  | [] => none

def readLiteral : Reader (List Char)
  | '\'' :: cs => some ([], cs)
  | c :: cs => if isPlain c then (readLiteral cs).map fun p ↦ (c :: p.1, p.2) else none
  | [] => none

/-- A run of the delimiter of a string of several lines: the quotes that belong to the string, and
whether the run closes it. Of three or more quotes the last three close the string, and at most two
belong to it. -/
def closingRun (run : Nat) : Nat × Bool := if run < 3 then (run, false) else (min (run - 3) 2, true)

def readMultiline (quote : Char) (escapes : Bool) (fuel : Nat) (cs : List Char) :
    Option (List Char × List Char) :=
  match fuel with
  | 0 => none
  | fuel + 1 =>
    match lineEnd? cs with
    | some cs => (readMultiline quote escapes fuel cs).map fun p ↦ ('\n' :: p.1, p.2)
    | none =>
      match cs with
      | [] => none
      | c :: rest =>
        if c == quote then
          let run := (cs.takeWhile (· == quote)).length
          let (kept, closes) := closingRun run
          if closes then some (List.replicate kept quote, cs.drop (kept + 3))
          else
            (readMultiline quote escapes fuel (cs.drop run)).map fun p ↦
              (List.replicate kept quote ++ p.1, p.2)
        else if escapes && c == '\\' then
          match lineEnd? (skipIndent rest) with
          | some rest => readMultiline quote escapes fuel (skipBlankLines (fuel + 1) rest)
          | none => do
            let (c, cs) ← readEscape rest
            let (s, cs) ← readMultiline quote escapes fuel cs
            return (c :: s, cs)
        else if isPlain c then
          (readMultiline quote escapes fuel rest).map fun p ↦ (c :: p.1, p.2)
        else none

def dropFirstLineEnd (cs : List Char) : List Char := (lineEnd? cs).getD cs

def readString : Reader String := fun cs ↦
  let done (r : Option (List Char × List Char)) := r.map fun p ↦ (String.ofList p.1, p.2)
  match cs with
  | '"' :: '"' :: '"' :: cs => done (readMultiline '"' true (cs.length + 1) (dropFirstLineEnd cs))
  | '\'' :: '\'' :: '\'' :: cs =>
    done (readMultiline '\'' false (cs.length + 1) (dropFirstLineEnd cs))
  | '"' :: cs => done (readBasic cs.length cs)
  | '\'' :: cs => done (readLiteral cs)
  | _ => none

def isBareKeyChar (c : Char) : Bool := c.isAlphanum || c == '_' || c == '-'

def readKeyPart : Reader String := fun cs ↦
  match cs with
  | '"' :: cs => (readBasic cs.length cs).map fun p ↦ (String.ofList p.1, p.2)
  | '\'' :: cs => (readLiteral cs).map fun p ↦ (String.ofList p.1, p.2)
  | cs =>
    let w := cs.takeWhile isBareKeyChar
    if w.isEmpty then none else some (String.ofList w, cs.drop w.length)

def readKeyParts : Nat → Reader (List String)
  | 0, _ => none
  | fuel + 1, cs => do
    let (k, cs) ← readKeyPart (skipIndent cs)
    match skipIndent cs with
    | '.' :: cs =>
      let (ks, cs) ← readKeyParts fuel cs
      return (k :: ks, cs)
    | cs => return ([k], cs)

/-- A key: the parts before the last one, and the last one. -/
def readKey : Reader (List String × String) := fun cs ↦ do
  let (ks, cs) ← readKeyParts (depthLimit - 1) cs
  let key ← ks.getLast?
  return ((ks.dropLast, key), cs)

/-- Digits of which every two may have one `_` between them. -/
def joinDigits? (isDigit : Char → Bool) : List Char → Option (List Char)
  | [] => none
  | [c] => if isDigit c then some [c] else none
  | c :: '_' :: cs => if isDigit c then (joinDigits? isDigit cs).map (c :: ·) else none
  | c :: cs => if isDigit c then (joinDigits? isDigit cs).map (c :: ·) else none

def splitSign : List Char → Bool × List Char
  | '-' :: cs => (true, cs)
  | '+' :: cs => (false, cs)
  | cs => (false, cs)

def wholeDigits? (cs : List Char) : Option (List Char) :=
  match joinDigits? Char.isDigit cs with
  | some ('0' :: _ :: _) => none
  | r => r

def isOctal (c : Char) : Bool := '0' ≤ c && c ≤ '7'

def isBinary (c : Char) : Bool := c == '0' || c == '1'

def radixNumber? (base : Nat) (isDigit : Char → Bool) (cs : List Char) : Option Nat := do
  let ds ← joinDigits? isDigit cs
  ds.foldlM (fun n c ↦ (Text.hexValue? c).map (base * n + ·)) 0

def integer? (cs : List Char) : Option Int :=
  let n? : Option Int :=
    match cs with
    | '0' :: 'x' :: ds => (radixNumber? 16 (fun c ↦ (Text.hexValue? c).isSome) ds).map (↑·)
    | '0' :: 'o' :: ds => (radixNumber? 8 isOctal ds).map (↑·)
    | '0' :: 'b' :: ds => (radixNumber? 2 isBinary ds).map (↑·)
    | cs =>
      let (negative, ds) := splitSign cs
      (wholeDigits? ds).map fun ds ↦
        let n : Int := Text.natOfDigits ds
        if negative then -n else n
  n?.bind fun n ↦ if -(word63 : Int) ≤ n && n < word63 then some n else none

/-- A float: digits and a fraction, an exponent or both; or infinity or no number. What is too
large for a double is refused if it is positive. -/
def float? (cs : List Char) : Option Binary64 :=
  let (negative, cs) := splitSign cs
  if cs == ['i', 'n', 'f'] then some (.infinite negative)
  else if cs == ['n', 'a', 'n'] then some .nan
  else do
    let isE (c : Char) : Bool := c == 'e' || c == 'E'
    let mantissa := cs.takeWhile fun c ↦ !isE c
    let exponent := cs.dropWhile fun c ↦ !isE c
    let wholePart := mantissa.takeWhile (· != '.')
    let fraction := mantissa.dropWhile (· != '.')
    if fraction.isEmpty && exponent.isEmpty then none
    let whole ← wholeDigits? wholePart
    let fraction ← match fraction with
      | [] => some []
      | _ :: ds => joinDigits? Char.isDigit ds
    let e ← match exponent with
      | [] => some (0 : Int)
      | _ :: ds =>
        let (down, ds) := splitSign ds
        (joinDigits? Char.isDigit ds).map fun ds ↦
          let n : Int := Text.natOfDigits ds
          if down then -n else n
    let digits := Text.natOfDigits (whole ++ fraction)
    let x := Binary64.ofDecimal negative digits (e - fraction.length)
    if x == .infinite false then none else some x

def fixedNumber (width : Nat) : Reader Nat := fun cs ↦
  let ds := cs.take width
  if ds.length == width && ds.all Char.isDigit then some (Text.natOfDigits ds, cs.drop width)
  else none

def expect (c : Char) (cs : List Char) : Option (List Char) :=
  match cs with
  | d :: cs => if c == d then some cs else none
  | [] => none

def isLeapYear (y : Nat) : Bool := y % 4 == 0 && (y % 100 != 0 || y % 400 == 0)

def daysInMonth (y m : Nat) : Nat :=
  if m == 2 then (if isLeapYear y then 29 else 28)
  else if m == 4 || m == 6 || m == 9 || m == 11 then 30
  else 31

def afterDate? (cs : List Char) : Option (List Char) := do
  let (y, cs) ← fixedNumber 4 cs
  let cs ← expect '-' cs
  let (m, cs) ← fixedNumber 2 cs
  let cs ← expect '-' cs
  let (d, cs) ← fixedNumber 2 cs
  if 1 ≤ m && m ≤ 12 && 1 ≤ d && d ≤ daysInMonth y m then some cs else none

def afterTime? (cs : List Char) : Option (List Char) := do
  let (h, cs) ← fixedNumber 2 cs
  let cs ← expect ':' cs
  let (m, cs) ← fixedNumber 2 cs
  let cs ← expect ':' cs
  let (s, cs) ← fixedNumber 2 cs
  if 23 < h || 59 < m || 60 < s then none
  else
    match cs with
    | '.' :: ds =>
      if (ds.takeWhile Char.isDigit).isEmpty then none else some (ds.dropWhile Char.isDigit)
    | cs => some cs

def isOffset : List Char → Bool
  | [] => true
  | ['Z'] | ['z'] => true
  | c :: cs =>
    (c == '+' || c == '-') &&
      (match fixedNumber 2 cs with
      | some (h, ':' :: ms) =>
        match fixedNumber 2 ms with
        | some (m, []) => h ≤ 23 && m ≤ 59
        | _ => false
      | _ => false)

def isDatetime (cs : List Char) : Bool :=
  match afterDate? cs with
  | some [] => true
  | some (c :: rest) =>
    (c == 'T' || c == 't' || c == ' ') && (afterTime? rest).any isOffset
  | none => (afterTime? cs).any List.isEmpty

def isWordChar (c : Char) : Bool := c.isAlphanum || c == '_' || c == '-' || c == '+' || c == '.' ||
  c == ':'

def readWord : Reader Toml := fun cs ↦
  let w := cs.takeWhile isWordChar
  let rest := cs.drop w.length
  let tail := rest.drop 1 |>.takeWhile isWordChar
  let both := w ++ ' ' :: tail
  if rest.head? == some ' ' && w.length == 10 && isDatetime w && isDatetime both then
    some (.datetime, cs.drop both.length)
  else
    let v? : Option Toml :=
      if w == "true".toList then some (.boolean true)
      else if w == "false".toList then some (.boolean false)
      else if isDatetime w then some .datetime
      else
        match float? w with
        | some x => some (.float x)
        | none => (integer? w).map .integer
    v?.map fun v ↦ (v, rest)

def readItems (item : Reader Toml) : Nat → Reader (List Toml)
  | 0, _ => none
  | fuel + 1, cs =>
    match skipFiller (cs.length + 1) cs with
    | ']' :: cs => some ([], cs)
    | cs => do
      let (v, cs) ← item cs
      match skipFiller (cs.length + 1) cs with
      | ',' :: cs =>
        let (vs, cs) ← readItems item fuel cs
        return (v :: vs, cs)
      | ']' :: cs => return ([v], cs)
      | _ => none

def readPair (value : Reader Toml) : Reader ((List String × String) × Toml) := fun cs ↦ do
  let (k, cs) ← readKey cs
  let cs ← expect '=' cs
  let (v, cs) ← value (skipIndent cs)
  return ((k, v), cs)

def readPairs (value : Reader Toml) : Nat → Entries → Reader Entries
  | 0, _, _ => none
  | fuel + 1, entries, cs => do
    let (((path, key), v), cs) ← readPair value cs
    let entries ← insertDotted key v path none entries
    match skipIndent cs with
    | ',' :: cs => readPairs value fuel entries cs
    | '}' :: cs => return (entries, cs)
    | _ => none

/-- A value; `depth` bounds how deeply arrays and inline tables may still be nested. -/
def readValue : Nat → Reader Toml
  | depth, cs =>
    match cs with
    | '"' :: _ | '\'' :: _ => (readString cs).map fun p ↦ (.string p.1, p.2)
    | '[' :: rest =>
      match depth with
      | 0 => none
      | depth + 1 =>
        (readItems (readValue depth) (rest.length + 1) rest).map fun p ↦ (.array p.1, p.2)
    | '{' :: rest =>
      match depth with
      | 0 => none
      | depth + 1 =>
        match skipIndent rest with
        | '}' :: rest => some (.table [], rest)
        | rest =>
          (readPairs (readValue depth) (rest.length + 1) [] rest).map fun p ↦
            (.table (finishEntries p.1), p.2)
    | cs => readWord cs

inductive Statement
  | nothing
  | pair (path : List String) (key : String) (v : Toml)
  | header (path : List String) (key : String)
  | arrayHeader (path : List String) (key : String)

def readStatement : Reader Statement := fun cs ↦
  match cs with
  | '[' :: '[' :: cs => do
    let ((path, key), cs) ← readKey cs
    let cs ← expect ']' cs
    let cs ← expect ']' cs
    return (.arrayHeader path key, cs)
  | '[' :: cs => do
    let ((path, key), cs) ← readKey cs
    let cs ← expect ']' cs
    return (.header path key, cs)
  | [] => some (.nothing, [])
  | c :: _ =>
    if c == '#' || c == '\n' || c == '\r' then some (.nothing, cs)
    else do
      let (((path, key), v), cs) ← readPair (readValue (depthLimit - 1)) cs
      return (.pair path key v, cs)

structure Partly where
  entries : Entries
  at_ : List String

def Partly.add (d : Partly) : Statement → Option Partly
  | .nothing => some d
  | .pair path key v =>
    (descend (insertDotted key v path none) d.at_ d.entries).map fun es ↦ { d with entries := es }
  | .header path key =>
    (descend (openTable key) path d.entries).map fun es ↦ ⟨es, path ++ [key]⟩
  | .arrayHeader path key =>
    (descend (appendTable key) path d.entries).map fun es ↦ ⟨es, path ++ [key]⟩

def readLines : Nat → Partly → List Char → Option Partly
  | 0, _, _ => none
  | fuel + 1, d, cs => do
    let (statement, cs) ← readStatement (skipIndent cs)
    let d ← d.add statement
    let cs := skipComment (skipIndent cs)
    if cs.isEmpty then return d
    let cs ← lineEnd? cs
    readLines fuel d cs

def withoutMark : List Char → List Char
  | '\uFEFF' :: cs => cs
  | cs => cs

def read? (s : String) : Option Toml :=
  let cs := withoutMark s.toList
  (readLines (cs.length + 1) ⟨[], []⟩ cs).map fun d ↦ .table (finishEntries d.entries)

end Rollout.Toml
