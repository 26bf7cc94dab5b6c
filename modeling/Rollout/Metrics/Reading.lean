import Rollout.Fault
import Rollout.Number.Binary64
import Rollout.Number.Decimal
import Rollout.Text.Blank

namespace Rollout

abbrev Reading := String × Binary64

namespace Reading

def processes (field : String) : List Reading :=
  match Text.splitOnce field '/' with
  | some (running, total) =>
    match Binary64.read? running, Binary64.read? total with
    | some r, some t => [("procs.running", r), ("procs.total", t)]
    | _, _ => []
  | none => []

def average (key field : String) : Result Reading :=
  match Binary64.read? field with
  | some x => .ok (key, x)
  | none => .error (.other ("malformed loadavg field: " ++ field))

def loadAverages (content : String) : Result (List Reading) :=
  match Text.words content with
  | one :: five :: fifteen :: rest => do
    let one ← average "load.1m" one
    let five ← average "load.5m" five
    let fifteen ← average "load.15m" fifteen
    return one :: five :: fifteen :: (rest.head?.map processes).getD []
  | _ => .error (.other ("malformed loadavg: " ++ Text.trim content))

/-- The value in a line of a name, a colon, a number and perhaps a unit; `kB` stands for 1024. -/
def memoryLine? (line : String) : Option Reading := do
  let (name, rest) ← Text.splitOnce line ':'
  let words := Text.words rest
  let value ← (words.head?).bind Binary64.read?
  let scale := if words[1]? == some "kB" then Binary64.ofNat 1024 else .one
  return (Text.trim name, value.mul scale)

def memory (content : String) : List Reading := (Text.lines content).filterMap memoryLine?

/-- The count in a line of statistics, and the sum if there is one: the line holds a name, a count,
the word `samples`, a unit, the least and the greatest value, and the sum. -/
def statisticsLine (line : String) : List Reading :=
  match Text.words line with
  | name :: count :: mark :: rest =>
    if mark != "samples" then []
    else
      match Binary64.read? count with
      | some count =>
        (name ++ ".count", count) ::
          (((rest[3]?).bind Binary64.read?).map fun sum ↦ (name ++ ".sum", sum)).toList
      | none => []
  | _ => []

def statistics (content : String) : List Reading := (Text.lines content).flatMap statisticsLine

end Reading

/-- A reading with its time, in nanoseconds since the beginning of 1970, and its origin. -/
structure Sample where
  time : Int
  host : String
  subsystem : String
  key : String
  value : Binary64
  deriving DecidableEq, Repr, Inhabited

namespace Sample

/-- The characters that end or part names in a line. -/
def isMark (c : Char) : Bool := c == ',' || c == ' ' || c == '='

def escapedName : List Char → List Char
  | [] => []
  | c :: cs => if isMark c then '\\' :: c :: escapedName cs else c :: escapedName cs

/-- The time as a line holds it: a signed word of nanoseconds, and outside of its range whole
milliseconds. -/
def lineTime (time : Int) : Int :=
  if -(word63 : Int) ≤ time && time < word63 then time
  else (Int64.ofInt (time / 1000000 * 1000000)).toInt

def lineChars (s : Sample) : List Char :=
  escapedName s.key.toList ++ ",host=".toList ++ escapedName s.host.toList ++
    ",subsystem=".toList ++ escapedName s.subsystem.toList ++ " value=".toList ++
    s.value.toDecimal.toList ++ ' ' :: (Text.signedDecimal (lineTime s.time)).toList

def line (s : Sample) : String := String.ofList s.lineChars

def body (batch : List Sample) : String := String.intercalate "\n" (batch.map line)

end Sample

end Rollout
