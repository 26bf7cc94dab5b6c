import Rollout.Document.Json
import Rollout.Text.Search

namespace Rollout.Json

/-- What the lexer is inside of; characters read so far are kept last first. -/
inductive LexState
  | between
  | inBare (chars : List Char)
  | inString (raw : List Char)
  | afterBackslash (raw : List Char)
  deriving DecidableEq, Repr

def isSpace (c : Char) : Bool := c == ' ' || c == '\n' || c == '\t' || c == '\r'

def punctuation? : Char → Option Token
  | '{' => some .openBrace
  | '}' => some .closeBrace
  | '[' => some .openBracket
  | ']' => some .closeBracket
  | ',' => some .comma
  | ':' => some .colon
  | _ => none

def lexFrom : LexState → List Char → Option (List Token)
  | .between, [] => some []
  | .inBare w, [] => some [.bare w.reverse]
  | .inString _, [] => none
  | .afterBackslash _, [] => none
  | .between, c :: cs =>
    if c == '"' then lexFrom (.inString []) cs
    else if isSpace c then lexFrom .between cs
    else
      match punctuation? c with
      | some t => (lexFrom .between cs).map (t :: ·)
      | none => lexFrom (.inBare [c]) cs
  | .inBare w, c :: cs =>
    if c == '"' then (lexFrom (.inString []) cs).map (.bare w.reverse :: ·)
    else if isSpace c then (lexFrom .between cs).map (.bare w.reverse :: ·)
    else
      match punctuation? c with
      | some t => (lexFrom .between cs).map (.bare w.reverse :: t :: ·)
      | none => lexFrom (.inBare (c :: w)) cs
  | .inString raw, c :: cs =>
    if c == '"' then (lexFrom .between cs).map (.string raw.reverse :: ·)
    else if c == '\\' then lexFrom (.afterBackslash (c :: raw)) cs
    else lexFrom (.inString (c :: raw)) cs
  | .afterBackslash raw, c :: cs => lexFrom (.inString (c :: raw)) cs

inductive Unescaped
  | malformed
  | broken
  | text (cs : List Char)
  deriving DecidableEq, Repr

def Unescaped.cons (c : Char) : Unescaped → Unescaped
  | .text cs => .text (c :: cs)
  | u => u

def Unescaped.breakOff : Unescaped → Unescaped
  | .malformed => .malformed
  | _ => .broken

def fourHex? (a b c d : Char) : Option Nat := do
  let a ← Text.hexValue? a
  let b ← Text.hexValue? b
  let c ← Text.hexValue? c
  let d ← Text.hexValue? d
  return ((a * 16 + b) * 16 + c) * 16 + d

def simpleEscape? : Char → Option Char
  | '"' => some '"'
  | '\\' => some '\\'
  | '/' => some '/'
  | 'b' => some '\x08'
  | 'f' => some '\x0c'
  | 'n' => some '\n'
  | 'r' => some '\r'
  | 't' => some '\t'
  | _ => none

/-- Resolves escapes. `high` is the first half of a surrogate pair that was read just before and
still lacks its second half. -/
def unescapeFrom (high : Option Nat) : List Char → Unescaped
  | [] => if high.isSome then .broken else .text []
  | '\\' :: 'u' :: a :: b :: c :: d :: cs =>
    match fourHex? a b c d with
    | none => .malformed
    | some n =>
      match high with
      | some h =>
        if 0xDC00 ≤ n && n < 0xE000 then
          (unescapeFrom none cs).cons (Char.ofNat (0x10000 + (h - 0xD800) * 0x400 + (n - 0xDC00)))
        else if 0xD800 ≤ n && n < 0xDC00 then (unescapeFrom (some n) cs).breakOff
        else (unescapeFrom none cs).breakOff
      | none =>
        if 0xD800 ≤ n && n < 0xDC00 then unescapeFrom (some n) cs
        else if 0xDC00 ≤ n && n < 0xE000 then (unescapeFrom none cs).breakOff
        else (unescapeFrom none cs).cons (Char.ofNat n)
  | '\\' :: e :: cs =>
    match simpleEscape? e with
    | none => .malformed
    | some c =>
      if high.isSome then (unescapeFrom none cs).breakOff else (unescapeFrom none cs).cons c
  | c :: cs =>
    if c == '\\' || c.toNat < 0x20 then .malformed
    else if high.isSome then (unescapeFrom none cs).breakOff
    else (unescapeFrom none cs).cons c

def unescape (raw : List Char) : Unescaped := unescapeFrom none raw

/-- A non-empty run of digits that starts with a zero only if it is that zero. -/
def isWhole (ds : List Char) : Bool :=
  match ds with
  | [] => false
  | '0' :: r => r.isEmpty
  | ds => ds.all Char.isDigit

def isTail (cs : List Char) : Bool :=
  let exponent : List Char → Bool
    | [] => true
    | c :: r =>
      (c == 'e' || c == 'E') &&
        (let ds := match r with
          | '+' :: ds => ds
          | '-' :: ds => ds
          | ds => ds
        !ds.isEmpty && ds.all Char.isDigit)
  match cs with
  | '.' :: r =>
    !(r.takeWhile Char.isDigit).isEmpty && exponent (r.dropWhile Char.isDigit)
  | cs => exponent cs

def isNumber (cs : List Char) : Bool :=
  let cs := match cs with
    | '-' :: r => r
    | r => r
  isWhole (cs.takeWhile Char.isDigit) && isTail (cs.dropWhile Char.isDigit)

def ofBare? (cs : List Char) : Option Json :=
  if cs == ['n', 'u', 'l', 'l'] then some .null
  else if cs == ['t', 'r', 'u', 'e'] then some (.boolean true)
  else if cs == ['f', 'a', 'l', 's', 'e'] then some (.boolean false)
  else if isWhole cs then some (.natural (Text.natOfDigits cs))
  else if isNumber cs then some (.numeral cs)
  else none

/-- An array or object that is still open, with its finished parts last first. -/
inductive Frame
  | items (done : List Json)
  | members (done : List (Option String × Json)) (key : Option String)

inductive Expect
  | value
  | firstItem
  | firstKey (done : List (Option String × Json))
  | key (done : List (Option String × Json))
  | colon (done : List (Option String × Json)) (key : Option String)
  | after (v : Json)

structure Parse where
  expect : Expect
  open_ : List Frame

def Unescaped.key? : Unescaped → Option (Option String)
  | .malformed => none
  | .broken => some none
  | .text cs => some (some (String.ofList cs))

def Unescaped.value? : Unescaped → Option Json
  | .malformed => none
  | .broken => some .brokenString
  | .text cs => some (.string (String.ofList cs))

def beginValue (frames : List Frame) : Token → Option Parse
  | .openBrace => some ⟨.firstKey [], frames⟩
  | .openBracket => some ⟨.firstItem, frames⟩
  | .string raw => (unescape raw).value?.map fun v ↦ ⟨.after v, frames⟩
  | .bare cs => (ofBare? cs).map fun v ↦ ⟨.after v, frames⟩
  | _ => none

def beginMember (done : List (Option String × Json)) (frames : List Frame) :
    Token → Option Parse
  | .string raw => (unescape raw).key?.map fun k ↦ ⟨.colon done k, frames⟩
  | _ => none

def afterValue (v : Json) : List Frame → Token → Option Parse
  | .items done :: frames, .comma => some ⟨.value, .items (v :: done) :: frames⟩
  | .items done :: frames, .closeBracket =>
    some ⟨.after (.array (v :: done).reverse), frames⟩
  | .members done k :: frames, .comma => some ⟨.key ((k, v) :: done), frames⟩
  | .members done k :: frames, .closeBrace =>
    some ⟨.after (.object ((k, v) :: done).reverse), frames⟩
  | _, _ => none

def Parse.step (p : Parse) (t : Token) : Option Parse :=
  match p.expect with
  | .value => beginValue p.open_ t
  | .firstItem =>
    if t = .closeBracket then some ⟨.after (.array []), p.open_⟩
    else beginValue (.items [] :: p.open_) t
  | .firstKey done =>
    if t = .closeBrace then some ⟨.after (.object []), p.open_⟩
    else beginMember done p.open_ t
  | .key done => beginMember done p.open_ t
  | .colon done k =>
    if t = .colon then some ⟨.value, .members done k :: p.open_⟩ else none
  | .after v => afterValue v p.open_ t

def Parse.result? (p : Parse) : Option Json :=
  match p.expect, p.open_ with
  | .after v, [] => some v
  | _, _ => none

def ofTokens? (ts : List Token) : Option Json := do
  let p ← ts.foldlM Parse.step ⟨.value, []⟩
  p.result?

def readChars? (cs : List Char) : Option Json := do
  let ts ← lexFrom .between cs
  ofTokens? ts

def read? (s : String) : Option Json := readChars? s.toList

end Rollout.Json
