namespace Rollout

/-- A JSON value. `natural` is a numeral of digits alone, `numeral` any other number; the key of a
member is `none` if it is a broken string. -/
inductive Json
  | null
  | boolean (b : Bool)
  | natural (n : Nat)
  | numeral (literal : List Char)
  | string (s : String)
  | brokenString
  | array (items : List Json)
  | object (members : List (Option String × Json))
  deriving Inhabited

namespace Json

def record (members : List (String × Json)) : Json :=
  .object (members.map fun p ↦ (some p.1, p.2))

/-- The lexical units of a JSON text. A string token holds the characters between its quotes as
they are written. -/
inductive Token
  | openBrace
  | closeBrace
  | openBracket
  | closeBracket
  | comma
  | colon
  | string (raw : List Char)
  | bare (chars : List Char)
  deriving DecidableEq, Repr

end Json

end Rollout

namespace Rollout.Json

def fields? (names : List String) : Json → Option (List (Option Json))
  | .object members =>
    if members.all fun m ↦ m.1.isSome then
      names.mapM fun name ↦
        match members.filter fun m ↦ m.1 == some name with
        | [] => some none
        | [m] => some (some m.2)
        | _ => none
    else none
  | .array items =>
    if items.length ≤ names.length then
      some (items.map some ++ List.replicate (names.length - items.length) none)
    else none
  | _ => none

def required {α : Type} (read : Json → Option α) : Option Json → Option α
  | some v => read v
  | none => none

def orElse {α : Type} (default : α) (read : Json → Option α) : Option Json → Option α
  | some v => read v
  | none => some default

def nullable {α : Type} (read : Json → Option α) : Json → Option (Option α)
  | .null => some none
  | v => (read v).map some

def string? : Json → Option String
  | .string s => some s
  | _ => none

def boolean? : Json → Option Bool
  | .boolean b => some b
  | _ => none

def natural? (bound : Nat) : Json → Option Nat
  | .natural n => if n < bound then some n else none
  | _ => none

def array? {α : Type} (read : Json → Option α) : Json → Option (List α)
  | .array items => items.mapM read
  | _ => none

/-- One of a few names, as a string or as the only member, holding `null`, of an object. -/
def choice? {α : Type} (ofName : String → Option α) : Json → Option α
  | .string s => ofName s
  | .object [(some s, .null)] => ofName s
  | _ => none

def optionalMember {α : Type} (name : String) (write : α → Json) : Option α → List (String × Json)
  | some v => [(name, write v)]
  | none => []

end Rollout.Json
