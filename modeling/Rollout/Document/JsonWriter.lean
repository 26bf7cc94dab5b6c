import Rollout.Document.Json
import Rollout.Text.Search

namespace Rollout.Json

def escapedChar (c : Char) : List Char :=
  if c == '"' then ['\\', '"']
  else if c == '\\' then ['\\', '\\']
  else if c == '\x08' then ['\\', 'b']
  else if c == '\x0c' then ['\\', 'f']
  else if c == '\n' then ['\\', 'n']
  else if c == '\r' then ['\\', 'r']
  else if c == '\t' then ['\\', 't']
  else if c.toNat < 0x20 then ['\\', 'u'] ++ Text.hexDigits 4 c.toNat
  else [c]

def stringChars (s : String) : List Char := '"' :: s.toList.flatMap escapedChar ++ ['"']

/-- The characters of a key; a broken string has no characters of its own. -/
def keyChars (k : Option String) : List Char := stringChars (k.getD "")

def commaSeparated : List (List Char) → List Char
  | [] => []
  | [p] => p
  | p :: ps => p ++ ',' :: commaSeparated ps

mutual

def compactChars : Json → List Char
  | .null => "null".toList
  | .boolean b => (if b then "true" else "false").toList
  | .natural n => Nat.toDigits 10 n
  | .numeral literal => literal
  | .string s => stringChars s
  | .brokenString => stringChars ""
  | .array items => '[' :: commaSeparated (compactItems items) ++ [']']
  | .object members => '{' :: commaSeparated (compactMembers members) ++ ['}']

def compactItems : List Json → List (List Char)
  | [] => []
  | v :: vs => compactChars v :: compactItems vs

def compactMembers : List (Option String × Json) → List (List Char)
  | [] => []
  | (k, v) :: ms => (keyChars k ++ ':' :: compactChars v) :: compactMembers ms

end

def newLine (level : Nat) : List Char := '\n' :: List.replicate (2 * level) ' '

mutual

/-- The value with one item or member a line; its own line is indented by `level` steps. -/
def prettyChars (level : Nat) : Json → List Char
  | .array [] => ['[', ']']
  | .object [] => ['{', '}']
  | .array (v :: vs) =>
    '[' :: commaSeparated (prettyItems (level + 1) (v :: vs)) ++ newLine level ++ [']']
  | .object (m :: ms) =>
    '{' :: commaSeparated (prettyMembers (level + 1) (m :: ms)) ++ newLine level ++ ['}']
  | v => compactChars v

def prettyItems (level : Nat) : List Json → List (List Char)
  | [] => []
  | v :: vs => (newLine level ++ prettyChars level v) :: prettyItems level vs

def prettyMembers (level : Nat) : List (Option String × Json) → List (List Char)
  | [] => []
  | (k, v) :: ms =>
    (newLine level ++ keyChars k ++ ':' :: ' ' :: prettyChars level v) :: prettyMembers level ms

end

def compact (v : Json) : String := String.ofList (compactChars v)

def pretty (v : Json) : String := String.ofList (prettyChars 0 v)

end Rollout.Json
