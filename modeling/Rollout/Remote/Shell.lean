import Rollout.Text.Search

namespace Rollout.Shell

/-- How one character is written between single quotes. A quote ends the quoted part, stands behind
a backslash, and begins the next one. -/
def quotedChar (c : Char) : List Char := if c == '\'' then ['\'', '\\', '\'', '\''] else [c]

def quoteChars (cs : List Char) : List Char := '\'' :: cs.flatMap quotedChar ++ ['\'']

def quote (s : String) : String := String.ofList (quoteChars s.toList)

/-- What the reader of a line is inside of; the characters of a word are kept last first. -/
inductive Reading
  | between
  | plain (word : List Char)
  | quoted (word : List Char)
  | escaped (word : List Char)
  deriving DecidableEq, Repr

def isSeparator (c : Char) : Bool := c == ' ' || c == '\t' || c == '\n'

def plainChar (word : List Char) (c : Char) : Reading :=
  if c == '\'' then .quoted word else if c == '\\' then .escaped word else .plain (c :: word)

def wordsFrom : Reading → List Char → Option (List (List Char))
  | .between, [] => some []
  | .plain w, [] => some [w.reverse]
  | .quoted _, [] => none
  | .escaped _, [] => none
  | .between, c :: cs =>
    if isSeparator c then wordsFrom .between cs else wordsFrom (plainChar [] c) cs
  | .plain w, c :: cs =>
    if isSeparator c then (wordsFrom .between cs).map (w.reverse :: ·)
    else wordsFrom (plainChar w c) cs
  | .quoted w, c :: cs =>
    if c == '\'' then wordsFrom (.plain w) cs else wordsFrom (.quoted (c :: w)) cs
  | .escaped w, c :: cs => wordsFrom (.plain (c :: w)) cs

def words? (line : List Char) : Option (List (List Char)) := wordsFrom .between line

end Rollout.Shell
