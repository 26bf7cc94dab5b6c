import Rollout.Text.Search

namespace Rollout

/-- A part of a word: characters that stand for themselves, or the value of a parameter. -/
inductive WordPart
  | text (cs : List Char)
  | parameter (name : String) (quoted : Bool)
  deriving DecidableEq, Repr, Inhabited

abbrev ShellWord := List WordPart

inductive RedirectionKind
  | truncate
  | append
  | read
  | duplicate
  deriving DecidableEq, Repr, Inhabited

inductive ShellToken
  | word (w : ShellWord)
  | redirection (descriptor : Nat) (kind : RedirectionKind)
  | operator (s : String)
  deriving DecidableEq, Repr, Inhabited

namespace ShellLine

/-- A word being read; parts and characters stand last first. -/
structure Draft where
  parts : List WordPart := []
  chars : List Char := []
  begun : Bool := false
  plain : Bool := true

namespace Draft

def add (c : Char) (d : Draft) : Draft := { d with chars := c :: d.chars, begun := true }

def quote (d : Draft) : Draft := { d with begun := true, plain := false }

def closed (d : Draft) : List WordPart :=
  if d.chars.isEmpty then d.parts else .text d.chars.reverse :: d.parts

def addParameter (name : List Char) (quoted : Bool) (d : Draft) : Draft :=
  { parts := .parameter (String.ofList name) quoted :: d.closed, begun := true, plain := false }

def finish (d : Draft) : List ShellToken :=
  if !d.begun then []
  else
    let parts := d.closed.reverse
    [.word (if parts.isEmpty then [.text []] else parts)]

def descriptor (default : Nat) (d : Draft) : List ShellToken × Nat :=
  if d.begun && d.plain && d.chars.all Char.isDigit then ([], Text.natOfDigits d.chars.reverse)
  else (d.finish, default)

end Draft

def isNameChar (c : Char) : Bool := c.isAlphanum || c == '_'

def isSpecialParameter (c : Char) : Bool := c.isDigit || "$?#@*!-".toList.contains c

def parameter? : List Char → Option (List Char × List Char)
  | '\x7b' :: cs =>
    match Text.splitAtFirst '\x7d' cs with
    | some (name, rest) => some (name, rest)
    | none => none
  | c :: cs =>
    if isSpecialParameter c then some ([c], cs)
    else if isNameChar c then some ((c :: cs).takeWhile isNameChar, (c :: cs).dropWhile isNameChar)
    else none
  | [] => none

def redirection? : List Char → Option (RedirectionKind × List Char)
  | '>' :: '>' :: cs => some (.append, cs)
  | '>' :: '&' :: cs => some (.duplicate, cs)
  | '>' :: '|' :: cs => some (.truncate, cs)
  | '>' :: cs => some (.truncate, cs)
  | '<' :: '&' :: cs => some (.duplicate, cs)
  | '<' :: cs => some (.read, cs)
  | _ => none

def operator? : List Char → Option (String × List Char)
  | '&' :: '&' :: cs => some ("&&", cs)
  | '|' :: '|' :: cs => some ("||", cs)
  | c :: cs => if "&|;()\n".toList.contains c then some (c.toString, cs) else none
  | [] => none

inductive Quotation
  | none
  | single
  | double
  deriving DecidableEq

/-- The tokens of a line; `none` if a quote is left open. `fuel` is at least its length. -/
def tokens : (fuel : Nat) → Quotation → Draft → List Char → Option (List ShellToken)
  | 0, .none, d, _ => some d.finish
  | 0, _, _, _ => none
  | _, .none, d, [] => some d.finish
  | _, _, _, [] => none
  | fuel + 1, .single, d, c :: cs =>
    if c == '\'' then tokens fuel .none d cs else tokens fuel .single (d.add c) cs
  | fuel + 1, q, d, c :: cs =>
    if c == '$' then
      match parameter? cs with
      | some (name, rest) => tokens fuel q (d.addParameter name (q == .double)) rest
      | none => tokens fuel q (d.add c) cs
    else if q == .double then
      match c, cs with
      | '"', cs => tokens fuel .none d cs
      | '\\', e :: cs =>
        if "$\"\\".toList.contains e then tokens fuel q (d.add e) cs
        else tokens fuel q ((d.add '\\').add e) cs
      | c, cs => tokens fuel q (d.add c) cs
    else if c == '"' then tokens fuel .double d.quote cs
    else if c == '\'' then tokens fuel .single d.quote cs
    else if c == '\\' then
      match cs with
      | '\n' :: cs => tokens fuel q d cs
      | e :: cs => tokens fuel q (d.quote.add e) cs
      | [] => tokens fuel q (d.add c) []
    else if c == ' ' || c == '\t' then (tokens fuel q {} cs).map (d.finish ++ ·)
    else if c == '#' && !d.begun then tokens fuel q {} (cs.dropWhile (· != '\n'))
    else
      match redirection? (c :: cs) with
      | some (kind, rest) =>
        let (word, descriptor) := d.descriptor (if c == '<' then 0 else 1)
        (tokens fuel q {} rest).map (word ++ .redirection descriptor kind :: ·)
      | none =>
        match operator? (c :: cs) with
        | some (op, rest) => (tokens fuel q {} rest).map (d.finish ++ .operator op :: ·)
        | none => tokens fuel q (d.add c) cs

end ShellLine

structure Redirection where
  descriptor : Nat
  kind : RedirectionKind
  target : ShellWord
  deriving DecidableEq, Repr, Inhabited

/-- A group of commands, of which the tokens are kept: it stands between parentheses and is run in a
shell of its own, or it stands between braces. -/
structure ShellGroup where
  own : Bool
  body : List ShellToken
  deriving DecidableEq, Repr, Inhabited

structure ShellCommand where
  words : List ShellWord := []
  group : Option ShellGroup := none
  redirections : List Redirection := []
  deriving DecidableEq, Repr, Inhabited

inductive PipelineLink
  | always
  | afterSuccess
  | afterFailure
  deriving DecidableEq, Repr, Inhabited

/-- Commands of which each reads what the one before it wrote. What is left behind is run beside the
rest of the line. -/
structure ShellPipeline where
  line : Nat
  link : PipelineLink := .always
  negated : Bool := false
  behind : Bool := false
  commands : List ShellCommand := []
  deriving DecidableEq, Repr, Inhabited

namespace ShellLine

structure Partly where
  pipeline : ShellPipeline
  command : ShellCommand := {}

namespace Partly

def noCommand (p : Partly) : Bool :=
  p.command.words.isEmpty && p.command.group.isNone && p.command.redirections.isEmpty

def addWord (w : ShellWord) (p : Partly) : Partly :=
  if p.noCommand && p.pipeline.commands.isEmpty && w == [.text ['!']] then
    { p with pipeline := { p.pipeline with negated := true } }
  else { p with command := { p.command with words := p.command.words ++ [w] } }

def addRedirection (r : Redirection) (p : Partly) : Partly :=
  { p with command := { p.command with redirections := p.command.redirections ++ [r] } }

def addGroup (own : Bool) (body : List ShellToken) (p : Partly) : Partly :=
  { p with command := { p.command with group := some ⟨own, body⟩ } }

def pipe (p : Partly) : Partly where
  pipeline := { p.pipeline with commands := p.pipeline.commands ++ [p.command] }

end Partly

abbrev Parsed := Except (Nat × String)

def unexpected (line : Nat) (what : String) : Parsed (List ShellPipeline) :=
  .error (line, "Syntax error: " ++ what ++ " unexpected")

def isBorder (border : Char) (t : ShellToken) : Bool :=
  t == .word [.text [border]] || t == .operator border.toString

def groupBody (opening closing : Char) (depth : Nat) : List ShellToken →
    Option (List ShellToken × List ShellToken)
  | [] => none
  | t :: ts =>
    if isBorder closing t then
      match depth with
      | 0 => some ([], ts)
      | depth + 1 => (groupBody opening closing depth ts).map fun p ↦ (t :: p.1, p.2)
    else
      let depth := if isBorder opening t then depth + 1 else depth
      (groupBody opening closing depth ts).map fun p ↦ (t :: p.1, p.2)

def link? : String → Option (PipelineLink × Bool)
  | "\n" | ";" => some (.always, false)
  | "&" => some (.always, true)
  | "&&" => some (.afterSuccess, false)
  | "||" => some (.afterFailure, false)
  | _ => none

/-- The pipelines of a line. `fuel` is at least the number of tokens. -/
def pipelines : (fuel : Nat) → Partly → List ShellToken → Parsed (List ShellPipeline)
  | 0, p, _ => unexpected p.pipeline.line "end of file"
  | fuel + 1, p, ts =>
    let line := p.pipeline.line
    let group (opening closing : Char) (ts : List ShellToken) :=
      match groupBody opening closing 0 ts with
      | some (body, rest) => pipelines fuel (p.addGroup (opening == '(') body) rest
      | none => unexpected line "end of file"
    match ts with
    | [] =>
      if !p.noCommand then .ok [p.pipe.pipeline]
      else if p.pipeline.commands.isEmpty && p.pipeline.link = .always && !p.pipeline.negated then
        .ok []
      else unexpected line "end of file"
    | .word w :: ts =>
      if p.noCommand && w == [.text ['\x7b']] then group '\x7b' '\x7d' ts
      else if p.command.group.isSome then unexpected line "word"
      else pipelines fuel (p.addWord w) ts
    | .redirection d kind :: .word w :: ts => pipelines fuel (p.addRedirection ⟨d, kind, w⟩) ts
    | .redirection _ _ :: .operator op :: _ => unexpected line ("\"" ++ op ++ "\"")
    | .redirection _ _ :: .redirection _ _ :: _ => unexpected line "redirection"
    | [.redirection _ _] => unexpected line "end of file"
    | .operator op :: ts =>
      if op == "\n" && p.noCommand then
        pipelines fuel { p with pipeline := { p.pipeline with line := line + 1 } } ts
      else if op == "(" && p.noCommand then group '(' ')' ts
      else if p.noCommand then unexpected line ("\"" ++ op ++ "\"")
      else if op == "|" then pipelines fuel p.pipe ts
      else
        match link? op with
        | some (link, behind) =>
          let done := { p.pipe.pipeline with behind := behind }
          (pipelines fuel ⟨{ line := if op == "\n" then line + 1 else line, link }, {}⟩ ts).map
            (done :: ·)
        | none => unexpected line ("\"" ++ op ++ "\"")

def ofTokens (line : Nat) (ts : List ShellToken) : Parsed (List ShellPipeline) :=
  pipelines (2 * ts.length + 1) ⟨{ line }, {}⟩ ts

def tokens? (line : String) : Option (List ShellToken) :=
  let cs := line.toList
  tokens (cs.length + 1) .none {} cs

end ShellLine

end Rollout
