import Rollout.Machine.Files
import Rollout.Rehearsal.ShellLine
import Rollout.Remote.Shell
import Rollout.Remote.Ssh

namespace Rollout

structure ShellState where
  files : FileTree
  bindings : List (String × String) := []
  status : Nat := 0
  line : Nat := 1
  elapsed : Span := .zero
  stdout : List UInt8 := []
  stderr : List UInt8 := []
  /-- The exit code, once the shell has ended. -/
  ended : Option Int := none
  deriving Inhabited

structure CommandResult where
  stdout : List UInt8 := []
  stderr : String := ""
  status : Nat := 0
  deriving Inhabited

namespace ShellState

def processId : String := "4242"

def currentPath (s : ShellState) : String := "/" ++ String.intercalate "/" s.files.current

def value (s : ShellState) (name : String) : String :=
  match name with
  | "0" => "sh"
  | "$" => processId
  | "?" => Text.decimal s.status
  | "#" => "0"
  | "PWD" => s.currentPath
  | _ => (s.bindings.lookup name).getD ""

abbrev Fields := List String × Option String

def Fields.add (f : Fields) (t : String) : Fields := (f.1, some (f.2.getD "" ++ t))

def Fields.addCut (f : Fields) (value : String) : Fields :=
  match (value.splitToList (fun c ↦ Shell.isSeparator c)).filter (!·.isEmpty) with
  | [] => f
  | w :: ws => ws.foldl (fun f w ↦ (f.1 ++ f.2.toList, some w)) (f.add w)

def fields (s : ShellState) (w : ShellWord) : List String :=
  let f := w.foldl (fun (f : Fields) part ↦ match part with
    | .text cs => f.add (String.ofList cs)
    | .parameter name true => f.add (s.value name)
    | .parameter name false => f.addCut (s.value name)) ([], none)
  f.1 ++ f.2.toList

def text (s : ShellState) (w : ShellWord) : String :=
  String.join (w.map fun
    | .text cs => String.ofList cs
    | .parameter name _ => s.value name)

def assignment? (s : ShellState) (w : ShellWord) : Option (String × String) :=
  match w with
  | .text cs :: parts =>
    match Text.splitAtFirst '=' cs with
    | some (name, value) =>
      if name.all ShellLine.isNameChar && (name.head?.map fun c ↦ !c.isDigit).getD false then
        some (String.ofList name, String.ofList value ++ s.text parts)
      else none
    | none => none
  | _ => none

def complaint (s : ShellState) (message : String) : String :=
  "sh: " ++ Text.decimal s.line ++ ": " ++ message ++ "\n"

def isOctal (c : Char) : Bool := '0' ≤ c && c ≤ '7'

def octal (cs : List Char) : UInt8 × List Char :=
  let digits := (cs.take 3).takeWhile isOctal
  let n := digits.foldl (fun (n : Nat) (c : Char) ↦ 8 * n + (c.toNat - 48)) 0
  (n.toUInt8, cs.drop digits.length)

def letterEscape? : Char → Option UInt8
  | 'n' => some 10
  | 't' => some 9
  | 'r' => some 13
  | 'a' => some 7
  | 'b' => some 8
  | 'f' => some 12
  | 'v' => some 11
  | '\\' => some 92
  | _ => none

/-- The bytes of a text with escapes, and whether it ends its output early. Where `zero` says so, a
zero may stand before three octal digits. -/
def unescape (zero : Bool) : (fuel : Nat) → List Char → List UInt8 × Bool
  | 0, _ => ([], false)
  | _, [] => ([], false)
  | fuel + 1, c :: cs =>
    let after (bytes : List UInt8) (rest : List Char) :=
      let (more, early) := unescape zero fuel rest
      (bytes ++ more, early)
    match c, cs with
    | '\\', 'c' :: _ => ([], true)
    | '\\', e :: rest =>
      if isOctal e then
        let (byte, rest) := octal (if zero && e == '0' then rest else e :: rest)
        after [byte] rest
      else
        match letterEscape? e with
        | some byte => after [byte] rest
        | none => after [92] cs
    | c, cs => after (Text.toBytes c.toString) cs

def echo (words : List String) : CommandResult :=
  let (newline, words) : List UInt8 × List String := match words with
    | "-n" :: ws => ([], ws)
    | ws => ([10], ws)
  let cs := (String.intercalate " " words).toList
  let (bytes, early) := unescape true (cs.length + 1) cs
  { stdout := bytes ++ if early then [] else newline }

def format : List Char → List String → List Char × List String
  | '%' :: '%' :: cs, ws =>
    let (t, ws) := format cs ws
    ('%' :: t, ws)
  | '%' :: c :: cs, ws =>
    let (t, rest) := format cs ws.tail
    ((ws.headD (if c == 's' then "" else "0")).toList ++ t, rest)
  | c :: cs, ws =>
    let (t, ws) := format cs ws
    (c :: t, ws)
  | [], ws => ([], ws)

def formatAll (cs : List Char) : (fuel : Nat) → List String → List Char
  | 0, _ => []
  | fuel + 1, ws =>
    let (t, rest) := format cs ws
    t ++ if rest.isEmpty || rest.length = ws.length then [] else formatAll cs fuel rest

def printf (s : ShellState) : List String → CommandResult
  | [] => { stderr := s.complaint "printf: usage: printf format [arg ...]", status := 2 }
  | f :: ws =>
    let cs := formatAll f.toList (ws.length + 1) ws
    { stdout := (unescape false (cs.length + 1) cs).1 }

def quotedName (name : String) : String :=
  if name.toList.all fun c ↦ c.isAlphanum || "/._-+:,@%=".toList.contains c then name
  else Shell.quote name

def reason (why : FileFault) : String :=
  Text.trim (String.ofList (why.text.toList.takeWhile (· != '(')))

def isSink (path : String) : Bool := path == "/dev/null"

def readAll (s : ShellState) (program : String) (input : List UInt8)
    (write : List UInt8 → String → List UInt8) : List String → CommandResult
  | [] => {}
  | name :: names =>
    let rest := readAll s program input write names
    match if name == "-" then .ok input else if isSink name then .ok []
        else (s.files.read name).map Text.toBytes with
    | .ok content => { rest with stdout := write content name ++ rest.stdout }
    | .error why =>
      { rest with
        stderr := program ++ ": " ++ quotedName name ++ ": " ++ reason why ++ "\n" ++ rest.stderr
        status := 1 }

/-- The lines of files or of the input that hold a text; the status tells whether there are some. -/
def grep (s : ShellState) (input : List UInt8) (ws : List String) : CommandResult :=
  match ws.filter fun w ↦ !w.startsWith "-" with
  | [] => { status := 2 }
  | piece :: names =>
    let read := readAll s "grep" input (fun content _ ↦ content)
      (if names.isEmpty then ["-"] else names)
    let found := (Text.lines (Text.ofBytes read.stdout)).filter fun l ↦ Text.contains l piece
    { stdout := if ws.contains "-q" then [] else Text.toBytes (String.join (found.map (· ++ "\n")))
      stderr := read.stderr
      status := if read.status ≠ 0 then 2 else if found.isEmpty then 1 else 0 }

def seconds? (t : String) : Option Span :=
  let (whole, fraction) := (Text.splitAtFirst '.' t.toList).getD (t.toList, [])
  if (whole ++ fraction).all Char.isDigit && !(whole ++ fraction).isEmpty then
    let nanos := Text.natOfDigits (fraction.take 9 ++ List.replicate (9 - fraction.length) '0')
    some ⟨Text.natOfDigits whole * 1000000000 + nanos⟩
  else none

def condition? (s : ShellState) : List String → Option Bool
  | "!" :: ws => (condition? s ws).map (!·)
  | ["-f", p] => some (s.files.existsAt p && !s.files.isDirectory p)
  | ["-d", p] => some (s.files.isDirectory p)
  | ["-e", p] | ["-r", p] | ["-w", p] => some (s.files.existsAt p)
  | ["-s", p] => some (match s.files.read p with
    | .ok content => !content.isEmpty
    | .error _ => s.files.isDirectory p)
  | ["-n", t] => some !t.isEmpty
  | ["-z", t] => some t.isEmpty
  | [t] => some !t.isEmpty
  | [] => some false
  | [a, "=", b] => some (a == b)
  | [a, "!=", b] => some (a != b)
  | [a, "-eq", b] => do return (← a.toInt?) == (← b.toInt?)
  | [a, "-ne", b] => do return (← a.toInt?) != (← b.toInt?)
  | [a, "-lt", b] => do return (← a.toInt?) < (← b.toInt?)
  | [a, "-gt", b] => do return (← b.toInt?) < (← a.toInt?)
  | _ => none

def test (s : ShellState) (ws : List String) : CommandResult :=
  match s.condition? ws with
  | some true => {}
  | some false => { status := 1 }
  | none => { stderr := s.complaint "test: unexpected operator", status := 2 }

def bracket (s : ShellState) (ws : List String) : CommandResult :=
  if ws.getLast? == some "]" then s.test ws.dropLast
  else { stderr := s.complaint "[: missing ]", status := 2 }

def change (s : ShellState) (message : String) (r : Except FileFault FileTree) :
    ShellState × CommandResult :=
  match r with
  | .ok files => ({ s with files := files }, {})
  | .error why => (s, { stderr := message ++ ": " ++ reason why ++ "\n", status := 1 })

def operands (ws : List String) : List String := ws.filter fun w ↦ !w.startsWith "-"

def changeEach (s : ShellState) (names : List String) (message : String)
    (f : FileTree → String → Except FileFault FileTree) : ShellState × CommandResult :=
  names.foldl (fun r name ↦
    let (s, r') := r.1.change (message ++ " " ++ Shell.quote name) (f r.1.files name)
    (s, { r' with stderr := r.2.stderr ++ r'.stderr, status := max r.2.status r'.status })) (s, {})

def copy (s : ShellState) (source target : String) : ShellState × CommandResult :=
  s.change ("cp: cannot stat " ++ Shell.quote source) (do
    let content ← s.files.read source
    let target := if s.files.isDirectory target then
        FileTree.join target ((s.files.resolve source).getLast?.getD "")
      else target
    s.files.write target content)

def exit (s : ShellState) : List String → ShellState × CommandResult
  | [] => ({ s with ended := some s.status }, {})
  | w :: _ =>
    match w.toNat? with
    | some n => ({ s with ended := some (n % 256 : Nat) }, {})
    | none =>
      ({ s with ended := some 2 }, { stderr := s.complaint ("exit: Illegal number: " ++ w) })

def command (s : ShellState) (input : List UInt8) (name : String) (ws : List String) :
    ShellState × CommandResult :=
  let sources := if ws.isEmpty then ["-"] else ws
  match name with
  | "echo" => (s, echo ws)
  | "printf" => (s, s.printf ws)
  | "true" | ":" | "wait" => (s, {})
  | "false" => (s, { status := 1 })
  | "exit" => s.exit ws
  | "test" => (s, s.test ws)
  | "[" => (s, s.bracket ws)
  | "cat" => (s, readAll s "cat" input (fun content _ ↦ content) sources)
  | "grep" => (s, grep s input ws)
  | "sha256sum" =>
    (s, readAll s "sha256sum" input
      (fun content name ↦ Text.toBytes (Checksum.line (Sha256.hex content) name)) sources)
  | "sleep" =>
    let d := (ws.filterMap seconds?).foldl (fun n d ↦ n + d.nanos) 0
    ({ s with elapsed := ⟨s.elapsed.nanos + d⟩ }, {})
  | "kill" =>
    if !(operands ws).contains processId then
      (s, { stderr := s.complaint "kill: No such process", status := 1 })
    else if ws.contains "-0" then (s, {})
    else ({ s with ended := some (-1) }, {})
  | "touch" =>
    s.changeEach (operands ws) "touch: cannot touch" fun files p ↦
      if files.existsAt p then .ok files else files.write p ""
  | "mkdir" =>
    s.changeEach (operands ws) "mkdir: cannot create directory" fun files p ↦
      if !ws.contains "-p" && files.existsAt p then .error .exists else files.makeDirectories p
  | "rm" =>
    s.changeEach (operands ws) "rm: cannot remove" fun files p ↦
      if ws.contains "-f" && !files.existsAt p then .ok files else files.remove p
  | "cp" =>
    match operands ws with
    | [source, target] => s.copy source target
    | _ => (s, { stderr := "cp: missing file operand\n", status := 1 })
  | "pwd" => (s, { stdout := Text.toBytes (s.currentPath ++ "\n") })
  | "cd" =>
    let p := ws.headD "/"
    if s.files.isDirectory p then
      ({ s with files := { s.files with current := s.files.resolve p } }, {})
    else (s, { stderr := s.complaint ("cd: can't cd to " ++ p), status := 2 })
  | _ => (s, { stderr := s.complaint (name ++ ": not found"), status := 127 })

inductive Outlet
  | stdout
  | stderr
  | file (path : String)
  deriving DecidableEq, Repr, Inhabited

structure Outlets where
  out : Outlet := .stdout
  err : Outlet := .stderr
  input : List UInt8
  deriving Inhabited

namespace Outlets

def get (o : Outlets) (descriptor : String) : Outlet := if descriptor == "2" then o.err else o.out

def set (o : Outlets) (descriptor : Nat) (outlet : Outlet) : Outlets :=
  if descriptor = 2 then { o with err := outlet } else { o with out := outlet }

end Outlets

def redirect (s : ShellState) (o : Outlets) (r : Redirection) :
    Except String (ShellState × Outlets) :=
  let path := s.text r.target
  match r.kind with
  | .duplicate => .ok (s, if r.descriptor = 0 then o else o.set r.descriptor (o.get path))
  | .read =>
    if isSink path then .ok (s, { o with input := [] })
    else
      match s.files.read path with
      | .ok content => .ok (s, { o with input := Text.toBytes content })
      | .error _ => .error (s.complaint ("cannot open " ++ path ++ ": No such file"))
  | kind =>
    if isSink path then .ok (s, o.set r.descriptor (.file path))
    else
      let content := match kind, s.files.read path with
        | .append, .ok content => content
        | _, _ => ""
      match s.files.write path content with
      | .ok files => .ok ({ s with files := files }, o.set r.descriptor (.file path))
      | .error .isDirectory => .error (s.complaint ("cannot create " ++ path ++ ": Is a directory"))
      | .error _ => .error (s.complaint ("cannot create " ++ path ++ ": Directory nonexistent"))

def write (bytes : List UInt8) (s : ShellState) : Outlet → ShellState
  | .stdout => { s with stdout := s.stdout ++ bytes }
  | .stderr => { s with stderr := s.stderr ++ bytes }
  | .file path =>
    match s.files.read path with
    | .ok content =>
      match s.files.write path (content ++ Text.ofBytes bytes) with
      | .ok files => { s with files := files }
      | .error _ => s
    | .error _ => s

def redirectAll (s : ShellState) (o : Outlets) (rs : List Redirection) :
    Except String (ShellState × Outlets) :=
  rs.foldlM (fun p r ↦ p.1.redirect p.2 r) (s, o)

def finalStatus (s : ShellState) : Nat :=
  match s.ended with
  | some code => code.toNat
  | none => s.status

/-- A shell after one of its own has run from it, from which only files, time and status are kept.
-/
def afterOwn (s after : ShellState) : ShellState :=
  { s with
    files := { after.files with current := s.files.current }
    elapsed := after.elapsed
    status := after.finalStatus }

abbrev GroupRunner := ShellState → List ShellToken → ShellState

def runGroup (runner : GroupRunner) (s : ShellState) (o : Outlets) (g : ShellGroup) : ShellState :=
  let after := runner { s with stdout := [], stderr := [] } g.body
  let s' := if g.own then s.afterOwn after
    else { after with stdout := s.stdout, stderr := s.stderr }
  (s'.write after.stdout o.out).write after.stderr o.err

def runCommand (runner : GroupRunner) (input : List UInt8) (s : ShellState) (c : ShellCommand) :
    ShellState :=
  match s.redirectAll { input } c.redirections with
  | .error message => { s with stderr := s.stderr ++ Text.toBytes message, status := 2 }
  | .ok (s, o) =>
    match c.group with
    | some g => runGroup runner s o g
    | none =>
      let assignments := c.words.takeWhile fun w ↦ (s.assignment? w).isSome
      match (c.words.drop assignments.length).flatMap s.fields with
      | [] =>
        { s with bindings := assignments.filterMap s.assignment? ++ s.bindings, status := 0 }
      | name :: ws =>
        let (s, r) := s.command o.input name ws
        { (s.write r.stdout o.out).write (Text.toBytes r.stderr) o.err with status := r.status }

def runPiped (runner : GroupRunner) (input : List UInt8) (s : ShellState) :
    List ShellCommand → ShellState
  | [] => s
  | c :: cs =>
    let after := runCommand runner input { s with stdout := [] } c
    let s' := { s.afterOwn after with stderr := after.stderr }
    match cs with
    | [] => { s' with stdout := s.stdout ++ after.stdout }
    | cs => runPiped runner after.stdout s' cs

/-- Runs a pipeline if its link lets it run, unless the shell has ended. What is left behind and
writes elsewhere takes no time. -/
def runPipeline (runner : GroupRunner) (s : ShellState) (p : ShellPipeline) : ShellState :=
  let due := match p.link with
    | .always => true
    | .afterSuccess => s.status = 0
    | .afterFailure => s.status ≠ 0
  if s.ended.isSome || !due then s
  else
    let s := { s with line := p.line }
    let after := match p.commands with
      | [c] => runCommand runner [] s c
      | cs => runPiped runner [] s cs
    if p.behind then
      let elapsed := if p.commands.all fun c ↦ c.redirections.isEmpty then after.elapsed
        else s.elapsed
      { s.afterOwn after with
        stdout := after.stdout, stderr := after.stderr, elapsed := elapsed, status := 0 }
    else if p.negated then { after with status := if after.status = 0 then 1 else 0 }
    else after

def runTokens : (depth : Nat) → GroupRunner
  | 0, s, _ => s
  | depth + 1, s, ts =>
    match ShellLine.ofTokens s.line ts with
    | .ok pipelines => pipelines.foldl (runPipeline (runTokens depth)) s
    | .error (line, message) =>
      let complaint := { s with line := line }.complaint message
      { s with stderr := s.stderr ++ Text.toBytes complaint, ended := some 2 }

/-- Runs a line on the files of a machine: the files afterwards, how long it took, and its end. -/
def run (files : FileTree) (line : String) : FileTree × Span × Ending :=
  match ShellLine.tokens? line with
  | none =>
    let message := { files : ShellState }.complaint "Syntax error: Unterminated quoted string"
    (files, .zero, ⟨2, [], Text.toBytes message⟩)
  | some ts =>
    let s := runTokens (ts.length + 1) { files } ts
    ({ s.files with current := files.current }, s.elapsed,
      ⟨s.ended.getD s.status, s.stdout, s.stderr⟩)

end ShellState

end Rollout
