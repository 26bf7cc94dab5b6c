import Rollout.Number.Binary64
import Rollout.Text.Search

namespace Rollout.CommandLine

/-- Why arguments lead to no command: they cannot be read, or only information is asked for. -/
inductive Refusal
  | usage
  | help
  | version
  deriving DecidableEq, Repr, Inhabited

/-- An option: its name, its letter if it has one, the values it accepts if it has a value, and
whether it may be given more than once. -/
structure OptionForm where
  name : String
  letter : Option Char := none
  accepts : Option (String → Bool) := none
  repeatable : Bool := false
  refusal : Option Refusal := none

abbrev Given := List (String × String)

namespace Given

def add (g : Given) (form : OptionForm) (value : String) : Except Refusal Given :=
  match form.refusal with
  | some r => .error r
  | none =>
    if !form.repeatable && g.any (fun p ↦ p.1 == form.name) then .error .usage
    else if (form.accepts.map fun ok ↦ ok value).getD true then .ok (g ++ [(form.name, value)])
    else .error .usage

def values (g : Given) (name : String) : List String :=
  (g.filter fun p ↦ p.1 == name).map (·.2)

def value? (g : Given) (name : String) : Option String := (g.values name).head?

def has (g : Given) (name : String) : Bool := !(g.values name).isEmpty

end Given

/-- What one argument is. An option that stands open gets its value from the next one. -/
inductive Argument
  | operand
  | separator
  | unknown
  | options (flags : List OptionForm) (last : Option (OptionForm × Option String))

def readLetters (forms : List OptionForm) (flags : List OptionForm) : List Char → Argument
  | [] => .options flags none
  | c :: cs =>
    match forms.find? fun f ↦ f.letter == some c with
    | none => .unknown
    | some form =>
      if form.accepts.isNone then readLetters forms (flags ++ [form]) cs
      else
        match cs with
        | [] => .options flags (some (form, none))
        | '=' :: value => .options flags (some (form, some (String.ofList value)))
        | value => .options flags (some (form, some (String.ofList value)))

def readName (forms : List OptionForm) (cs : List Char) : Argument :=
  let (name, value) : List Char × Option String := match Text.splitAtFirst '=' cs with
    | some (name, value) => (name, some (String.ofList value))
    | none => (cs, none)
  match forms.find? fun f ↦ f.name.toList == name with
  | none => .unknown
  | some form =>
    match form.accepts, value with
    | none, none => .options [form] none
    | none, some _ => .unknown
    | some _, value => .options [] (some (form, value))

def readArgument (forms : List OptionForm) (a : String) : Argument :=
  match a.toList with
  | ['-', '-'] => .separator
  | '-' :: '-' :: cs => readName forms cs
  | ['-'] => .operand
  | '-' :: cs => readLetters forms [] cs
  | _ => .operand

def canBeValue (a : String) : Bool :=
  match a.toList with
  | '-' :: _ :: _ => false
  | _ => true

/-- A level of the arguments: its options, and its operands or the command with all that follows. -/
structure Level where
  given : Given := []
  operands : List String := []

inductive Operands
  | command
  | atMost (n : Nat)
  deriving DecidableEq

def Operands.roomFor (o : Operands) (n : Nat) : Bool :=
  match o with
  | .command => false
  | .atMost m => n ≤ m

def readLevel (forms : List OptionForm) (room : Operands) : Level → List String →
    Except Refusal Level
  | l, [] => .ok l
  | l, a :: as =>
    match readArgument forms a with
    | .unknown => .error .usage
    | .separator =>
      if as.isEmpty then .ok l
      else if room.roomFor (l.operands.length + as.length) then
        .ok { l with operands := l.operands ++ as }
      else .error .usage
    | .operand =>
      if room = .command then .ok { l with operands := a :: as }
      else if room.roomFor (l.operands.length + 1) then
        readLevel forms room { l with operands := l.operands ++ [a] } as
      else .error .usage
    | .options flags last =>
      match flags.foldlM (fun g f ↦ g.add f "") l.given with
      | .error r => .error r
      | .ok given =>
        match last with
        | none => readLevel forms room { l with given := given } as
        | some (form, some value) =>
          match given.add form value with
          | .ok given => readLevel forms room { l with given := given } as
          | .error r => .error r
        | some (form, none) =>
          match as with
          | [] => .error .usage
          | value :: as =>
            if canBeValue value then
              match given.add form value with
              | .ok given => readLevel forms room { l with given := given } as
              | .error r => .error r
            else .error .usage

def whole? (t : String) : Option Nat :=
  let digits := match t.toList with
    | '+' :: cs => cs
    | cs => cs
  let n := Text.natOfDigits digits
  if !digits.isEmpty && digits.all Char.isDigit && n < word64 then some n else none

def isWhole (t : String) : Bool := (whole? t).isSome

def isPath (t : String) : Bool := !t.isEmpty

def isAny (_ : String) : Bool := true

def configForm : OptionForm := { name := "config", letter := some 'c', accepts := some isPath }

def helpForm : OptionForm := { name := "help", letter := some 'h', refusal := some .help }

def commonForms : List OptionForm := [configForm, helpForm]

def topForms : List OptionForm :=
  commonForms ++ [{ name := "verbose", letter := some 'v' },
    { name := "version", letter := some 'V', refusal := some .version }]

def selectionForms : List OptionForm :=
  commonForms ++ [{ name := "hosts", accepts := some isPath },
    { name := "catalog", accepts := some isPath },
    { name := "host", accepts := some isAny, repeatable := true },
    { name := "role", accepts := some isAny, repeatable := true }]

def jsonForm : OptionForm := { name := "json" }

def installForms : List OptionForm :=
  selectionForms ++ [{ name := "workers", letter := some 'w', accepts := some isWhole }, jsonForm,
    { name := "supervise" }]

def collectorForms : List OptionForm :=
  commonForms ++ [{ name := "host", accepts := some isAny },
    { name := "sink", accepts := some isAny }, { name := "interval", accepts := some isWhole }]

structure Selection where
  hosts : String := "hosts.toml"
  catalog : String := "catalog.toml"
  onlyHosts : List String := []
  onlyRoles : List String := []
  deriving DecidableEq, Repr, Inhabited

def Selection.ofGiven (g : Given) : Selection :=
  let d : Selection := {}
  { hosts := (g.value? "hosts").getD d.hosts
    catalog := (g.value? "catalog").getD d.catalog
    onlyHosts := g.values "host"
    onlyRoles := g.values "role" }

inductive Command
  | start (directory : String)
  | plan (s : Selection)
  | install (s : Selection) (workers : Option Nat) (json supervise : Bool)
  | status (json : Bool)
  | cancel
  | collect (host : String) (sink : Option String) (interval : Option Nat)
  | supervise (s : Selection)
  | stop (s : Selection)
  deriving DecidableEq, Repr, Inhabited

structure Invocation where
  config : String := "pfsmon.toml"
  command : Command
  deriving DecidableEq, Repr, Inhabited

def helpAbout (commands : List String) : List String → Refusal
  | [] => .help
  | name :: _ => if commands.contains name then .help else .usage

def agentCommands : List String := ["run", "supervise", "stop", "help"]

def topCommands : List String := ["init", "plan", "install", "status", "cancel", "agent", "help"]

abbrev Parsed := Except Refusal (Command × Given)

def selecting (make : Selection → Command) (as : List String) : Parsed := do
  let l ← readLevel selectionForms (.atMost 0) {} as
  return (make (.ofGiven l.given), l.given)

def readCollect (as : List String) : Parsed := do
  let l ← readLevel collectorForms (.atMost 0) {} as
  match l.given.value? "host" with
  | none => .error .usage
  | some host =>
    let interval := (l.given.value? "interval").bind whole?
    return (.collect host (l.given.value? "sink") interval, l.given)

def readAgentCommand : List String → Parsed
  | "run" :: as => readCollect as
  | "supervise" :: as => selecting .supervise as
  | "stop" :: as => selecting .stop as
  | "help" :: as => .error (helpAbout agentCommands as)
  | _ => .error .usage

def readStart (as : List String) : Parsed := do
  let l ← readLevel commonForms (.atMost 1) {} as
  let directory := l.operands.headD "."
  if isPath directory then return (.start directory, l.given) else .error .usage

def readInstall (as : List String) : Parsed := do
  let l ← readLevel installForms (.atMost 0) {} as
  let g := l.given
  return (.install (.ofGiven g) ((g.value? "workers").bind whole?) (g.has "json")
    (g.has "supervise"), g)

def readCommand : List String → Parsed
  | "init" :: as => readStart as
  | "plan" :: as => selecting .plan as
  | "install" :: as => readInstall as
  | "status" :: as => do
    let l ← readLevel (commonForms ++ [jsonForm]) (.atMost 0) {} as
    return (.status (l.given.has "json"), l.given)
  | "cancel" :: as => do
    let l ← readLevel commonForms (.atMost 0) {} as
    return (.cancel, l.given)
  | "agent" :: as => do
    let l ← readLevel commonForms .command {} as
    let (c, given) ← readAgentCommand l.operands
    return (c, given ++ l.given)
  | "help" :: as => .error (helpAbout topCommands as)
  | _ => .error .usage

/-- The invocation that arguments are. The innermost settings file counts. -/
def read (as : List String) : Except Refusal Invocation := do
  let l ← readLevel topForms .command {} as
  let (c, given) ← readCommand l.operands
  let d : Invocation := { command := c }
  return { d with config := (Given.value? (given ++ l.given) "config").getD d.config }

end Rollout.CommandLine
