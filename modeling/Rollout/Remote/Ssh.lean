import Rollout.Cluster.Host
import Rollout.Digest.Sha256
import Rollout.Fault
import Rollout.Machine.Files
import Rollout.Remote.Call
import Rollout.Remote.Shell
import Rollout.Settings.Basic
import Rollout.Text.Blank

namespace Rollout.Checksum

def isHex (s : String) : Bool := s.toList.all fun c ↦ (Text.hexValue? c).isSome

def read (output : String) : Result String :=
  match Text.words output with
  | [] => .error (.other "empty sha256sum output")
  | digest :: _ =>
    if digest.utf8ByteSize = 64 && isHex digest then
      .ok (String.ofList (digest.toList.map Char.toLower))
    else .error (.other ("unexpected sha256sum output: " ++ Text.trim output))

def escapedChar (c : Char) : List Char :=
  if c == '\\' then ['\\', '\\'] else if c == '\n' then ['\\', 'n']
  else if c == '\r' then ['\\', 'r'] else [c]

def line (digest path : String) : String :=
  let escaped := path.toList.flatMap escapedChar
  (if escaped == path.toList then "" else "\\") ++ digest ++ "  " ++ String.ofList escaped ++ "\n"

end Rollout.Checksum

namespace Rollout

/-- How hosts are reached: by the transport's settings, unless a host has a login of its own. -/
structure Ssh where
  transport : TransportSettings := {}
  logins : List (String × Login) := []
  transferTimeout : Span := .ofSeconds 300
  deriving DecidableEq, Repr, Inhabited

structure Transfer where
  host : String
  localPath : String
  remotePath : String
  digest : String
  deriving DecidableEq, Repr, Inhabited

inductive SshStage
  | command (host : String) (bound : Span)
  | probe (t : Transfer) (bound : Span)
  | copy (t : Transfer)
  | checksum (t : Transfer)
  deriving DecidableEq, Repr, Inhabited

/-- What an operation does next: it starts a program that may take only so long, or it has ended. -/
inductive SshMove
  | launch (p : Program) (bound : Span) (stage : SshStage)
  | done (r : Reply)
  deriving Repr

namespace Ssh

def withLogins (hosts : List Host) (s : Ssh) : Ssh :=
  { s with
    logins := (hosts.reverse.filter fun h ↦ !h.login.isEmpty).map fun h ↦ (h.address, h.login) }

def isLocal (host : String) : Bool := host == "localhost" || host == "127.0.0.1" || host == "::1"

def login (s : Ssh) (host : String) : Login := (s.logins.lookup host).getD {}

def destination (s : Ssh) (host : String) : String :=
  let target := (s.login host).hostname.getD host
  match (s.login host).user <|> s.transport.user with
  | some user => user ++ "@" ++ target
  | none => target

/-- The options for both programs; they differ in how a port is given. -/
def options (s : Ssh) (host portFlag : String) : List String :=
  ["-o", "BatchMode=yes", "-o",
    "ConnectTimeout=" ++ Text.decimal s.transport.connectTimeoutSeconds] ++
  (match (s.login host).identityFile <|> s.transport.identityFile with
    | some file => ["-i", file]
    | none => []) ++
  (match s.transport.port with
    | some port => [portFlag, Text.decimal port]
    | none => [])

def commandProgram (s : Ssh) (host command : String) : Program :=
  if isLocal host then ⟨"sh", ["-c", command]⟩
  else ⟨s.transport.sshProgram, s.options host "-p" ++ [s.destination host, command]⟩

def copyProgram (s : Ssh) (t : Transfer) : Program :=
  ⟨s.transport.scpProgram,
    s.options t.host "-P" ++ [t.localPath, s.destination t.host ++ ":" ++ t.remotePath]⟩

def checksumCommand (path : String) : String := "sha256sum " ++ Shell.quote path

def output (e : Ending) : CommandOutput :=
  ⟨e.exitCode, Text.ofBytes e.stdout, Text.ofBytes e.stderr⟩

/-- The exit code with which the program for remote shells says that it failed itself. -/
def connectFailureCode : Int := 255

def execFault (host : String) (e : Ending) : Fault :=
  .exec host e.exitCode (Text.trim (output e).stderr)

def connectFault (host : String) (e : Ending) : Fault :=
  .connect host (Text.trim (output e).stderr)

def commandReply (host : String) (bound : Span) : ProgramOutcome → Reply
  | .ended e =>
    if e.exitCode = 0 then .ok (output e)
    else if e.exitCode = connectFailureCode && !isLocal host then .error (connectFault host e)
    else .error (execFault host e)
  | .notStarted why => .error (.ofFile why)
  | .late => .error (.timeout host bound)

/-- Texts by which the program for remote copies tells that the connection failed, which its exit
code does not. -/
def connectionMarks : List String :=
  ["ssh: connect to host", "Could not resolve hostname", "Connection refused",
    "Connection timed out", "No route to host", "lost connection", "Permission denied (publickey"]

def tellsConnectFailure (stderr : String) : Bool :=
  connectionMarks.any fun mark ↦ Text.contains stderr mark

def copyReply (host : String) (bound : Span) : ProgramOutcome → Reply
  | .ended e =>
    if e.exitCode = 0 then .ok {}
    else if tellsConnectFailure (output e).stderr then .error (connectFault host e)
    else .error (execFault host e)
  | .notStarted why => .error (.ofFile why)
  | .late => .error (.timeout host bound)

def checksumReply (t : Transfer) (shown : String) : Reply := do
  let actual ← Checksum.read shown
  if actual = t.digest then return {}
  else
    .error (.exec t.host 1 ("checksum mismatch for " ++ t.remotePath ++ ": expected " ++ t.digest ++
      ", got " ++ actual))

/-- How long a host may take to answer before a copy. -/
def probeBound (s : Ssh) : Span :=
  .ofSeconds (max s.transport.connectTimeoutSeconds 1 * 2 % word64)

def launchChecksum (s : Ssh) (t : Transfer) : SshMove :=
  .launch (s.commandProgram t.host (checksumCommand t.remotePath)) s.transferTimeout (.checksum t)

/-- Copies a file on this machine, making the directories that are missing. A file that is copied
onto itself is emptied. -/
def copyLocal (files : FileTree) (t : Transfer) : Except FileFault FileTree := do
  let files ← match FileTree.parentText? t.remotePath with
    | some directory => if directory.isEmpty then .ok files else files.makeDirectories directory
    | none => .ok files
  let content ← files.read t.localPath
  if files.resolve t.localPath = files.resolve t.remotePath then files.write t.remotePath ""
  else files.write t.remotePath content

def beginTransfer (s : Ssh) (host localPath remotePath : String) :
    Except FileFault (List UInt8) → SshMove
  | .error e => .done (.error (.ofFile e))
  | .ok content =>
    .launch (s.commandProgram host "true") s.probeBound
      (.probe ⟨host, localPath, remotePath, Sha256.hex content⟩ s.probeBound)

def beginLocal (s : Ssh) (files : FileTree) (host localPath remotePath : String) :
    Except FileFault (List UInt8) → FileTree × SshMove
  | .error e => (files, .done (.error (.ofFile e)))
  | .ok content =>
    let t : Transfer := ⟨host, localPath, remotePath, Sha256.hex content⟩
    match copyLocal files t with
    | .ok files => (files, s.launchChecksum t)
    | .error e => (files, .done (.error (.ofFile e)))

def begin (s : Ssh) (files : FileTree) (c : Call) : FileTree × SshMove :=
  match c.operation with
  | .run command bound =>
    (files, .launch (s.commandProgram c.host command) bound (.command c.host bound))
  | .push localPath remotePath =>
    let content := (files.read localPath).map Text.toBytes
    if isLocal c.host then s.beginLocal files c.host localPath remotePath content
    else (files, s.beginTransfer c.host localPath remotePath content)

def proceed (s : Ssh) (stage : SshStage) (outcome : ProgramOutcome) : SshMove :=
  match stage with
  | .command host bound => .done (commandReply host bound outcome)
  | .probe t bound =>
    match commandReply t.host bound outcome with
    | .ok _ => .launch (s.copyProgram t) s.transferTimeout (.copy t)
    | .error e => .done (.error e)
  | .copy t =>
    match copyReply t.host s.transferTimeout outcome with
    | .ok _ => s.launchChecksum t
    | .error e => .done (.error e)
  | .checksum t =>
    match commandReply t.host s.transferTimeout outcome with
    | .ok shown => .done (checksumReply t shown.stdout)
    | .error e => .done (.error e)

end Ssh

end Rollout
