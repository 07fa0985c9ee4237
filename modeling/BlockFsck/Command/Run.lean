import BlockFsck.Checker
import BlockFsck.Command.Arguments
import BlockFsck.Config.Basic
import BlockFsck.Remote.Client

/-!
# The command

Runs one check against the remote service and says what to print and how to exit. Anything that
breaks the run off makes it a failure: exit code -1, and the closing line of a failed check.
-/

namespace BlockFsck.Command

open Remote

def usage : String :=
  "Usage: redcloud-fsck <path> [-list-corruptfiles | -move | -delete | -openforwrite] " ++
  "[-files [-blocks [-locations]]] [--debug]
  <path>              start checking from this path
  -move               move corrupted files to /lost+found
  -delete             delete corrupted files
  -files              print out files being checked
  -openforwrite       print out files opened for write
  -list-corruptfiles  print out list of missing blocks and files they belong to
  -blocks             print out block report
  -locations          print out locations for every block
  --debug             enable debug logging

Exit status: 0 healthy, 1 corrupt, -1 (255) failure.
Please note that:
  1. By default fsck ignores files opened for write, use -openforwrite to report such files.
  2. -move and -delete cannot be combined."

/-- What is printed, and the exit code. Log records have gone their own way. -/
structure Printed where
  exitCode : Int
  output : String := ""
  errors : String := ""
  deriving Repr, DecidableEq

def asksForHelp (arguments : List String) : Bool :=
  arguments.contains "-h" || arguments.contains "--help"

/-- The failure to set a level that is none: the layout is at least a text. -/
def misnamed (misnomer : Log.Misnomer) : Failure :=
  match misnomer with
  | .layout => .told .invalidValue misnomer.message
  | .styles => .told .wrongType misnomer.message

/-- The log level of a run. -/
def level (arguments : List String) (config : Config) : Except Failure Int :=
  if arguments.contains "--debug" then .ok Log.debug
  else
    match config.logLevel with
    | .str name => (Log.levelOfText name.shown).mapError misnamed
    | .null => (Log.resolve none none).mapError misnamed
    | value => .error (.told .notObject s!"'{value.typeName}' object has no attribute 'upper'")

/-- The loggers of a run, which write to the error output. -/
def loggers (level : Int) : Loggers :=
  ((Loggers.setUp {} "cli" level (some "stderr")).setUp "fsck" level (some "stderr"))

/-- The options of the check that a command asks for. -/
def options (command : Command) (quarantine : String) : Options where
  path := command.path
  move := command.move
  delete := command.delete
  openForWrite := command.openForWrite
  listCorrupt := command.listCorrupt
  files := command.files
  blocks := command.blocks
  locations := command.locations
  quarantine := quarantine

/-- Why there is nothing to run: the command line is wrong, or the configuration is. -/
inductive Refusal
  | usage (message : String)
  | failure (failure : Failure)

/-- The valid options of a command line. -/
def prepare (arguments : List String) (config : Config) : Except Refusal Options := do
  let command ← (ofArguments arguments).mapError fun e => .usage e.message
  let asUsage := fun (e : ArgumentError) => Refusal.usage e.message
  match config.quarantine with
  | .str directory => (options command directory.shown).validate.mapError asUsage
  | value =>
    if value.isVoid then (options command value.spelled).validate.mapError asUsage
    else
      let _ ← (options command "/").validate.mapError asUsage
      throw <| .failure <|
        .told .notObject s!"'{value.typeName}' object has no attribute 'startswith'"

/-- What is printed for a result, or for the failure that broke the run off. -/
def conclude (path : String) : Except Failure Result → Program Wire Printed
  | .ok result => return { exitCode := result.status.exitCode, output := result.output }
  | .error failure => do
    let message := s!"fsck error: {failure.message}"
    let _ ← Program.question (I := Wire) (.log ⟨"cli", Log.error, message⟩)
    return {
      exitCode := Status.failure.exitCode
      output := s!"{message}\n\n\n{Status.failure.line path}\n" }

/-- Runs the check of a command line; a failure means that the configuration is unusable. -/
def run (arguments : List String) (config : Config) (depth room : Nat) :
    Program Wire (Except Failure Printed) := do
  if asksForHelp arguments then return .ok { exitCode := 0, output := usage ++ "\n" }
  match level arguments config with
  | .error failure => return .error failure
  | .ok _ =>
    match prepare arguments config with
    | .error (.failure failure) => return .error failure
    | .error (.usage message) =>
      return .ok {
        exitCode := Status.failure.exitCode
        errors := s!"fsck: {message}\n{usage}\n" }
    | .ok options =>
      match config.address with
      | .error cause => return .error (.badAddress cause)
      | .ok address =>
        let client : Client := ⟨address, ⟨config.maxRetries, config.backoff⟩, room⟩
        let result ← (Checker.run options depth).run client.service.answer
        return .ok (← conclude options.path result)

/-- The lines that a log leaves on the error output. -/
def logText (level : Int) (time : String) (log : List LogRecord) : String :=
  let (_, streams) := log.foldl (fun (ls, streams) r => ls.emit time r streams)
    (loggers level, Table.empty)
  (streams.get? "stderr").getD ""

end BlockFsck.Command
