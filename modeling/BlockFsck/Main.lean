import BlockFsck.Command.Run
import BlockFsck.Config.File

/-!
# The program

Loads the configuration of the user, runs the command, and prints what it says. No network is at
hand here, so that every request fails to connect.
-/

namespace BlockFsck.Terminal

open Remote

/-- The room for lists and objects within each other in what is read. -/
def room : Nat := 990

/-- Puts a file aside and goes on with the defaults. -/
def setAside (directory name : String) : IO Config := do
  try IO.FS.rename (directory ++ "/" ++ name) (directory ++ "/" ++ Config.backupName name)
  catch _ => pure ()
  return Config.default

/-- Loads the configuration, which is made if it is missing. -/
def loadConfig (directory name : String) : IO Config := do
  let path := directory ++ "/" ++ name
  try
    IO.FS.createDirAll directory
    match Config.ofBytes room (← IO.FS.readBinFile path) with
    | .config c => return c
    | .broken _ => setAside directory name
    | .refused e => throw (IO.userError e.message)
  catch
    | .noFileOrDirectory _ _ _ => do
      try IO.FS.writeFile path Config.default.text catch _ => pure ()
      return Config.default
    | .userError message => throw (IO.userError message)
    | _ => setAside directory name

/-- Writes a log record to the error output, if the loggers of the run let it through. -/
def writeLog (level : Int) (start : Nat) (r : LogRecord) : IO Unit := do
  let elapsed := (← IO.monoMsNow) - start
  IO.eprint (Command.logText level s!"{elapsed} ms" [r])

/-- The number of milliseconds in a delay. -/
def milliseconds (seconds : Double) : UInt32 :=
  (((seconds.toRat?.getD 0) * 1000).floor.toNat).toUInt32

/-- Answers what a program asks of the wire. -/
def answer (level : Int) (start : Nat) (ids : IO.Ref Nat) :
    (q : WireRequest) → IO (Wire.Answer q)
  | .send _ => return .error (.connection "no network")
  | .pause seconds => IO.sleep (milliseconds seconds)
  | .log record => writeLog level start record
  | .freshId => do
    ids.modify (· + 1)
    return s!"{start}-{← ids.get}"

def run (arguments : List String) : IO UInt32 := do
  let home := (← IO.getEnv "HOME").getD "/"
  let config ← loadConfig (home ++ "/.redcloud") "fsck.json"
  let level := match Command.level arguments config with
    | .ok level => level
    | .error _ => Log.info
  let start ← IO.monoMsNow
  let program := Command.run arguments config Walk.defaultDepth room
  match ← program.run (answer level start (← IO.mkRef 0)) with
  | .ok printed =>
    IO.print printed.output
    IO.eprint printed.errors
    return (printed.exitCode % 256).toNat.toUInt32
  | .error failure => throw (IO.userError failure.message)

end BlockFsck.Terminal

def main (arguments : List String) : IO UInt32 := BlockFsck.Terminal.run arguments
