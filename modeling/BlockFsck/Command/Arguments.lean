/-!
# Command-line arguments

One path and any of eight switches, in any order. What starts with a dash is a switch.
-/

namespace BlockFsck

/-- What a command line asks for. -/
structure Command where
  path : String
  move : Bool := false
  delete : Bool := false
  openForWrite : Bool := false
  listCorrupt : Bool := false
  files : Bool := false
  blocks : Bool := false
  locations : Bool := false
  debug : Bool := false
  deriving Repr, DecidableEq

inductive Switch
  | move
  | delete
  | openForWrite
  | listCorrupt
  | files
  | blocks
  | locations
  | debug
  deriving Repr, DecidableEq

def Switch.ofText? : String → Option Switch
  | "-move" => some .move
  | "-delete" => some .delete
  | "-openforwrite" => some .openForWrite
  | "-list-corruptfiles" => some .listCorrupt
  | "-files" => some .files
  | "-blocks" => some .blocks
  | "-locations" => some .locations
  | "--debug" => some .debug
  | _ => none

/-- Why a command line cannot be understood. -/
inductive UsageError
  | unknownOption (text : String)
  | secondPath (first second : String)
  | noPath
  | relativePath (path : String)
  | moveAndDelete
  | blocksAlone
  | locationsAlone
  deriving Repr, DecidableEq

def UsageError.message : UsageError → String
  | .unknownOption text => s!"Unknown option: {text}"
  | .secondPath first second => s!"Only one path may be checked, got '{first}' and '{second}'"
  | .noPath => "fsck requires a path"
  | .relativePath path => s!"Path must be absolute: '{path}'"
  | .moveAndDelete => "-move and -delete cannot be combined"
  | .blocksAlone => "-blocks requires -files"
  | .locationsAlone => "-locations requires -blocks"

namespace Command

/-- Splits arguments into the path, if there is one, and the switches. -/
def scan (path : Option String) (switches : List Switch) :
    List String → Except UsageError (Option String × List Switch)
  | [] => .ok (path, switches)
  | text :: rest =>
    if text.toList.head? = some '-' then
      match Switch.ofText? text with
      | some switch => scan path (switches ++ [switch]) rest
      | none => .error (.unknownOption text)
    else
      match path with
      | none => scan (some text) switches rest
      | some first => .error (.secondPath first text)

def ofSwitches (path : String) (switches : List Switch) : Command where
  path
  move := switches.contains .move
  delete := switches.contains .delete
  openForWrite := switches.contains .openForWrite
  listCorrupt := switches.contains .listCorrupt
  files := switches.contains .files
  blocks := switches.contains .blocks
  locations := switches.contains .locations
  debug := switches.contains .debug

/-- The switches do not contradict each other, and the path is absolute. -/
def check (c : Command) : Except UsageError Command :=
  if c.path.toList.head? ≠ some '/' then .error (.relativePath c.path)
  else if c.move && c.delete then .error .moveAndDelete
  else if c.blocks && !c.files then .error .blocksAlone
  else if c.locations && !c.blocks then .error .locationsAlone
  else .ok c

def ofArguments (arguments : List String) : Except UsageError Command := do
  match ← scan none [] arguments with
  | (none, _) => throw .noPath
  | (some path, switches) => check (ofSwitches path switches)

end Command

end BlockFsck
