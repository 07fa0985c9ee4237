import BlockFsck.Table

/-!
# Logging

Loggers have dotted names and form a tree below the nameless root. A record is kept if its level
reaches the level of its logger, which is that of the nearest ancestor that has one, and then goes
to the output of the logger and of its ancestors, up to the first that does not pass records on.
A logger is made when it is first asked for, and only loggers that were made are ancestors.
-/

namespace BlockFsck

structure LogRecord where
  logger : String
  level : Int
  message : String
  deriving Repr, DecidableEq

namespace Log

def debug : Int := 10
def info : Int := 20
def warning : Int := 30
def error : Int := 40

/-- The levels that have a name; of two names for one level the first is written. -/
def levels : List (String × Int) :=
  [("CRITICAL", 50), ("FATAL", 50), ("ERROR", 40), ("WARNING", 30), ("WARN", 30), ("INFO", 20),
    ("DEBUG", 10), ("NOTSET", 0)]

def levelText (level : Int) : String :=
  match levels.find? (·.2 = level) with
  | some (name, _) => name
  | none => s!"Level {level}"

/-- Upper case of the letters that occur in level names, ligatures of them among these. -/
def upper (c : Char) : List Char :=
  if c = 'ı' then ['I']
  else if c = 'ſ' then ['S']
  else if c = 'ﬅ' || c = 'ﬆ' then ['S', 'T']
  else [c.toUpper]

/-- What goes by a name as the levels do, but is no level: the default layout of a line, and the
table of the styles of layouts. -/
inductive Misnomer
  | layout
  | styles
  deriving Repr, DecidableEq

namespace Misnomer

/-- The default layout of a line. -/
def defaultLayout : String := "%(levelname)s:%(name)s:%(message)s"

def ofText? (name : List Char) : Option Misnomer :=
  if name = "BASIC_FORMAT".toList then some .layout
  else if name = "_STYLES".toList then some .styles
  else none

def message : Misnomer → String
  | .layout => s!"Unknown level: '{defaultLayout}'"
  | .styles => "Level not an integer or a valid string"

end Misnomer

/-- The level with that name in any letter case, and `info` for names of nothing. -/
def levelOfText (name : String) : Except Misnomer Int :=
  let name := name.toList.flatMap upper
  match Misnomer.ofText? name, levels.find? (·.1.toList = name) with
  | some misnomer, _ => .error misnomer
  | none, some (_, level) => .ok level
  | none, none => .ok info

/-- The level asked for, else the one of the environment, else `info`. -/
def resolve (environment requested : Option String) : Except Misnomer Int :=
  levelOfText ((requested <|> environment).getD "INFO")

end Log

/-- One line of a log at the given time. -/
def LogRecord.line (time : String) (r : LogRecord) : String :=
  s!"{time} - {r.logger} - {Log.levelText r.level} - {r.message}\n"

/-- Where a logger writes, and the least level it writes. -/
structure LogOutput where
  stream : String
  level : Int
  deriving Repr, DecidableEq

/-- The settings of one logger; level 0 stands for no level of its own. -/
structure Logger where
  level : Int := 0
  output : Option LogOutput := none
  passesOn : Bool := true
  /-- The logger above. -/
  parent : String := ""
  deriving Repr, DecidableEq

/-- The loggers that were made. -/
structure Loggers where
  settings : Table String Logger := Table.empty
  deriving Repr, DecidableEq

namespace Loggers

/-- The default stream. -/
def standardOutput : String := "stdout"

/-- The root has the empty name, and goes by `root` too. -/
def canonical (name : String) : String := if name = "root" then "" else name

/-- What stands before the dots of a reversed name, the longest first. Of two dots in a row only
the last counts. -/
def beforeDots : List Char → List (List Char)
  | [] => []
  | ['.'] => []
  | '.' :: c :: rest => (c :: rest) :: beforeDots rest
  | _ :: rest => beforeDots rest

/-- The names that enclose a name, the nearest first. -/
def enclosing (name : String) : List String :=
  (beforeDots name.toList.reverse).map fun cs => String.ofList cs.reverse

def get (ls : Loggers) (name : String) : Logger :=
  (ls.settings.get? name).getD (if name = "" then { level := Log.warning } else {})

/-- A logger that was made before the one of that name, and passes to it if it is enclosed by it and
its parent is not. In this the root counts by its name. -/
def adopted (name : String) (child : String × Logger) : String × Logger :=
  let parent := if child.2.parent = "" then "root" else child.2.parent
  if (enclosing child.1).contains name && !parent.startsWith name then
    (child.1, { child.2 with parent := name })
  else child

/-- Makes the logger of that name, if it is not there. -/
def make (ls : Loggers) (name : String) : Loggers :=
  let name := canonical name
  if name = "" || ls.settings.contains name then ls
  else
    let parent := ((enclosing name).find? ls.settings.contains).getD ""
    ⟨⟨ls.settings.entries.map (adopted name) ++ [(name, { parent := parent })]⟩⟩

/-- The logger and those above it, the root last. A parent has a shorter name, so that there are no
more of them than its name has characters. -/
def chainFrom (ls : Loggers) : (size : Nat) → String → List String
  | 0, name => [name]
  | size + 1, name =>
    if name = "" then [""] else name :: ls.chainFrom size (ls.get name).parent

def chain (ls : Loggers) (name : String) : List String := ls.chainFrom name.length name

/-- The first level that is set from the logger upwards. -/
def effectiveLevel (ls : Loggers) (name : String) : Int :=
  (((ls.chain name).map fun n => (ls.get n).level).find? (· ≠ 0)).getD 0

/-- Sets the level of a logger and gives it an output of its own. An output that is there is kept
unless a stream is named. -/
def setUp (ls : Loggers) (name : String) (level : Int) (stream : Option String) : Loggers :=
  let ls := ls.make name
  let name := canonical name
  let logger := ls.get name
  match logger.output, stream with
  | some output, none =>
    ⟨ls.settings.set name { logger with level, output := some { output with level } }⟩
  | _, stream =>
    let output : LogOutput := ⟨stream.getD standardOutput, level⟩
    ⟨ls.settings.set name { logger with level, output := some output, passesOn := false }⟩

/-- Sets a component up at the level that is asked for, else that of the environment. Where these
name no level, its logger is made and nothing more. -/
def configure (ls : Loggers) (name : String) (environment requested stream : Option String) :
    Except Log.Misnomer Unit × Loggers :=
  match Log.resolve environment requested with
  | .ok level => (.ok (), ls.setUp name level stream)
  | .error misnomer => (.error misnomer, ls.make name)

/-- The outputs of the loggers in the list, up to the first that does not pass records on. -/
def outputs (ls : Loggers) : List String → List LogOutput
  | [] => []
  | name :: above =>
    let logger := ls.get name
    logger.output.toList ++ (if logger.passesOn then ls.outputs above else [])

/-- The streams that a record reaches. -/
def targets (ls : Loggers) (r : LogRecord) : List String :=
  let name := canonical r.logger
  if 0 < r.level ∧ ls.effectiveLevel name ≤ r.level then
    ((ls.outputs (ls.chain name)).filter (·.level ≤ r.level)).map LogOutput.stream
  else []

/-- Writes a record to the streams it reaches. Its logger is made if it is not there. -/
def emit (ls : Loggers) (time : String) (r : LogRecord) (streams : Table String String) :
    Loggers × Table String String :=
  let ls := ls.make r.logger
  let named := if canonical r.logger = "" then { r with logger := "root" } else r
  (ls, (ls.targets r).foldl
    (fun s name => s.set name ((s.get? name).getD "" ++ named.line time)) streams)

end Loggers

end BlockFsck
