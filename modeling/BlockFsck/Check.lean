import BlockFsck.Metadata

/-!
# Steps of a check

A check is made of steps that ask the metadata service, keep a state and may fail. The state is
there also after a failure, so that what was found before it is not lost.
-/

namespace BlockFsck

/-- A step of a check: it asks the metadata service, has a state that failures leave as it is, and
may fail. -/
abbrev Check (σ α : Type) := ExceptT Failure (StateT σ (Program Metadata)) α

namespace Check

variable {σ α : Type}

/-- Hands a question to the metadata service. -/
def question (q : Metadata.Question) : StateT σ (Program Metadata) (Metadata.Answer q) :=
  StateT.lift (Program.question q)

def query (q : Query) : Check σ q.Reply :=
  ExceptT.mk (question (.query q))

def log (r : LogRecord) : Check σ Unit :=
  ExceptT.lift (question (.log r))

/-- Goes on with what could be read of a path text. -/
def ofPath (x : Except PathError α) : Check σ α :=
  match x with
  | .ok a => return a
  | .error e => throw (.badPath e)

/-- Turns a missing entry into a default value. -/
def orIfMissing (step : Check σ α) (default : α) : Check σ α :=
  tryCatch step fun failure => if failure.isMissing then return default else throw failure

/-- Runs the steps of a check from a state. -/
def start (step : Check σ α) (state : σ) : Program Metadata (Except Failure α × σ) :=
  step.run.run state

end Check

end BlockFsck
