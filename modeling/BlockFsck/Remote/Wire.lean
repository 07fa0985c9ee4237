import BlockFsck.Failure
import BlockFsck.Http.Message
import BlockFsck.Log
import BlockFsck.Program

/-!
# The wire

What a remote client can do: send a request, wait, write to the log, and draw an id for a call.
-/

namespace BlockFsck.Remote

/-- Why a request got no answer. Connection errors and timeouts may be tried again. -/
inductive NetworkError
  | connection (text : String)
  | timeout (name text : String)
  | broken (failure : Failure)

/-- A request and where it goes. -/
structure Addressed where
  address : Http.Address
  request : Http.Request

inductive WireRequest
  | send (request : Addressed)
  | pause (seconds : Double)
  | log (record : LogRecord)
  | freshId

def Wire : Interface where
  Question := WireRequest
  Answer
    | .send _ => Except NetworkError Http.Response
    | .pause _ => Unit
    | .log _ => Unit
    | .freshId => String

/-- A step over the wire that may fail. -/
abbrev Exchange (α : Type) := ExceptT Failure (Program Wire) α

namespace Exchange

def send (request : Addressed) : Exchange (Except NetworkError Http.Response) :=
  ExceptT.lift (Program.question (I := Wire) (.send request))

def pause (seconds : Double) : Exchange Unit :=
  ExceptT.lift (Program.question (I := Wire) (.pause seconds))

def log (level : Int) (message : String) : Exchange Unit :=
  ExceptT.lift (Program.question (I := Wire) (.log ⟨"cli.metadata_client", level, message⟩))

def freshId : Exchange String :=
  ExceptT.lift (Program.question (I := Wire) .freshId)

end Exchange

end BlockFsck.Remote
