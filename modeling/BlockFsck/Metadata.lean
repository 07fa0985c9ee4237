import BlockFsck.Log
import BlockFsck.Namespace.Mutation
import BlockFsck.Program

/-!
# The metadata service

What a check asks of a namespace, wherever that is: seven queries, each answered or failed, and
log records that it hands on. `Metadata.onNamespace` answers from a namespace in memory.
-/

namespace BlockFsck

inductive Query
  | resolve (path : String)
  | listChildren (path : String)
  | blockLocations (path : String)
  | rename (source target : String)
  | mkdirs (path : String)
  | delete (path : String) (recursive : Bool)
  | corruptFiles
  deriving Repr, DecidableEq

namespace Query

abbrev Reply : Query → Type
  | .resolve _ => Option Entry
  | .listChildren _ => List Entry
  | .blockLocations _ => FileRecord
  | .rename _ _ => Bool
  | .mkdirs _ => Bool
  | .delete _ _ => Bool
  | .corruptFiles => List String

/-- The answer of a namespace, and the namespace afterwards. -/
def onNamespace : (q : Query) → Namespace.Action q.Reply
  | .resolve path => Namespace.look (·.resolve path)
  | .listChildren path => Namespace.look (·.listChildren path)
  | .blockLocations path => Namespace.look (·.blockLocations path)
  | .rename source target => Namespace.rename source target
  | .mkdirs path => Namespace.mkdirs path
  | .delete path recursive => Namespace.delete path recursive
  | .corruptFiles => return (← get).corruptFiles

end Query

/-- A query, or a record for the log. -/
inductive MetadataRequest
  | query (q : Query)
  | log (r : LogRecord)

/-- Queries may fail; a log record is only taken note of. -/
def Metadata : Interface where
  Question := MetadataRequest
  Answer
    | .query q => Except Failure q.Reply
    | .log _ => Unit

namespace Metadata

/-- How queries and records are dealt with inside some monad. -/
structure Service (m : Type → Type) where
  query : (q : Query) → m (Except Failure q.Reply)
  log : LogRecord → m Unit

def Service.answer {m : Type → Type} (service : Service m) :
    (q : Metadata.Question) → m (Metadata.Answer q)
  | .query q => service.query q
  | .log r => service.log r

/-- The service of a namespace in memory; records are dropped. -/
def onNamespace : Service (StateM Namespace) where
  query q := do return (← q.onNamespace.run).mapError .namespaceRefused
  log _ := return ()

end Metadata

end BlockFsck
