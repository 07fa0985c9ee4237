import BlockFsck.Namespace.Mutation

/-!
# Operations on a namespace

Everything that can be asked of a namespace, as data, so that histories are lists of operations.
-/

namespace BlockFsck

inductive Operation
  | resolve (path : String)
  | listChildren (path : String)
  | blockLocations (path : String)
  | rename (source target : String)
  | mkdirs (path : String)
  | delete (path : String) (recursive : Bool)
  | corruptFiles
  | registerNode (node : String) (live : Bool)
  | setNodeLive (node : String) (live : Bool)
  | liveNodes
  | createFile (path : String) (length : Int) (replication : Option Int)
      (nodes : Option (List String)) (lease : Option String)
  | append (path : String) (length : Int) (nodes : Option (List String))
  | openForWrite (path : String) (holder : Option String)
  | closeFile (path : String)
  | blockIds (path : String)
  | removeReplica (block node : String)
  | addReplica (block node : String)
  | reportBadReplica (block node : String)
  | setBlockLength (block : String) (length : Int)
  | setClock (time : Double)

/-- What an operation gives back. -/
inductive Outcome
  | nothing
  | truth (value : Bool)
  | entry (found : Option Entry)
  | entries (found : List Entry)
  | record (found : FileRecord)
  | texts (found : List String)
  deriving DecidableEq

namespace Operation

open Namespace

def action : Operation → Action Outcome
  | .resolve path => return .entry (← look (·.resolve path))
  | .listChildren path => return .entries (← look (·.listChildren path))
  | .blockLocations path => return .record (← look (·.blockLocations path))
  | .rename source target => return .truth (← Namespace.rename source target)
  | .mkdirs path => return .truth (← Namespace.mkdirs path)
  | .delete path recursive => return .truth (← Namespace.delete path recursive)
  | .corruptFiles => return .texts (← get).corruptFiles
  | .registerNode node live => do Namespace.registerNode node live; return .nothing
  | .setNodeLive node live => do Namespace.setNodeLive node live; return .nothing
  | .liveNodes => return .texts (← get).liveNodes
  | .createFile path length replication nodes lease =>
    return .record (← Namespace.createFile path length replication nodes lease)
  | .append path length nodes => return .record (← Namespace.append path length nodes)
  | .openForWrite path holder => do Namespace.openForWrite path holder; return .nothing
  | .closeFile path => do Namespace.closeFile path; return .nothing
  | .blockIds path => return .texts (← look (·.blockIds path))
  | .removeReplica block node => do Namespace.removeReplica block node; return .nothing
  | .addReplica block node => do Namespace.addReplica block node; return .nothing
  | .reportBadReplica block node => do Namespace.reportBadReplica block node; return .nothing
  | .setBlockLength block length => do Namespace.setBlockLength block length; return .nothing
  | .setClock time => do modify (fun ns => { ns with clock := time }); return .nothing

/-- The answer, and the namespace afterwards, which an error need not leave unchanged. -/
def perform (op : Operation) (ns : Namespace) : Except NamespaceError Outcome × Namespace :=
  op.action.run ns

end Operation

/-- The namespace after operations up to the first that is refused, and why that one is. -/
def Namespace.upToRefusal (ns : Namespace) : List Operation → Option NamespaceError × Namespace
  | [] => (none, ns)
  | op :: rest =>
    match op.perform ns with
    | (.error e, ns) => (some e, ns)
    | (.ok _, ns) => ns.upToRefusal rest

/-- The namespace after a history, whatever the operations answered. -/
def Namespace.after (ns : Namespace) (history : List Operation) : Namespace :=
  history.foldl (fun ns op => (op.perform ns).2) ns

end BlockFsck
