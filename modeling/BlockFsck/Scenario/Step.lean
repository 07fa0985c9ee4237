import BlockFsck.Namespace.Operation
import BlockFsck.Scenario.Field

/-!
# Operations in scenarios

A step names an operation on a namespace and has its arguments as fields. A step whose fields are
not those of the operation does nothing; one with an argument of the wrong kind gives up where that
argument is needed, and what was done before stays done.
-/

namespace BlockFsck.Scenario

/-- The names that a value lists: its items, its characters or its keys. -/
def listed? : Json → Option (List String)
  | .arr items => some (items.map Json.spelled)
  | .str s => some (s.map fun point => Points.shown [point])
  | .obj members => some (members.map (·.1.shown))
  | _ => none

def operation? (x : Json) : Option Operation :=
  let path := text x "path"
  let block := text x "block_id"
  let node := text x "node_id"
  let nodes := listed? (member x "nodes")
  match text x "do" with
  | "resolve" => some (.resolve path)
  | "list_children" => some (.listChildren path)
  | "get_block_locations" => some (.blockLocations path)
  | "rename" => some (.rename (text x "src") (text x "dst"))
  | "mkdirs" => some (.mkdirs path)
  | "delete" => some (.delete path (flag x "recursive"))
  | "list_corrupt_files" => some .corruptFiles
  | "register_node" => some (.registerNode node (flagOr x "live" true))
  | "set_node_live" => some (.setNodeLive node (flag x "live"))
  | "live_nodes" => some .liveNodes
  | "create_file" =>
    some (.createFile path (whole x "length") (whole? x "replication") nodes
      (word? (member x "lease_holder")))
  | "append" => some (.append path (whole x "length") nodes)
  | "open_for_write" => some (.openForWrite path (word? (member x "holder")))
  | "close_file" => some (.closeFile path)
  | "block_ids" => some (.blockIds path)
  | "remove_replica" => some (.removeReplica block node)
  | "add_replica" => some (.addReplica block node)
  | "report_bad_replica" => some (.reportBadReplica block node)
  | "set_block_length" => some (.setBlockLength block (whole x "length"))
  | "clock" => (Json.double (member x "value")).toOption.map .setClock
  | _ => none

/-- The fields that an operation needs, and those that it may have. -/
def parameters : List (String × List String × List String) :=
  [("resolve", ["path"], []), ("list_children", ["path"], []),
    ("get_block_locations", ["path"], []), ("rename", ["src", "dst"], []),
    ("mkdirs", ["path"], []), ("delete", ["path"], ["recursive"]), ("list_corrupt_files", [], []),
    ("register_node", ["node_id"], ["live"]), ("set_node_live", ["node_id", "live"], []),
    ("live_nodes", [], []),
    ("create_file", ["path", "length"], ["replication", "nodes", "lease_holder"]),
    ("append", ["path", "length"], ["nodes"]), ("open_for_write", ["path", "holder"], []),
    ("close_file", ["path"], []), ("block_ids", ["path"], []),
    ("remove_replica", ["block_id", "node_id"], []), ("add_replica", ["block_id", "node_id"], []),
    ("report_bad_replica", ["block_id", "node_id"], []),
    ("set_block_length", ["block_id", "length"], [])]

/-- The step is an operation with fields missing, or with others. -/
def isMisfit (x : Json) : Bool :=
  match parameters.find? (·.1 = text x "do") with
  | some (_, needed, possible) => !hasFields x needed ("do" :: possible)
  | none => false

/-- An action that changes what it changes and then fails, if it is not refused before. -/
def failingAfter (done : List Operation) (failure : Failure) (ns : Namespace) :
    Failure × Namespace :=
  let (refusal, ns) := ns.upToRefusal done
  ((refusal.map Failure.namespaceRefused).getD failure, ns)

/-- A list of nodes that is none. -/
def isNoList (x : Json) : Bool :=
  match x with
  | .null => false
  | x => (listed? x).isNone

/-- How a step with an argument of the wrong kind gives up. -/
def givesUp? (x : Json) : Option (Namespace → Failure × Namespace) :=
  let path := text x "path"
  let isBroken := (x.member? "length").any (!isNumber ·) || isNoList (member x "nodes")
  if isNoPath (member x "path") || isNoPath (member x "src") then some fun ns => (noPath, ns)
  else if isNoPath (member x "dst") then
    some (failingAfter [.rename (text x "src") "/"] noPath)
  else
    match text x "do", isBroken with
    | "create_file", true =>
      some (failingAfter [.createFile path 0 none (some []) none, .delete path false] misfit)
    | "append", true =>
      some fun ns => ((failingAfter [.append path 0 (some [])] misfit ns).1, ns)
    | _, _ => none

/-- The failure of a step whose time is none. -/
def noTime (x : Json) : Failure :=
  match x with
  | .str s => .told .invalidValue s!"could not convert string to float: {Json.quoted s}"
  | .int _ => .overflow
  | _ => misfit

end BlockFsck.Scenario
