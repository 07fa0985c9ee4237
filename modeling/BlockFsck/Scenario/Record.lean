import BlockFsck.Entry
import BlockFsck.Record
import BlockFsck.Scenario.Field

/-!
# Records in scenarios

Entries and file records as scenarios give them. A record may leave out what has a default, and
nothing else; `isRecord` says whether it fits.
-/

namespace BlockFsck.Scenario

def replica (x : Json) : Replica :=
  ⟨text x "node_id", whole x "length", flagOr x "live" true, flag x "corrupt"⟩

def block (x : Json) : BlockRecord :=
  ⟨text x "block_id", whole x "length", (items x "replicas").map replica, flag x "corrupt"⟩

def record (x : Json) : FileRecord :=
  ⟨text x "path", whole x "length", whole x "replication", (items x "blocks").map block,
    flag x "open_for_write", doubleOf (member x "modification_time")⟩

def isReplica (x : Json) : Bool := hasFields x ["node_id", "length"] ["live", "corrupt"]

def isBlock (x : Json) : Bool :=
  hasFields x ["block_id", "length"] ["replicas", "corrupt"] && hasItems x "replicas" isReplica

def isRecord (x : Json) : Bool :=
  hasFields x ["path", "length", "replication"] ["blocks", "open_for_write", "modification_time"] &&
    hasItems x "blocks" isBlock

def entry? (x : Json) : Option Entry :=
  (EntryKind.ofText? (text x "kind")).map fun kind => ⟨text x "path", kind⟩

end BlockFsck.Scenario
