import BlockFsck.Amount
import BlockFsck.Failure
import BlockFsck.Order
import BlockFsck.Report.Summary

/-!
# The text of a report

Lines for single findings as they come, and the block of counters at the end. The counters have no
text where an amount is beyond the largest double.
-/

namespace BlockFsck

/-- How much a report shows. -/
structure Detail where
  files : Bool := false
  blocks : Bool := false
  locations : Bool := false
  openFiles : Bool := false
  deriving Repr, DecidableEq

namespace Report

/-- The live replicas of a block by node. -/
def locations (block : BlockRecord) : String :=
  let live := (sortedBy Replica.node block.replicas).filter Replica.live
  String.intercalate ", " (live.map fun r => if r.corrupt then r.node ++ "(corrupt)" else r.node)

def blockLine (detail : Detail) (index : Nat) (h : BlockHealth) : String :=
  let line := s!"{index}. {h.block.id} len={h.block.length} repl={h.usable}"
  if detail.locations then s!"{line} [{locations h.block}]" else line

def problemLine? (path : String) (h : BlockHealth) : Option String :=
  match h.verdict with
  | .healthy => none
  | .underReplicated => some <|
    s!"{path}: Under replicated {h.block.id}. Target Replicas is {h.target} " ++
      s!"but found {h.usable} replica(s)."
  | .corrupt => some s!"{path}: CORRUPT block {h.block.id}"
  | .missing => some s!"{path}: MISSING block {h.block.id} of size {h.block.length} B"

def fileLine (detail : Detail) (h : FileHealth) : String :=
  let header := s!"{h.path} {h.record.length} bytes, {h.record.blocks.length} block(s)"
  let header := if h.openForWrite && detail.openFiles then header ++ ", OPENFORWRITE" else header
  let state := if h.verdict = .healthy then "OK" else h.verdict.text
  s!"{header}: {state}"

/-- The lines of a judged file: its state, its problems and, on demand, its blocks. -/
def fileLines (detail : Detail) (h : FileHealth) : List String :=
  let shown := detail.files || h.verdict ≠ .healthy || (detail.openFiles && h.openForWrite)
  if h.skipped || !shown then []
  else
    let blocks :=
      if detail.blocks then h.blocks.mapIdx (blockLine detail) else []
    fileLine detail h :: h.blocks.filterMap (problemLine? h.path) ++ blocks

def findingLines (detail : Detail) : Finding → List String
  | .directory path => if detail.files then [s!"{path} <dir>"] else []
  | .file health => fileLines detail health
  | .failed path reason => [s!"{path}: {Status.failure.marker} {reason}"]
  | .moved path destination => [s!"Moved {path} to {destination}"]
  | .deleted path => [s!"Deleted {path}"]

/-! ## The counters -/

def ruler : String := "  ********************************"

/-- The block that tells of corrupt files. -/
def lossLines (s : Summary) : List String :=
  if 0 < s.corruptFiles then
    [ruler, s!"  CORRUPT FILES:\t{s.corruptFiles}"] ++
      (if 0 < s.missingBlocks then
        [s!"  MISSING BLOCKS:\t{s.missingBlocks}", s!"  MISSING SIZE:\t\t{s.missingSize} B"]
      else []) ++
      (if 0 < s.corruptBlocks then [s!"  CORRUPT BLOCKS: \t{s.corruptBlocks}"] else []) ++
      [ruler]
  else []

def sizeLines? (detail : Detail) (s : Summary) : Option (List String) := do
  let size ← Amount.sizeText? s.totalSize
  let openSize :=
    if 0 < s.openFilesSize ∧ !detail.openFiles then
      [s!" Total open files size:\t{s.openFilesSize} B" ++
        s!" (Files currently being written: {s.openFiles})"]
    else []
  return s!" Total size:\t{s.totalSize} B ({size})" :: openSize

def countLines (detail : Detail) (s : Summary) : List String :=
  let openBlocks :=
    if 0 < s.openFilesBlocks ∧ !detail.openFiles then
      [s!" Total open file blocks (not validated):\t{s.openFilesBlocks}"]
    else []
  let average :=
    if 0 < s.totalBlocks then s!" (avg. block size {s.totalSize / s.totalBlocks} B)" else ""
  [s!" Total dirs:\t{s.totalDirs}", s!" Total files:\t{s.totalFiles}"] ++ openBlocks ++
    [s!" Total blocks (validated):\t{s.totalBlocks}{average}"]

/-- A count behind its label, with its share of a whole. -/
def shareLine? (label : String) (part whole : Int) : Option String := do
  let share ← Amount.percentText? part whole
  return s!" {label}{part} ({share} %)"

def replicationLines? (s : Summary) : Option (List String) := do
  let ofBlocks := fun label part => shareLine? label part s.totalBlocks
  let minimal ← ofBlocks "Minimally replicated blocks:\t" s.minimallyReplicatedBlocks
  let surplus ← ofBlocks "Over-replicated blocks:\t" s.overReplicatedBlocks
  let under ← ofBlocks "Under-replicated blocks:\t" s.underReplicatedBlocks
  let missing ← shareLine? "Missing replicas:\t\t" s.missingReplicas
    (s.totalReplicas + s.missingReplicas)
  let average ← s.averageReplication?
  return [minimal, surplus, under, s!" Corrupt blocks:\t\t{s.corruptBlocks}",
    s!" Missing blocks:\t\t{s.missingBlocks}", missing,
    s!" Average block replication:\t{average.fixed 2}",
    s!" Minimum block replication:\t{s.minReplication.getD 0}"]

/-- What was done, where anything was. -/
def actionLines (detail : Detail) (s : Summary) : List String :=
  (if detail.openFiles then [s!" Files open for write:\t{s.openFiles}"] else []) ++
    (if s.movedFiles ≠ 0 then [s!" Moved files:\t{s.movedFiles}"] else []) ++
    (if s.deletedFiles ≠ 0 then [s!" Deleted files:\t{s.deletedFiles}"] else []) ++
    (if s.failedFiles ≠ 0 then [s!" Failed files:\t{s.failedFiles}"] else [])

def summaryLines? (detail : Detail) (s : Summary) : Option (List String) := do
  return s!"Status: {s.status.text}" :: (← sizeLines? detail s) ++ countLines detail s ++
    lossLines s ++ (← replicationLines? s) ++ actionLines detail s

end Report

end BlockFsck
