import BlockFsck.Record

/-!
# Health of blocks and files

A block is judged by its usable replicas: those on a live node that nobody reported bad. A file is
as healthy as its worst judged block.
-/

namespace BlockFsck

/-- The verdicts in order of severity. -/
inductive Verdict
  | healthy
  | underReplicated
  | corrupt
  | missing
  deriving Repr, DecidableEq

namespace Verdict

def all : List Verdict := [.healthy, .underReplicated, .corrupt, .missing]

def text : Verdict → String
  | .healthy => "HEALTHY"
  | .underReplicated => "UNDER_REPLICATED"
  | .corrupt => "CORRUPT"
  | .missing => "MISSING"

def severity : Verdict → Nat
  | .healthy => 0
  | .underReplicated => 1
  | .corrupt => 2
  | .missing => 3

def worse (v w : Verdict) : Verdict := if v.severity < w.severity then w else v

/-- Data has been lost or damaged. -/
def isLoss (v : Verdict) : Bool := v = .corrupt || v = .missing

end Verdict

namespace BlockRecord

/-- Neither the replica nor its block is corrupt, and its node is live. -/
def isUsable (block : BlockRecord) (replica : Replica) : Bool :=
  replica.live && !replica.corrupt && !block.corrupt

def usableCount (block : BlockRecord) : Nat := block.replicas.countP block.isUsable

/-- All replicas of a corrupt block count as corrupt. -/
def corruptCount (block : BlockRecord) : Nat :=
  if block.corrupt then block.replicas.length else block.replicas.countP Replica.corrupt

/-- Without usable replicas the block is missing, or corrupt if bad ones remain. -/
def verdict (block : BlockRecord) (target : Int) : Verdict :=
  if block.usableCount = 0 then (if 0 < block.corruptCount then .corrupt else .missing)
  else if (block.usableCount : Int) < target then .underReplicated
  else .healthy

end BlockRecord

/-- A block whose declared length is negative. -/
structure Malformed where
  path : String
  block : String
  length : Int
  deriving Repr, DecidableEq

def Malformed.message (m : Malformed) : String :=
  s!"Malformed block {m.block} in '{m.path}': declared length {m.length} is negative"

/-- The judgement of one block against the number of replicas it should have. -/
structure BlockHealth where
  block : BlockRecord
  verdict : Verdict
  usable : Nat
  corrupt : Nat
  target : Int
  deriving Repr, DecidableEq

namespace BlockHealth

def overReplicated (h : BlockHealth) : Bool := h.target < h.usable

def missingReplicas (h : BlockHealth) : Int := max (h.target - h.usable) 0

/-- Judges a block of the file at `path`. -/
def ofBlock (path : String) (target : Int) (block : BlockRecord) : Except Malformed BlockHealth :=
  if block.length < 0 then .error ⟨path, block.id, block.length⟩
  else .ok ⟨block, block.verdict target, block.usableCount, block.corruptCount, target⟩

end BlockHealth

/-- The judgement of one file. A skipped file is open for write and was not looked at. -/
structure FileHealth where
  record : FileRecord
  verdict : Verdict := .healthy
  blocks : List BlockHealth := []
  excluded : List BlockRecord := []
  openForWrite : Bool := false
  skipped : Bool := false
  deriving DecidableEq

namespace FileHealth

def path (h : FileHealth) : String := h.record.path

def isCorrupt (h : FileHealth) : Bool := h.verdict.isLoss

def blocksWith (h : FileHealth) (v : Verdict) : List BlockHealth :=
  h.blocks.filter (·.verdict = v)

def worstOf (blocks : List BlockHealth) : Verdict :=
  blocks.foldl (fun v b => v.worse b.verdict) .healthy

/-- Judges a file. One open for write is skipped unless it is to be seen, and then its last block,
which may be incomplete, is left out. -/
def ofRecord (record : FileRecord) (openVisible : Bool) : Except Malformed FileHealth :=
  if record.openForWrite && !openVisible then .ok (⟨record, .healthy, [], [], false, true⟩)
  else do
    let judged := if record.openForWrite then record.blocks.dropLast else record.blocks
    let excluded := record.blocks.drop judged.length
    let blocks ← judged.mapM (BlockHealth.ofBlock record.path (max record.replication 1))
    return ⟨record, worstOf blocks, blocks, excluded, record.openForWrite, false⟩

end FileHealth

end BlockFsck
