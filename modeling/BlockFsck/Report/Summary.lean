import BlockFsck.Health
import BlockFsck.Report.Status

/-!
# Counting what a run finds

Counters over all files of a run, and the status that follows from them.
-/

namespace BlockFsck

structure Summary where
  totalFiles : Int := 0
  totalDirs : Int := 0
  totalBlocks : Int := 0
  totalSize : Int := 0
  totalReplicas : Int := 0
  /-- The least number of usable replicas of a block, if there was a block. -/
  minReplication : Option Int := none
  corruptBlocks : Int := 0
  missingBlocks : Int := 0
  missingSize : Int := 0
  underReplicatedBlocks : Int := 0
  overReplicatedBlocks : Int := 0
  minimallyReplicatedBlocks : Int := 0
  missingReplicas : Int := 0
  openFiles : Int := 0
  openFilesBlocks : Int := 0
  openFilesSize : Int := 0
  corruptFiles : Int := 0
  failedFiles : Int := 0
  movedFiles : Int := 0
  deletedFiles : Int := 0
  deriving Repr, DecidableEq

/-- What a run has found or done. -/
inductive Finding
  | directory (path : String)
  | file (health : FileHealth)
  | failed (path reason : String)
  | moved (path destination : String)
  | deleted (path : String)
  deriving DecidableEq

namespace Summary

/-- The replicas of a block per block on average, zero without blocks; `none` where no double holds
it. -/
def averageReplication? (s : Summary) : Option Double :=
  if s.totalBlocks = 0 then some (.finite 0)
  else Double.ofQuotient? s.totalReplicas s.totalBlocks

/-- A failure outweighs corruption. -/
def status (s : Summary) : Status :=
  if 0 < s.failedFiles then .failure
  else if 0 < s.corruptBlocks ∨ 0 < s.missingBlocks ∨ 0 < s.corruptFiles then .corrupt
  else .healthy

/-- The smaller of a number and the least so far. -/
def least (least : Option Int) (n : Int) : Int :=
  match least with
  | none => n
  | some m => min m n

/-- Counts the verdict of a block. -/
def countVerdict (s : Summary) (h : BlockHealth) : Summary :=
  match h.verdict with
  | .healthy => s
  | .underReplicated => { s with underReplicatedBlocks := s.underReplicatedBlocks + 1 }
  | .corrupt => { s with corruptBlocks := s.corruptBlocks + 1 }
  | .missing =>
    { s with missingBlocks := s.missingBlocks + 1, missingSize := s.missingSize + h.block.length }

def countBlock (s : Summary) (h : BlockHealth) : Summary :=
  countVerdict
    { s with
      totalReplicas := s.totalReplicas + h.usable
      minReplication := some (least s.minReplication h.usable)
      minimallyReplicatedBlocks := s.minimallyReplicatedBlocks + (if 0 < h.usable then 1 else 0)
      overReplicatedBlocks := s.overReplicatedBlocks + (if h.overReplicated then 1 else 0)
      missingReplicas := s.missingReplicas + h.missingReplicas } h

def countFile (s : Summary) (h : FileHealth) : Summary :=
  if h.skipped then
    { s with
      openFiles := s.openFiles + 1
      openFilesBlocks := s.openFilesBlocks + h.record.blocks.length
      openFilesSize := s.openFilesSize + h.record.length }
  else
    h.blocks.foldl countBlock
      { s with
        totalFiles := s.totalFiles + 1
        totalSize := s.totalSize + h.record.length
        totalBlocks := s.totalBlocks + h.blocks.length
        openFiles := s.openFiles + (if h.openForWrite then 1 else 0)
        corruptFiles := s.corruptFiles + (if h.isCorrupt then 1 else 0) }

def count (s : Summary) : Finding → Summary
  | .directory _ => { s with totalDirs := s.totalDirs + 1 }
  | .file health => s.countFile health
  | .failed _ _ => { s with failedFiles := s.failedFiles + 1 }
  | .moved _ _ => { s with movedFiles := s.movedFiles + 1 }
  | .deleted _ => { s with deletedFiles := s.deletedFiles + 1 }

end Summary

end BlockFsck
