import BlockFsck.Double

/-!
# File records

The block layout of one file, with the replicas of each block and what is known of them.
-/

namespace BlockFsck

/-- One stored copy of a block on a storage node. -/
structure Replica where
  node : String
  length : Int
  live : Bool := true
  corrupt : Bool := false
  deriving Repr, DecidableEq

/-- One block of a file. It is corrupt when every replica has been reported bad. -/
structure BlockRecord where
  id : String
  length : Int
  replicas : List Replica := []
  corrupt : Bool := false
  deriving Repr, DecidableEq

/-- What a check needs to know of one file. -/
structure FileRecord where
  path : String
  length : Int
  replication : Int
  blocks : List BlockRecord := []
  openForWrite : Bool := false
  modified : Double := .finite 0
  deriving DecidableEq

end BlockFsck
