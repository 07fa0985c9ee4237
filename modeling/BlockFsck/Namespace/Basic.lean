import BlockFsck.Failure
import BlockFsck.Namespace.Inode
import BlockFsck.Order

/-!
# The in-memory namespace and its reads

The root is a directory, and is given by its children. A file lists the ids of its blocks, and one
registry holds the blocks of all files.
-/

namespace BlockFsck

/-- A copy of a block as its node reported it. -/
structure BlockCopy where
  length : Int
  corrupt : Bool := false
  deriving Repr, DecidableEq

/-- A block with its copies by node. -/
structure Block where
  length : Int
  copies : Table String BlockCopy := Table.empty
  deriving Repr, DecidableEq

/-- Every copy is corrupt, and there is one. -/
def Block.isCorrupt (b : Block) : Bool :=
  !b.copies.entries.isEmpty && b.copies.entries.all (·.2.corrupt)

structure Namespace where
  /-- What the root directory holds. -/
  root : Table String Inode := Table.empty
  blocks : Table String Block := Table.empty
  /-- The storage nodes, and whether each is live. -/
  nodes : Table String Bool := Table.empty
  /-- The number of the next block. -/
  nextBlock : Nat := 1
  blockSize : Int := 64 * 1024 * 1024
  defaultReplication : Int := 3
  clock : Double := .finite 0

namespace Namespace

/-- An empty namespace with the given storage nodes, all live. -/
def empty (blockSize defaultReplication : Int) (nodes : List String) : Namespace :=
  { blockSize, defaultReplication, nodes := Table.ofList (nodes.map (·, true)) }

def readPath (text : String) : Except NamespaceError Path :=
  (Path.ofText text).mapError .badPath

def tree (ns : Namespace) : Inode := .directory ns.root

def lookup (ns : Namespace) (path : Path) : Option Inode := ns.tree.lookup path

def node? (ns : Namespace) (path : Path) : Option Node := (ns.lookup path).map Inode.node

/-- The entry at a path text, with its path. -/
def find (ns : Namespace) (text : String) : Except NamespaceError (Path × Inode) := do
  let path ← readPath text
  match ns.lookup path with
  | some entry => return (path, entry)
  | none => throw (.notFound text)

def findFile (ns : Namespace) (text : String) : Except NamespaceError (Path × FileNode) := do
  match ← ns.find text with
  | (path, .file content) => return (path, content)
  | (_, .directory _) => throw (.notFile text)

def findBlock (ns : Namespace) (id : String) : Except NamespaceError Block :=
  match ns.blocks.get? id with
  | some block => .ok block
  | none => .error (.unknownBlock id)

def isLive (ns : Namespace) (node : String) : Bool := (ns.nodes.get? node).getD false

/-- The live storage nodes in order of their names. -/
def liveNodes (ns : Namespace) : List String :=
  sortedTexts ((ns.nodes.entries.filter (·.2)).map Prod.fst)

def replicaOf (ns : Namespace) (copy : String × BlockCopy) : Replica :=
  ⟨copy.1, copy.2.length, ns.isLive copy.1, copy.2.corrupt⟩

/-- What a check needs to know of a block, its replicas in order of their nodes. -/
def blockRecord (ns : Namespace) (id : String) (block : Block) : BlockRecord where
  id
  length := block.length
  replicas := (sortedBy Prod.fst block.copies.entries).map ns.replicaOf
  corrupt := block.isCorrupt

def recordOf (ns : Namespace) (path : Path) (content : FileNode) : FileRecord :=
  let blocks := content.blocks.filterMap fun id => (ns.blocks.get? id).map (ns.blockRecord id)
  { path := path.text
    length := (blocks.map BlockRecord.length).foldr (· + ·) 0
    replication := content.replication
    blocks
    openForWrite := content.lease.isSome
    modified := content.modified }

/-! ## Reads -/

/-- The entry at a path, if there is one. -/
def resolve (ns : Namespace) (text : String) : Except NamespaceError (Option Entry) := do
  let path ← readPath text
  return (ns.node? path).map fun node => ⟨path.text, node.kind⟩

/-- The entries of a directory in order of their names. -/
def entriesOf (path : Path) (children : Table String Inode) : List Entry :=
  (sortedBy Prod.fst children.entries).map fun (name, child) =>
    ⟨Path.childText path.text name, child.node.kind⟩

def listChildren (ns : Namespace) (text : String) : Except NamespaceError (List Entry) := do
  match ← ns.find text with
  | (path, .directory children) => return entriesOf path children
  | (_, .file _) => throw (.notDirectory text)

def blockLocations (ns : Namespace) (text : String) : Except NamespaceError FileRecord := do
  let (path, content) ← ns.findFile text
  return ns.recordOf path content

def blockIds (ns : Namespace) (text : String) : Except NamespaceError (List String) := do
  return (← ns.findFile text).2.blocks

/-- Some block of the node has copies and all of them are corrupt. -/
def hasCorruptBlock (ns : Namespace) (node : Node) : Bool :=
  node.blocks.any fun id => (ns.blocks.get? id).any Block.isCorrupt

/-- The paths of the files with a corrupt block, in order. -/
def corruptFiles (ns : Namespace) : List String :=
  let corrupt := (ns.tree.files "/").filter fun e => ns.hasCorruptBlock (.file e.2)
  sortedTexts (corrupt.map Prod.fst)

end Namespace

end BlockFsck
