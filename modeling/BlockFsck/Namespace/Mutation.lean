import BlockFsck.Namespace.Basic

/-!
# Changing the namespace

The requests of clients (rename, directories, deletion, writing under a lease) and the reports of
storage nodes. An action may fail, and whatever it has changed by then stays changed.
-/

namespace BlockFsck.Namespace

/-- An action on a namespace that may be refused. -/
abbrev Action (α : Type) := ExceptT NamespaceError (StateM Namespace) α

/-- Asks something of the present state. -/
def look {α : Type} (read : Namespace → Except NamespaceError α) : Action α := do
  read (← get)

/-- Puts an entry at a path, into the directory above it. -/
def place (ns : Namespace) (path : Path) (entry : Inode) : Namespace :=
  { ns with
    root := match path.getLast? with
      | some name => Inode.changeAt (·.set name entry) path.parent ns.root
      | none => ns.root }

/-- Takes the entry at a path out of the directory above it. -/
def take (ns : Namespace) (path : Path) : Namespace :=
  { ns with
    root := match path.getLast? with
      | some name => Inode.changeAt (·.erase name) path.parent ns.root
      | none => ns.root }

def putEntry (path : Path) (entry : Inode) : Action Unit :=
  modify fun ns => ns.place path entry

def putBlock (id : String) (block : Block) : Action Unit :=
  modify fun ns => { ns with blocks := ns.blocks.set id block }

/-! ## The tree -/

/-- Makes the directories that lead from `base` along the names; stops at a file. -/
def makeDirectories (base : Path) : List String → Action Bool
  | [] => return true
  | name :: rest => do
    let path := base ++ [name]
    match (← get).lookup path with
    | none =>
      putEntry path (.directory .empty)
      makeDirectories path rest
    | some (.directory _) => makeDirectories path rest
    | some (.file _) => return false

/-- Makes a directory and the missing ones above it; `false` if a file is in the way. -/
def mkdirs (text : String) : Action Bool := do
  makeDirectories [] (← look fun _ => readPath text)

/-- The namespace after an entry has gone with all below it from one path to another, unless that
is refused. -/
def renamed? (ns : Namespace) (source target : Path) : Option Namespace := do
  let name ← source.getLast?
  let newName ← target.getLast?
  guard (!target.isUnder source)
  let above ← ns.lookup source.parent
  let entry ← above.children.get? name
  match ← ns.lookup target.parent with
  | .file _ => none
  | .directory taken =>
    guard (!taken.contains newName)
    -- the entry is out of the tree before it is put back, and takes what is below it along
    return (ns.take source).place target entry

/-- Moves one entry with everything below it. -/
def rename (source target : String) : Action Bool := do
  let source ← look fun _ => readPath source
  let target ← look fun _ => readPath target
  match (← get).renamed? source target with
  | some after => do set after; return true
  | none => return false

/-- The namespace without the entry at a path, and without the blocks of the files in it. -/
def unlink (ns : Namespace) (path : Path) (entry : Inode) : Namespace :=
  { ns.take path with blocks := entry.blockIds.foldl Table.erase ns.blocks }

/-- The namespace after a deletion, unless that is refused. -/
def removed? (ns : Namespace) (path : Path) (recursive : Bool) : Option Namespace := do
  let name ← path.getLast?
  match ← ns.lookup path.parent with
  | .file _ => none
  | .directory siblings =>
    let entry ← siblings.get? name
    guard (recursive || entry.children.entries.isEmpty)
    return ns.unlink path entry

/-- Removes an entry; a directory with entries only if `recursive`. -/
def delete (text : String) (recursive : Bool) : Action Bool := do
  let path ← look fun _ => readPath text
  match (← get).removed? path recursive with
  | some after => do set after; return true
  | none => return false

/-! ## Storage nodes -/

def registerNode (node : String) (live : Bool) : Action Unit :=
  modify fun ns => { ns with nodes := ns.nodes.set node live }

def setNodeLive (node : String) (live : Bool) : Action Unit := do
  if (← get).nodes.contains node then registerNode node live else throw (.unknownNode node)

/-! ## Writing -/

/-- Takes the length of one block after the other from what remains, until nothing does. -/
def cutRounds (blockSize : Int) : Nat → Int → List Int
  | 0, _ => []
  | rounds + 1, remaining =>
    if 0 < remaining then
      let size := min remaining blockSize
      size :: cutRounds blockSize rounds (remaining - size)
    else []

/-- The lengths of the blocks that hold `length` bytes. A block has at least one, and so there are
no more rounds than bytes; with a block size below one the rounds would not end. -/
def cut (blockSize length : Int) : List Int :=
  if blockSize < 1 then [] else cutRounds blockSize length.toNat length

/-- The first `count` items; a negative count leaves that many out at the end. -/
def firstOf {α : Type} (count : Int) (xs : List α) : List α :=
  if 0 ≤ count then xs.take count.toNat else xs.take (xs.length - count.natAbs)

/-- The nodes that get the block number `index` of a file, each file starting at the first one. -/
def placement (candidates : List String) (replication : Int) (index : Nat) : List String :=
  let offset := index % candidates.length
  firstOf replication (candidates.drop offset ++ candidates.take offset)

def blockId (number : Nat) : String := s!"blk_{number}"

/-- A block with a copy on each of the nodes. -/
def blockOn (nodes : List String) (length : Int) : Block :=
  ⟨length, Table.ofList (nodes.map (·, ⟨length, false⟩))⟩

/-- New blocks of the given lengths with their ids. The first id has the number `next`, and the
first block is number `index` of its file. -/
def newBlocks (candidates : List String) (replication : Int) (next index : Nat)
    (lengths : List Int) : List (String × Block) :=
  lengths.mapIdx fun i length =>
    (blockId (next + i), blockOn (placement candidates replication (index + i)) length)

/-- Allocates blocks of the given lengths, the first one being number `index` of its file, and gives
back their ids. -/
def allocate (candidates : List String) (replication : Int) (index : Nat) (lengths : List Int) :
    Action (List String) := do
  let ns ← get
  let added := newBlocks candidates replication ns.nextBlock index lengths
  set { ns with nextBlock := ns.nextBlock + added.length, blocks := ns.blocks.extend added }
  return added.map Prod.fst

/-- The nodes to place blocks on: those given, or else the live ones. -/
def candidatesFrom (nodes : Option (List String)) : Action (List String) :=
  return nodes.getD (← get).liveNodes

/-- The replication asked for, where none and zero stand for the default. -/
def effectiveReplication (ns : Namespace) (asked : Option Int) : Int :=
  match asked with
  | some n => if n = 0 then ns.defaultReplication else n
  | none => ns.defaultReplication

/-- Makes a file of the given length, and the missing directories above it. -/
def createFile (text : String) (length : Int) (replication : Option Int)
    (nodes : Option (List String)) (lease : Option String) : Action FileRecord := do
  let path ← look fun _ => readPath text
  if path = [] then throw .root
  if !(← makeDirectories [] path.parent) then throw (.parentNotDirectory text)
  if ((← get).lookup path).isSome then throw (.taken text)
  let replication := (← get).effectiveReplication replication
  let candidates ← candidatesFrom nodes
  let blocks ← allocate candidates replication 0 (cut (← get).blockSize length)
  putEntry path (.file ⟨replication, blocks, lease, (← get).clock⟩)
  look (·.blockLocations text)

/-- A block with its length changed, and that of its copies with it. -/
def Block.resized (block : Block) (length : Int) : Block :=
  ⟨length, ⟨block.copies.entries.map fun (node, copy) => (node, { copy with length })⟩⟩

/-- Puts as many of the bytes as fit into the last block, and says how many are left. -/
def fillLast (content : FileNode) (length : Int) : Action Int := do
  let ns ← get
  match content.blocks.getLast? with
  | none => return length
  | some id =>
    match ns.blocks.get? id with
    | none => return length
    | some block =>
      if block.length < ns.blockSize then
        let grow := min length (ns.blockSize - block.length)
        putBlock id (Block.resized block (block.length + grow))
        return length - grow
      else return length

/-- Adds bytes to a file that is open for write, filling its last block first. -/
def append (text : String) (length : Int) (nodes : Option (List String)) : Action FileRecord := do
  let (path, content) ← look (·.findFile text)
  if content.lease.isNone then throw (.notOpen text)
  let candidates ← candidatesFrom nodes
  let left ← fillLast content length
  let blocks ← allocate candidates content.replication content.blocks.length
    (cut (← get).blockSize left)
  putEntry path (.file { content with
    blocks := content.blocks ++ blocks, modified := (← get).clock })
  look (·.blockLocations text)

/-- Takes the write lease on a file. Without a holder no lease is taken, but one of another holder
stands in the way all the same. -/
def openForWrite (text : String) (holder : Option String) : Action Unit := do
  let (path, content) ← look (·.findFile text)
  match content.lease with
  | some other => if holder ≠ some other then throw (.leased text other)
  | none => pure ()
  putEntry path (.file { content with lease := holder })

/-- Gives back the write lease on a file. -/
def closeFile (text : String) : Action Unit := do
  let (path, content) ← look (·.findFile text)
  putEntry path (.file { content with lease := none, modified := (← get).clock })

/-! ## Reports on replicas -/

/-- Forgets a copy. -/
def removeReplica (id node : String) : Action Unit := do
  let block ← look (·.findBlock id)
  putBlock id { block with copies := block.copies.erase node }

def addReplica (id node : String) : Action Unit := do
  let block ← look (·.findBlock id)
  if !(← get).nodes.contains node then throw (.unknownNode node)
  putBlock id { block with copies := block.copies.set node ⟨block.length, false⟩ }

/-- Marks a copy corrupt. -/
def reportBadReplica (id node : String) : Action Unit := do
  let block ← look (·.findBlock id)
  match block.copies.get? node with
  | none => throw (.noReplica id node)
  | some copy =>
    putBlock id { block with copies := block.copies.set node { copy with corrupt := true } }

/-- Overwrites the declared length of a block. -/
def setBlockLength (id : String) (length : Int) : Action Unit := do
  let block ← look (·.findBlock id)
  putBlock id { block with length }

end BlockFsck.Namespace
