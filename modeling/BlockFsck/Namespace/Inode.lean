import BlockFsck.Double
import BlockFsck.Entry
import BlockFsck.Path
import BlockFsck.Table

/-!
# The tree of a namespace

A directory holds its children by name, in the order in which they came, and a file lists the ids
of its blocks. A change to a directory that is reached along names leaves all others as they are.
-/

namespace BlockFsck

structure FileNode where
  replication : Int
  blocks : List String := []
  lease : Option String := none
  modified : Double := .finite 0
  deriving DecidableEq

/-- An entry of the tree with all that is below it. -/
inductive Inode
  | directory (children : Table String Inode)
  | file (content : FileNode)

/-- What stands at one place of the tree. -/
inductive Node
  | directory
  | file (content : FileNode)
  deriving DecidableEq

namespace Node

def kind : Node → EntryKind
  | .directory => .directory
  | .file _ => .file

def blocks : Node → List String
  | .directory => []
  | .file content => content.blocks

end Node

namespace Inode

def node : Inode → Node
  | .directory _ => .directory
  | .file content => .file content

/-- The children by name, of which a file has none. -/
def children : Inode → Table String Inode
  | .directory children => children
  | .file _ => .empty

/-- Goes down the names as long as there is a directory to go down from. -/
def lookup : Inode → Path → Option Inode
  | entry, [] => some entry
  | .file _, _ :: _ => none
  | .directory children, name :: rest =>
    match children.get? name with
    | some child => child.lookup rest
    | none => none

/-- Changes the children of the directory that the names lead to, if they lead to one. -/
def changeAt (change : Table String Inode → Table String Inode) :
    Path → Table String Inode → Table String Inode
  | [], children => change children
  | name :: rest, children =>
    match children.get? name with
    | some (.directory below) => children.set name (.directory (changeAt change rest below))
    | _ => children

mutual

/-- The files at or below an entry with their path texts. -/
def files (text : String) : Inode → List (String × FileNode)
  | .directory ⟨children⟩ => filesIn text children
  | .file content => [(text, content)]

def filesIn (text : String) : List (String × Inode) → List (String × FileNode)
  | [] => []
  | (name, child) :: rest => child.files (Path.childText text name) ++ filesIn text rest

end

mutual

/-- The ids of the blocks of all files at or below an entry. -/
def blockIds : Inode → List String
  | .directory ⟨children⟩ => blockIdsIn children
  | .file content => content.blocks

def blockIdsIn : List (String × Inode) → List String
  | [] => []
  | (_, child) :: rest => child.blockIds ++ blockIdsIn rest

end

end Inode

end BlockFsck
