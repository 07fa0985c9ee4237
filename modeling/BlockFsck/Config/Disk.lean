import BlockFsck.Path
import BlockFsck.Table

/-!
# A directory on disk

The files below a working directory, as far as reading and keeping a configuration needs them.
-/

namespace BlockFsck

/-- Contents are compared byte by byte. -/
instance (priority := high) instDecidableEqContent : DecidableEq ByteArray :=
  ByteArray.instDecidableEq

inductive DiskNode
  | directory
  | file (content : ByteArray)
  /-- A link to a file that cannot be made. -/
  | brokenLink
  deriving DecidableEq

inductive DiskError
  | notFound
  | isDirectory
  | notDirectory
  | alreadyThere
  | notEmpty
  deriving Repr, DecidableEq

/-- What lies at each path; the empty path is the working directory itself. -/
structure Disk where
  nodes : Table Path DiskNode := ⟨[([], .directory)]⟩
  deriving DecidableEq

namespace Disk

abbrev Change := Except DiskError Disk

/-- Where a path leads, the name `..` taking one name back. -/
def followed (path : Path) : Path :=
  path.foldl (fun place name => if name = ".." then place.dropLast else place ++ [name]) []

/-- The places that a path leads through, the first being the working directory and the last the one
where it ends. -/
def places (path : Path) : List Path := ((List.range (path.length + 1)).map path.take).map followed

/-- What lies where a path leads, if it leads there through directories. -/
def node? (disk : Disk) (path : Path) : Option DiskNode :=
  if (places path).dropLast.all (disk.nodes.get? · = some .directory) then
    disk.nodes.get? (followed path)
  else none

def put (disk : Disk) (path : Path) (node : DiskNode) : Disk :=
  ⟨disk.nodes.set (followed path) node⟩

/-- Something lies at the path, and if it is a link, it leads somewhere. -/
def isThere (disk : Disk) (path : Path) : Bool :=
  match disk.node? path with
  | some .brokenLink => false
  | some _ => true
  | none => false

/-- Makes a directory and those above it, where they are missing. -/
def makeDirectories (disk : Disk) (path : Path) : Change :=
  (places path).foldlM
    (fun disk path =>
      match disk.nodes.get? path with
      | none => .ok (disk.put path .directory)
      | some .directory => .ok disk
      | some _ => .error .alreadyThere)
    disk

/-- Makes a directory where nothing was. -/
def makeDirectory (disk : Disk) (path : Path) : Change :=
  if (disk.node? path).isSome then .error .alreadyThere else .ok (disk.put path .directory)

def read (disk : Disk) (path : Path) : Except DiskError ByteArray :=
  match disk.node? path with
  | some (.file content) => .ok content
  | some .directory => .error .isDirectory
  | _ => .error .notFound

/-- Writes a whole file into a directory that is there. -/
def write (disk : Disk) (path : Path) (content : ByteArray) : Change :=
  match disk.node? path with
  | some .directory => .error .isDirectory
  | some .brokenLink => .error .notFound
  | _ =>
    match disk.node? path.parent with
    | some .directory => .ok (disk.put path (.file content))
    | _ => .error .notFound

/-- Nothing lies below the path. -/
def isEmptyBelow (disk : Disk) (path : Path) : Bool :=
  let place := followed path
  disk.nodes.entries.all fun e => e.1 = place || !e.1.isUnder place

/-- A file may replace a file, and a directory an empty directory. -/
def replacement (disk : Disk) (node : DiskNode) (target : Path) : Except DiskError Unit :=
  match node, disk.node? target with
  | _, none => .ok ()
  | .directory, some .directory =>
    if disk.isEmptyBelow target then .ok () else .error .notEmpty
  | .directory, some _ => .error .notDirectory
  | _, some .directory => .error .isDirectory
  | _, some _ => .ok ()

/-- Moves what lies at a path, with all below it, in place of what is at the target. -/
def rename (disk : Disk) (source target : Path) : Change :=
  match disk.node? source with
  | none => .error .notFound
  | some node => do
    replacement disk node target
    let source := followed source
    let target := followed target
    if target.isUnder source then throw .notEmpty
    let others := disk.nodes.erase target
    return ⟨⟨others.entries.map fun (path, node) =>
      if path.isUnder source then (target ++ path.drop source.length, node) else (path, node)⟩⟩

/-- Removes a directory with all below it. -/
def removeTree (disk : Disk) (path : Path) : Change :=
  if (disk.node? path).isSome then .ok ⟨disk.nodes.restrict (!·.isUnder (followed path))⟩
  else .error .notFound

end Disk

end BlockFsck
