import BlockFsck.Config.Basic
import BlockFsck.Config.Disk

/-!
# The configuration file

Loading never loses a file: one that is no JSON or cannot be read is put aside under a name of its
own, and the defaults are used. A missing file is made with the defaults.
-/

namespace BlockFsck.Config

/-- The name under which a file is put aside: its last ending replaced by `.json.bak`. -/
def backupName (name : String) : String :=
  let pieces := Path.pieces '.' name.toList
  let stem := List.intercalate ['.'] pieces.dropLast
  match pieces.getLast? with
  | some (_ :: _) =>
    if stem = [] then name ++ ".json.bak" else String.ofList stem ++ ".json.bak"
  | _ => name ++ ".json.bak"

def backupPath (path : Path) : Path :=
  path.parent ++ (path.getLast?.map backupName).toList

/-- The disk after a step that does not matter if it fails. -/
def attempted (disk : Disk) (change : Disk.Change) : Disk :=
  match change with
  | .ok disk => disk
  | .error _ => disk

/-- Why there is no configuration. -/
inductive LoadError
  | content (error : ConfigError)
  | disk (error : DiskError)
  deriving Repr, DecidableEq

/-- The defaults, with the file put aside. -/
def setAside (disk : Disk) (path : Path) : Except LoadError Config × Disk :=
  (.ok default, attempted disk (disk.rename path (backupPath path)))

/-- Loads a file that is there. -/
def loadFile (room : Nat) (disk : Disk) (path : Path) : Except LoadError Config × Disk :=
  match disk.read path with
  | .error _ => setAside disk path
  | .ok bytes =>
    match ofBytes room bytes with
    | .config c => (.ok c, disk)
    | .broken _ => setAside disk path
    | .refused e => (.error (.content e), disk)

/-- Loads the configuration at a path, whose directory is made if it is missing. -/
def load (room : Nat) (disk : Disk) (path : Path) : Except LoadError Config × Disk :=
  match disk.makeDirectories path.parent with
  | .error e => (.error (.disk e), disk)
  | .ok disk =>
    if disk.isThere path then loadFile room disk path
    else (.ok default, attempted disk (disk.write path default.text.toUTF8))

/-- Writes the configuration, if there is a file to be written. A setting that cannot be written
breaks the file off. -/
def save (room : Nat) (c : Config) (disk : Disk) (path : Path) :
    Except Json.WriteFault Unit × Disk :=
  let (text, fault) := Json.written room c.chunks
  match disk.write path (String.ofList text).toUTF8, fault with
  | .error _, _ => (.ok (), disk)
  | .ok disk, none => (.ok (), disk)
  | .ok disk, some fault => (.error fault, disk)

end BlockFsck.Config
