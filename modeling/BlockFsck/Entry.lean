import BlockFsck.Path

/-!
# Namespace entries

What a listing says of a file or directory: its path and its kind.
-/

namespace BlockFsck

inductive EntryKind
  | file
  | directory
  deriving Repr, DecidableEq

namespace EntryKind

def text : EntryKind → String
  | .file => "file"
  | .directory => "directory"

def ofText? : String → Option EntryKind
  | "file" => some .file
  | "directory" => some .directory
  | _ => none

theorem ofText?_text (kind : EntryKind) : ofText? kind.text = some kind := by
  cases kind <;> rfl

end EntryKind

structure Entry where
  path : String
  kind : EntryKind
  deriving Repr, DecidableEq

namespace Entry

/-- The last segment of the path, and a slash for the root. -/
def name (e : Entry) : String := Path.baseName e.path

def isDirectory (e : Entry) : Bool := e.kind = .directory

end Entry

end BlockFsck
