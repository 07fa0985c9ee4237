import BlockFsck.Report.Status
import BlockFsck.Walk

/-!
# Listing corrupt files

The files below a path with a corrupt or missing block, found by walking, and the files that the
service itself has on its list of corrupt ones, provided they are still there and in scope.
-/

namespace BlockFsck

/-- What to list. -/
structure Listing where
  openVisible : Bool := false
  quarantine : Option String := some "/lost+found"
  deriving Repr, DecidableEq

/-- What was found besides the listed files. -/
structure ListingNotes where
  /-- Files that could not be judged, in the order of the walk. -/
  malformed : List String := []
  /-- Listed files that are open for write. -/
  openFiles : List String := []
  deriving Repr, DecidableEq

namespace Listing

def logger : String := "fsck.lister"

/-- The closing sentence for a number of corrupt files. -/
def sentence (count : Int) (path : String) : Except ArgumentError String :=
  if count < 0 then .error (.negativeCount count)
  else if count = 0 then
    .ok <| s!"Unable to locate any corrupt files under '{path}'.\n\n" ++
      s!"Please run a complete fsck to confirm if '{path}' {Status.healthy.marker}"
  else if count = 1 then
    .ok s!"There is at least 1 corrupt file under '{path}', which {Status.corrupt.marker}"
  else
    .ok s!"There are at least {count} corrupt files under '{path}', which {Status.corrupt.marker}"

/-- Found files and notes while a listing is being made. -/
structure Found where
  files : List String := []
  notes : ListingNotes := {}
  deriving Repr, DecidableEq

def Found.add (found : Found) (path : String) (isOpen : Bool) : Found :=
  { found with
    files := found.files ++ [path]
    notes.openFiles :=
      if isOpen && !found.notes.openFiles.contains path then found.notes.openFiles ++ [path]
      else found.notes.openFiles }

/-- Judges one entry of the walk. -/
def visit (listing : Listing) (entry : Entry) : Check Found Unit := do
  if entry.isDirectory then return
  match ← Check.orIfMissing (some <$> Check.query (.blockLocations entry.path)) none with
  | none => return
  | some record =>
    match FileHealth.ofRecord record listing.openVisible with
    | .error malformed =>
      Check.log ⟨logger, Log.warning, malformed.message⟩
      modify fun found =>
        { found with notes.malformed := found.notes.malformed ++ [entry.path] }
    | .ok health =>
      if health.isCorrupt then modify (·.add entry.path health.openForWrite)

/-- The record of a file that is there now. -/
def currentRecord (path : String) : Check Found (Option FileRecord) := do
  match ← Check.query (.resolve path) with
  | none => return none
  | some entry =>
    if entry.isDirectory then return none
    else Check.orIfMissing (some <$> Check.query (.blockLocations path)) none

/-- The path is below the quarantine directory, and the listing does not start in there. -/
def isLeftOut (listing : Listing) (startsInside : Bool) (path : String) : Check Found Bool := do
  match listing.quarantine with
  | none => return false
  | some q =>
    if q = "" ∨ startsInside then return false
    else Check.ofPath (Path.textIsUnder path q)

/-- Considers one path of the service's list; `walked` are the files found by the walk. -/
def visitListed (listing : Listing) (root : String) (startsInside : Bool) (walked : List String)
    (path : String) : Check Found Unit := do
  if walked.contains path then return
  if !(← Check.ofPath (Path.textIsUnder path root)) then return
  if ← isLeftOut listing startsInside path then return
  match ← currentRecord path with
  | none => return
  | some record =>
    if !record.openForWrite || listing.openVisible then
      modify (·.add path record.openForWrite)

/-- The corrupt files under a path, in order, and the notes on them. What an earlier listing found
is dropped. -/
def run (listing : Listing) (depth : Nat) (path : String) : Check Found (List String) := do
  let walk ← Check.ofPath (Walk.make path listing.quarantine)
  let root ← Check.ofPath (Path.normalize path)
  modify fun _ => {}
  { walk with root }.run depth listing.visit
  let walked := (← get).files
  let startsInside ← match listing.quarantine with
    | some q => Check.ofPath (Path.textIsUnder root q)
    | none => pure false
  (← Check.query .corruptFiles).forM (listing.visitListed root startsInside walked)
  return sortedTexts (← get).files

/-- The listed paths, one a line, and the closing sentence. -/
def text (path : String) (files : List String) : Except ArgumentError String := do
  let closing ← sentence files.length path
  let lines := if files.isEmpty then [] else files ++ [""]
  return String.intercalate "\n" (lines ++ [closing]) ++ "\n"

end Listing

end BlockFsck
