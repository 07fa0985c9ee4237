import BlockFsck.Listing
import BlockFsck.Quarantine
import BlockFsck.Report.Basic

/-!
# Checking a subtree

One run over a subtree ends in one result: it judges every file, moves or deletes the corrupt ones
on demand, and reports. A missing root and a service that cannot be reached are reported too; any
other failure of the service is the failure of the run.
-/

namespace BlockFsck

structure Options where
  path : String
  move : Bool := false
  delete : Bool := false
  openForWrite : Bool := false
  listCorrupt : Bool := false
  files : Bool := false
  blocks : Bool := false
  locations : Bool := false
  quarantine : String := "/lost+found"
  deriving Repr, DecidableEq

namespace Options

/-- The options with their paths in normal form, if they can be combined. -/
def validate (o : Options) : Except ArgumentError Options := do
  let path ← (Path.normalize o.path).mapError .badPath
  let quarantine ← (Path.normalize o.quarantine).mapError .badPath
  if o.move && o.delete then throw .moveAndDelete
  return { o with path, quarantine }

def detail (o : Options) : Detail := ⟨o.files, o.blocks, o.locations, o.openForWrite⟩

def mover (o : Options) : Quarantine := { directory := o.quarantine }

end Options

/-- The verdict of a run, its report, and the files it found corrupt. -/
structure Result where
  status : Status
  output : String
  summary : Option Summary := none
  corruptFiles : List String := []
  deriving Repr, DecidableEq

namespace Checker

def logger : String := "fsck.checker"

/-- What a full check has gathered so far. -/
structure Scan where
  report : Report
  corrupt : List String := []
  deriving Repr, DecidableEq

def report (finding : Finding) : Check Scan Unit := do
  match (← get).report.add finding with
  | .ok report => modify fun scan => { scan with report }
  | .error failure => throw failure

/-- Reports a file that could not be dealt with; the run goes on. -/
def reportFailure (path reason : String) : Check Scan Unit := do
  report (.failed path reason)
  Check.log ⟨"fsck.report", Log.warning, s!"Check failed for {path}: {reason}"⟩

/-- Deals with a refusal to move or delete; other failures go on. -/
def onRefusal {σ α : Type} (step : Check σ α) (handle : Failure → Check σ α) : Check σ α :=
  tryCatch step fun failure => if failure.kind = .quarantine then handle failure else throw failure

/-- Moves or deletes a corrupt file, as the options say. -/
def treat (o : Options) (path : String) : Check Scan Unit :=
  onRefusal
    (do
      if o.move then report (.moved path (← o.mover.move path))
      else if o.delete then
        Check.deleteFile path
        report (.deleted path))
    fun failure => reportFailure path failure.message

/-- Judges one file and treats it if it is corrupt and nobody is writing to it. -/
def visitFile (o : Options) (path : String) : Check Scan Unit := do
  match ← Check.orIfMissing (some <$> Check.query (.blockLocations path)) none with
  | none => return
  | some record =>
    match FileHealth.ofRecord record o.openForWrite with
    | .error malformed => reportFailure path malformed.message
    | .ok health =>
      report (.file health)
      if health.isCorrupt then
        if !health.openForWrite then treat o path
        modify fun scan => { scan with corrupt := scan.corrupt ++ [path] }

def visit (o : Options) (entry : Entry) : Check Scan Unit :=
  if entry.isDirectory then report (.directory entry.path) else visitFile o entry.path

/-- Judges every file and sums up. -/
def fullCheck (o : Options) (depth : Nat) : Check Scan Result := do
  Walk.run ⟨o.path, some o.quarantine⟩ depth (visit o)
  let scan ← get
  match scan.report.render.1 with
  | .ok output =>
    return ⟨scan.report.summary.status, output, some scan.report.summary, scan.corrupt⟩
  | .error failure => throw failure

/-! ## Listing mode -/

def failureLine (path reason : String) : String := s!"{path}: {Status.failure.marker} {reason}"

/-- The lines of what was done and of what failed. -/
structure Treated where
  actions : List String := []
  failures : List String := []
  deriving Repr, DecidableEq

/-- Moves or deletes a listed file, as the options say, and gives back the line for it. -/
def treatListed {σ : Type} (o : Options) (path : String) : Check σ Treated :=
  onRefusal
    (do
      if o.move then
        let destination ← o.mover.move path
        return { actions := [s!"Moved {path} to {destination}"] }
      else if o.delete then
        Check.deleteFile path
        return { actions := [s!"Deleted {path}"] }
      else return {})
    fun failure => do
      Check.log ⟨logger, Log.warning, failure.message⟩
      return { failures := [failureLine path failure.message] }

/-- Treats the listed files one after the other. -/
def treatAll {σ : Type} (o : Options) : List String → Check σ Treated
  | [] => return {}
  | path :: rest => do
    let first ← treatListed o path
    let others ← treatAll o rest
    return ⟨first.actions ++ others.actions, first.failures ++ others.failures⟩

/-- The result of a listing. Its text has the closing line of a failed run instead of the sentence
on corrupt files if anything failed. -/
def listingResult (path : String) (files : List String) (treated : Treated) :
    Except ArgumentError Result := do
  if treated.failures.isEmpty then
    let closing ← Listing.sentence files.length path
    let lines := (if files.isEmpty then [] else files ++ [""]) ++ [closing] ++ treated.actions
    let status := if files.isEmpty then Status.healthy else .corrupt
    return ⟨status, String.intercalate "\n" lines ++ "\n", none, files⟩
  else
    let lines := files ++ treated.actions ++ treated.failures ++ ["", Status.failure.line path]
    return ⟨.failure, String.intercalate "\n" lines ++ "\n", none, files⟩

/-- Lists the corrupt files instead of reporting on all. -/
def listCheck (o : Options) (depth : Nat) : Check Listing.Found Result := do
  let listing : Listing := { openVisible := o.openForWrite, quarantine := some o.quarantine }
  let files ← listing.run depth o.path
  let notes := (← get).notes
  let treated ← treatAll o (files.filter (!notes.openFiles.contains ·))
  let malformed := notes.malformed.map (failureLine · "malformed block metadata")
  match listingResult o.path files { treated with failures := malformed ++ treated.failures } with
  | .ok result => return result
  | .error e => throw (.argument e)

/-! ## The run -/

/-- The result of a run that could not be completed. -/
def failed (o : Options) (message : String) : Result where
  status := .failure
  output := s!"{message}\n\n\n{Status.failure.line o.path}\n"

/-- A missing root and an unreachable service have a report of their own. -/
def concluded (o : Options) : Except Failure Result → Program Metadata (Except Failure Result)
  | .ok result => return .ok result
  | .error failure => do
    if failure.isMissing then
      let _ ← Program.question (.log ⟨logger, Log.warning, failure.message⟩ : MetadataRequest)
      return .ok (failed o failure.message)
    else if failure.kind = .unavailable then
      let _ ← Program.question (.log ⟨logger, Log.error,
        s!"Namespace service unavailable during fsck of {o.path}: {failure.message}"⟩ :
          MetadataRequest)
      return .ok (failed o s!"Namespace service unavailable: {failure.message}")
    else return .error failure

/-- One run with valid options. -/
def run (o : Options) (depth : Nat) : Program Metadata (Except Failure Result) := do
  let ended ←
    if o.listCorrupt then
      Prod.fst <$> (listCheck o depth).start {}
    else
      Prod.fst <$> (fullCheck o depth).start { report := { path := o.path, detail := o.detail } }
  concluded o ended

end Checker

end BlockFsck
