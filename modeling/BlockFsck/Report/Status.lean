/-!
# The verdict of a run

One of three statuses, each with its exit code and its own marker in the closing line.
-/

namespace BlockFsck

inductive Status
  | healthy
  | corrupt
  | failure
  deriving Repr, DecidableEq

namespace Status

def text : Status → String
  | .healthy => "HEALTHY"
  | .corrupt => "CORRUPT"
  | .failure => "FAILURE"

def ofText? : String → Option Status
  | "HEALTHY" => some .healthy
  | "CORRUPT" => some .corrupt
  | "FAILURE" => some .failure
  | _ => none

def exitCode : Status → Int
  | .healthy => 0
  | .corrupt => 1
  | .failure => -1

/-- The words that tell the status in a report. -/
def marker : Status → String
  | .healthy => "is HEALTHY"
  | .corrupt => "is CORRUPT"
  | .failure => "FAILURE"

/-- The last line of a report. -/
def line (status : Status) (path : String) : String :=
  match status with
  | .failure => s!"The filesystem check under path '{path}' ended in {status.marker}"
  | _ => s!"The filesystem under path '{path}' {status.marker}"

end Status

end BlockFsck
