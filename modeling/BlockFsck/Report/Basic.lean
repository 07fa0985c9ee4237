import BlockFsck.Report.Text

/-!
# Reports

A report takes findings until it is closed, and writes their lines as they come. Its final text is
those lines, the counters and the closing line. The lines may also go to a writer outside, and then
the final text does not repeat them.
-/

namespace BlockFsck

structure Report where
  path : String
  detail : Detail := {}
  /-- The lines of findings go to a writer outside. -/
  writesOutside : Bool := false
  summary : Summary := {}
  written : String := ""
  closed : Bool := false
  deriving Repr, DecidableEq

namespace Report

def writeLines (report : Report) (lines : List String) : Report :=
  { report with written := lines.foldl (fun text line => text ++ line ++ "\n") report.written }

/-- Counts a finding and writes its lines, unless the report is closed. -/
def add (report : Report) (finding : Finding) : Except Failure Report :=
  if report.closed then .error .reportClosed
  else
    .ok <| { report with summary := report.summary.count finding }.writeLines
      (findingLines report.detail finding)

/-- Takes no findings from here on. -/
def close (report : Report) : Report := { report with closed := true }

/-- The text without the line breaks at its end. -/
def withoutFinalBreaks (text : String) : String :=
  String.ofList (text.toList.reverse.dropWhile (· = '\n')).reverse

def summaryLines (report : Report) : Except Failure (List String) :=
  match summaryLines? report.detail report.summary with
  | some lines => .ok lines
  | none => .error .overflow

/-- The final text. -/
def text (report : Report) : Except Failure String := do
  let body :=
    if report.writesOutside || report.written = "" then []
    else [withoutFinalBreaks report.written]
  let counters ← report.summaryLines
  let closing := ["", "", report.summary.status.line report.path]
  return String.intercalate "\n" (body ++ counters ++ closing) ++ "\n"

/-- The final text, or why there is none, and the report, which takes no findings any more. -/
def render (report : Report) : Except Failure String × Report := (report.text, report.close)

end Report

end BlockFsck
