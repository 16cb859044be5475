import MessageCatalog.Issue.Basic
import MessageCatalog.Report.Style

/-!
# Reports of issues

A report shows issues one after the other in their order: what is wrong and which rule
it violates, where it is, the line with a mark under the place, and notes. All lines
share one margin, which is as wide as the largest line number. A count ends the report.
No issues make no report.
-/

namespace MessageCatalog

namespace Report

variable (coloured : Bool)

def severityStyle : Severity → Style
  | .error => .red
  | .warning => .yellow

/-- A line of the margin: what stands in it, the bar, and what stands behind. -/
def marginLine (width : Nat) (label : String) (mark : String) (text : String) : String :=
  styledLabel ++ " " ++ styled coloured [.blue] mark ++ text
where
  styledLabel : String :=
    if label.isEmpty then blanks width else styled coloured [.blue] (padded width label)

/-- The text of a line that stands before a column. The column is taken as a count of characters
here, whatever their width. -/
def beforeColumn (line : String) (column : Nat) : List Char :=
  line.toList.take (column - 1)

/-- The lines that show the place of an issue: an empty one, the line of the source, and a mark.
The mark is indented by the width of the text before the column. -/
def shownLines (width : Nat) (severity : Severity) (context : Text.Context) : List String :=
  let indent := Text.displayWidth (beforeColumn context.sourceLine context.position.column)
  [marginLine coloured width "" "|" "",
    marginLine coloured width (toString context.position.line) "|" (" " ++ context.sourceLine),
    marginLine coloured width "" "|"
      (" " ++ blanks indent ++ styled coloured [severityStyle severity] "^")]

def placeLine (place : Place) : String :=
  let position :=
    if 0 < place.line then ":" ++ toString place.line ++ ":" ++ toString place.column else ""
  "  " ++ styled coloured [.blue] "-->" ++ " " ++ place.fileName ++ position

def issueLines (width : Nat) (issue : Issue) : List String :=
  let title := styled coloured [.bold, severityStyle issue.severity] issue.severity.word ++
    ": " ++ issue.message ++ "  " ++ styled coloured [.dimmed, .cyan] issue.rule.name
  let shown := match issue.place with
    | .shown context => shownLines coloured width issue.severity context
    | _ => []
  let note (styles : List Style) (word text : String) : String :=
    marginLine coloured width "" "=" (" " ++ styled coloured styles word ++ " " ++ text)
  title :: placeLine coloured issue.place :: shown ++
    (issue.details?.map (note [.bold] "note:")).toList ++
    (issue.hint?.map (note [.bold, .cyan] "hint:")).toList ++ [""]

def failureMark : String := "\u2718"

def countLine (issues : List Issue) : String :=
  let errors := Issue.errorCount issues
  let warnings := issues.length - errors
  let noun (style : Style) (n : Nat) (one many : String) : String :=
    toString n ++ " " ++ styled coloured [style] (if n = 1 then one else many)
  styled coloured [.red] failureMark ++ " " ++ toString issues.length ++ " problems (" ++
    noun .red errors "error" "errors" ++ ", " ++ noun .yellow warnings "warning" "warnings" ++
    ")"

/-- The width of the margin: that of the largest line number among all issues, so that the bars
of a report stand in one column. -/
def marginWidth (issues : List Issue) : Nat :=
  (toString ((issues.map (·.place.line)).foldl max 0)).length

def unlines (lines : List String) : String :=
  String.join (lines.map (· ++ "\n"))

def issues (found : List Issue) : String :=
  let sorted := Issue.sort found
  if sorted.isEmpty then ""
  else unlines (sorted.flatMap (issueLines coloured (marginWidth sorted)) ++
    [countLine coloured sorted])

end Report

end MessageCatalog
