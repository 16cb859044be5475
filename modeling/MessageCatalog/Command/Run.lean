import MessageCatalog.Command.Extract
import MessageCatalog.Command.Init
import MessageCatalog.Report.Issues

/-!
# Runs of the program

A run takes the arguments, the working directory and the tree of files, and gives what
is printed, what becomes of the tree, and the exit status: success, failure of some
units, or an error that prevented the run.
-/

namespace MessageCatalog

namespace Command

/-- How a run ends. A unit that fails makes the run fail, and so does a configuration that is
there already; an error is a run that could not be carried out. -/
inductive Status where
  | success
  /-- Some unit could not be extracted. -/
  | failure
  /-- The run itself failed. -/
  | error
  deriving DecidableEq, Repr

def Status.code : Status → Nat
  | .success => 0
  | .failure => 1
  | .error => 2

/-- What a run comes to: how it ends, what it prints to the two streams, and the tree of files
that it leaves behind. -/
structure Outcome where
  status : Status
  /-- Why the run itself failed. -/
  error : Option String
  output : String
  errorOutput : String
  tree : FileTree

variable (coloured : Bool)

def successMark : String := "\u2713"

def successLine (text : String) : String :=
  Report.styled coloured [.green] successMark ++ " " ++ Report.styled coloured [.green] text ++
    "\n"

/-- The line that sums up a run without errors. Catalogs are mentioned only if some were
written. -/
def summaryLine (summary : Summary) : String :=
  let catalogs := summary.catalogCount
  successLine coloured ("Extracted " ++
    Report.counted summary.messageCount "message" "messages" ++ " from " ++
    Report.counted summary.files "file" "files" ++
    (if 0 < catalogs then ", wrote " ++ Report.counted catalogs "catalog" "catalogs" else ""))

def skippedLine (skipped : Nat) (verbose : Bool) : String :=
  if skipped = 0 then ""
  else Report.styled coloured [.bold, .yellow] "warning:" ++ " " ++ toString skipped ++
    " path(s) skipped" ++ (if verbose then "" else " (use -v for details)") ++ "\n"

/-- What is printed about an extraction. With a document in the output, the report goes to the
other stream and has no closing line. -/
def extractOutcome (arguments : ExtractArguments) (tree : FileTree) (summary : Summary) :
    Outcome :=
  let skipped := skippedLine coloured summary.skipped arguments.verbose
  let report := Report.issues coloured summary.issues
  let status := if 0 < summary.errorCount then .failure else .success
  if arguments.json then
    ⟨status, none, summary.toValue.toDocument ++ "\n", skipped ++ report, tree⟩
  else
    let closing := if summary.errorCount = 0 then summaryLine coloured summary else ""
    ⟨status, none, report ++ closing, skipped, tree⟩

def initOutcome (tree : FileTree) : InitOutcome → Outcome
  | .created => ⟨.success, none, successLine coloured ("Created " ++ Config.fileName), "", tree⟩
  | .alreadyThere =>
    ⟨.failure, none, "", Report.styled coloured [.bold, .red] "error:" ++ " " ++
      Config.fileName ++ " already exists\n", tree⟩
  | .unwritable path fault =>
    ⟨.error, some ("Failed to write " ++ path.toString ++ ": " ++ fault.message), "", "", tree⟩

def overview : String :=
  "A fast CLI tool and library for extracting react-intl message descriptors from JSX/TSX " ++
  "sources\n\nUsage: intl-extract [COMMAND]\n\nCommands:\n" ++
  "  extract  Extract react-intl message descriptors from JSX/TSX sources\n" ++
  "  init     Initialize a new .intlrc.json configuration file\n" ++
  "  help     Print this message or the help of the given subcommand(s)\n\n" ++
  "Options:\n  -h, --help     Print help\n  -V, --version  Print version\n"

/-- Run the program on a request, with a parser for the texts of units. Everything else that a
run depends on is in the tree and in the request. -/
def runWith (parser : Unit.Parser) (tree : FileTree) (workingDirectory : Path) :
    Request → Outcome
  | .overview => ⟨.success, none, overview, "", tree⟩
  | .init =>
    let (tree, outcome) := init tree workingDirectory
    initOutcome coloured tree outcome
  | .extract arguments =>
    match extract parser tree workingDirectory arguments with
    | (tree, .error fault) => ⟨.error, some fault.message, "", "", tree⟩
    | (tree, .ok summary) => extractOutcome coloured arguments tree summary

/-- Run the program on a request, with the grammar of this library. -/
def run (tree : FileTree) (workingDirectory : Path) (request : Request) : Outcome :=
  runWith coloured Syntax.parse tree workingDirectory request

end Command

end MessageCatalog
