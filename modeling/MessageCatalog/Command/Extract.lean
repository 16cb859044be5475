import MessageCatalog.Command.Arguments
import MessageCatalog.Config.Discovery
import MessageCatalog.Json.Printer
import MessageCatalog.Unit.Process

/-!
# The command `extract`

The command finds the units of a project, processes each of them, and sums up what it
extracted and what went wrong. Options of the command take precedence over the
configuration. A unit that fails does not stop the run; a configuration that cannot be
used does.
-/

namespace MessageCatalog

namespace Command

/-- The configuration with the options of the command applied to it. A directory for catalogs is
meant relative to the working directory, and flags are only ever raised. -/
def applyOptions (config : Config) (arguments : ExtractArguments) (workingDirectory : Path) :
    Config :=
  { config with
    sourceRoot := arguments.sourceRoot.getD config.sourceRoot
    messagesDir := match arguments.messagesDir with
      | some directory => some (workingDirectory.child directory).toString
      | none => config.messagesDir
    moduleSourceName := arguments.moduleSourceName.getD config.moduleSourceName
    enforceDescriptions := config.enforceDescriptions || arguments.enforceDescriptions
    extractSourceLocation := config.extractSourceLocation || arguments.extractSourceLocation }

/-- The configuration of a run. It is validated with the options in it, so that an option can
replace a value that would not be accepted. -/
def configure (tree : FileTree) (workingDirectory : Path) (arguments : ExtractArguments) :
    Except Config.LoadFault Config := do
  let config := applyOptions (← Config.load tree workingDirectory) arguments workingDirectory
  config.validate.mapError .invalid
  return config

/-- The units of a run: those at the given paths, or all below the source root. In both cases
they are in the order of paths and without repetition. -/
def findUnits (tree : FileTree) (workingDirectory : Path) (config : Config)
    (paths : List String) : Scan.Found :=
  if paths.isEmpty then Scan.scan tree (workingDirectory.child config.sourceRoot) config.scan
  else Scan.collect tree config.scan (paths.map workingDirectory.child)

def sharedAfter (workingDirectory catalogs : Path) : List Path → List Path → List Path
  | _, [] => []
  | owned, unit :: units =>
    let catalog := Unit.catalogPath unit workingDirectory catalogs
    if owned.any catalog.names then
      catalog :: sharedAfter workingDirectory catalogs owned units
    else sharedAfter workingDirectory catalogs (catalog :: owned) units

/-- The catalogs that several units claim, once for each claim after the first. The last
unit that writes such a catalog overwrites what the others wrote. -/
def sharedCatalogs (workingDirectory catalogs : Path) (units : List Path) : List Path :=
  sharedAfter workingDirectory catalogs [] units

/-- What a run has extracted and what it has to report. A unit that failed is counted among the
files and has its issue, and nothing else is left of it. -/
structure Summary where
  /-- The units that succeeded, in the order of paths. -/
  units : List Unit.Processed
  issues : List Issue
  /-- The number of units, failed ones included. -/
  files : Nat
  skipped : Nat

def resultIssues : Except Issue Unit.Processed → List Issue
  | .ok unit => unit.extracted.warnings.map .unsupported
  | .error issue => [issue]

def summarize (results : List (Except Issue Unit.Processed)) (skipped : Nat) : Summary where
  units := results.filterMap Except.toOption
  issues := Issue.sort (results.flatMap resultIssues)
  files := results.length
  skipped := skipped

namespace Summary

def errorCount (summary : Summary) : Nat :=
  Issue.errorCount summary.issues

def warningCount (summary : Summary) : Nat :=
  summary.issues.length - summary.errorCount

def messageCount (summary : Summary) : Nat :=
  summary.units.foldr (fun unit n => unit.extracted.messages.length + n) 0

def catalogCount (summary : Summary) : Nat :=
  summary.units.countP (·.catalog.isSome)

def unitKey : String := "react-intl"

def unitValue (unit : Unit.Processed) : Json.Value :=
  .object [(unitKey, .object [("messages", Catalog.toValue unit.extracted.messages)])]

/-- What has been extracted, by the name of the unit. A unit with the name of an earlier one
takes over its member and its place. -/
def toValue (summary : Summary) : Json.Value :=
  .object (summary.units.foldl
    (fun members unit => Json.setMember members unit.extracted.name (unitValue unit)) [])

end Summary

/-- The job of a run. The process runs in the working directory, so that paths of both kinds are
followed from there. -/
def jobOf (parser : Unit.Parser) (config : Config) (workingDirectory : Path) : Unit.Job where
  parser := parser
  options := config.extraction
  workingDirectory := workingDirectory
  processDirectory := workingDirectory
  catalogs := config.catalogs? workingDirectory

/-- Run the command. A unit that fails does not stop the run; without a usable configuration
nothing is read or written. -/
def extract (parser : Unit.Parser) (tree : FileTree) (workingDirectory : Path)
    (arguments : ExtractArguments) : FileTree × Except Config.LoadFault Summary :=
  match configure tree workingDirectory arguments with
  | .error fault => (tree, .error fault)
  | .ok config =>
    let found := findUnits tree workingDirectory config arguments.paths
    let (tree, results) :=
      Unit.processAll (jobOf parser config workingDirectory) tree found.files
    (tree, .ok (summarize results found.skipped))

end Command

end MessageCatalog
