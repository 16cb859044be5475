import MessageCatalog.Catalog.Format
import MessageCatalog.FileTree.Basic
import MessageCatalog.Issue.Basic

/-!
# Processing units

Processing takes a unit from its file to its catalog: the file is read, the messages are
extracted, and the catalog is written if a directory for catalogs is configured and
there is something to write. What goes wrong on the way is the one issue of the unit.
Nothing is written before the extraction has succeeded.

Paths can be absolute or not. The latter are followed from the directory of the process,
which need not be the working directory that units are named after.
-/

namespace MessageCatalog

namespace Unit

/-- Everything that processing depends on, next to the unit and the tree of files. -/
structure Job where
  parser : Parser
  options : Extraction.Options
  /-- The directory that units are named after, in reports and in the paths of catalogs. -/
  workingDirectory : Path
  /-- The directory of the process, in which paths that are not absolute start. -/
  processDirectory : Path
  /-- The directory of all catalogs, if catalogs are written. -/
  catalogs : Option Path

structure Processed where
  extracted : Extracted
  /-- Where the catalog is, if one was written. -/
  catalog : Option Path

def writeFailure (path : Path) (fault : FileTree.Fault) : String :=
  "failed to write " ++ path.toString ++ ": " ++ fault.message

def readFailure (path : Path) (fault : FileTree.Fault) : String :=
  "Failed to read file: " ++ path.toString ++ ": " ++ fault.message

/-- Put a text in its place in the tree, with the directories that it needs. Failures name
the path that was asked for. -/
def deliver (tree : FileTree) (path place : Path) (text : String) :
    FileTree × Except String Unit :=
  let directory := place.parent?.getD .empty
  match tree.makeDirectories (directory.text.length + 1) directory with
  | (tree, .error fault) => (tree, .error (writeFailure (path.parent?.getD .empty) fault))
  | (tree, .ok ()) =>
    match tree.writeText place text with
    | .error fault => (tree, .error (writeFailure path fault))
    | .ok tree => (tree, .ok ())

/-- Write a catalog to a path, in a process with the given directory. What was there before is
replaced, and directories that were made stay even if the text cannot be written. -/
def writeCatalog (tree : FileTree) (processDirectory path : Path)
    (messages : List Catalog.Entry) : FileTree × Except String Unit :=
  match tree.resolve processDirectory path with
  | .error fault =>
    -- An empty parent is not made, so that it is the text itself that cannot be written.
    let directory := path.parent?.getD .empty
    (tree, .error (writeFailure (if directory.text.isEmpty then path else directory) fault))
  | .ok place => deliver tree path place (Catalog.toDocument messages)

/-- Write the catalog of a unit, if catalogs are kept and there is something to write, and tell
where it is. What an earlier run has written for a unit without messages is left alone. -/
def emit (job : Job) (tree : FileTree) (path : Path) (messages : List Catalog.Entry) :
    FileTree × Except String (Option Path) :=
  match job.catalogs with
  | none => (tree, .ok none)
  | some catalogs =>
    if messages.isEmpty then (tree, .ok none)
    else
      let target := catalogPath path job.workingDirectory catalogs
      let (tree, result) := writeCatalog tree job.processDirectory target messages
      (tree, result.map fun () => some target)

/-- Conclude the processing of a unit with what was extracted from it. This is where something
is written first, so that a unit without a catalog leaves nothing behind. -/
def conclude (job : Job) (tree : FileTree) (path : Path) :
    Except Fault Extracted → FileTree × Except Issue Processed
  | .error fault => (tree, .error (.ofFault fault))
  | .ok extracted =>
    match emit job tree path extracted.messages with
    | (tree, .error text) =>
      (tree, .error (.inaccessible (displayName path job.workingDirectory) text))
    | (tree, .ok catalog) => (tree, .ok ⟨extracted, catalog⟩)

def processText (job : Job) (tree : FileTree) (path : Path) (text : String) :
    FileTree × Except Issue Processed :=
  conclude job tree path
    (job.parser.extract job.options (displayName path job.workingDirectory) text)

/-- Process the unit at a path. Whatever goes wrong is its one issue, under the name that the
unit has in reports. -/
def process (job : Job) (tree : FileTree) (path : Path) :
    FileTree × Except Issue Processed :=
  match tree.readTextFrom job.processDirectory path with
  | .error fault =>
    (tree, .error (.inaccessible (displayName path job.workingDirectory)
      (readFailure path fault)))
  | .ok text => processText job tree path text

/-- Process units one after the other, each in the tree that those before it have left. -/
def processAll (job : Job) :
    FileTree → List Path → FileTree × List (Except Issue Processed)
  | tree, [] => (tree, [])
  | tree, path :: paths =>
    let (tree, result) := process job tree path
    let (tree, results) := processAll job tree paths
    (tree, result :: results)

end Unit

end MessageCatalog
