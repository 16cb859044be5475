import MessageCatalog.Command.Run

/-!
# The program

The program takes a picture of the files that a run can look at, runs, and carries out
what the run has changed. The picture holds the marks of projects in the directories
above, and all that lies below the working directory and below the places that the
arguments or the configuration name. Only the texts of units and configurations are
read; of other files it matters that they are there.
-/

namespace MessageCatalog

namespace Program

/-- Whether the text of a file can matter to a run. -/
def isRead (path : Path) : Bool :=
  Unit.isSource path || path.fileName? = some Config.fileName.toList

/-- The names from the root to a place. -/
def namesOf (path : Path) : List String :=
  path.components.filterMap fun
    | .name text => some (String.ofList text)
    | _ => none

/-- Take a picture of a file. -/
def fileAt (path : Path) : IO FileTree := do
  if isRead path then
    return .file (String.fromUTF8? (← IO.FS.readBinFile path.toString))
  else return .file none

/-- Take a picture of what lies at a path. Links are not followed. -/
partial def treeAt (path : Path) : IO (Option FileTree) := do
  try
    let place ← IO.FS.realPath path.toString
    match (← place.metadata).type with
    | .file => return some (← fileAt path)
    | .dir =>
      let mut entries := []
      for entry in ← place.readDir do
        if (← entry.path.symlinkMetadata).type != .symlink then
          if let some tree ← treeAt (path.child entry.fileName) then
            entries := (entry.fileName, tree) :: entries
      return some (.directory entries)
    | _ => return none
  catch _ => return none

/-- Add what lies at a path to a picture, at the place that the path really has. -/
def addPlace (tree : FileTree) (path : Path) : IO FileTree := do
  try
    let place := Path.ofString (← IO.FS.realPath path.toString).toString
    match ← treeAt place with
    | some part => return tree.put (namesOf place) part
    | none => return tree
  catch _ => return tree

/-- The picture of the marks of projects in a directory and those above. -/
def marks (directory : Path) : IO FileTree := do
  let directories := Config.directoriesUp directory.text.length directory
  let mut tree := FileTree.empty.put (namesOf directory) .empty
  for above in directories do
    let config := above.child Config.fileName
    if let some part ← treeAt config then tree := tree.put (namesOf config) part
    let mark := above.child Config.repositoryMark
    if ← (try pure (some (← IO.FS.realPath mark.toString)) catch _ => pure none).map Option.isSome
    then tree := tree.put (namesOf mark) .empty
  return tree

/-- The places outside of the working directory that a request can lead to. -/
def places (tree : FileTree) (directory : Path) : Command.Request → List Path
  | .extract arguments =>
    match Command.configure tree directory arguments with
    | .error _ => []
    | .ok config =>
      let root := directory.child config.sourceRoot
      root :: arguments.paths.map directory.child ++ config.includes.map root.child ++
        (config.messagesDir.map directory.child).toList
  | _ => []

/-- The picture of all that a request can lead to. -/
def picture (directory : Path) (request : Command.Request) : IO FileTree := do
  let marks ← marks directory
  let places := places marks directory request
  (directory :: places).foldlM addPlace marks

/-- Carry out what has changed. -/
def carryOut (before after : FileTree) : IO Unit := do
  for (names, text) in before.changes after do
    let path := Path.ofString ("/" ++ "/".intercalate names)
    if let some directory := path.parent? then IO.FS.createDirAll directory.toString
    IO.FS.writeFile path.toString text

/-- Whether the output can show colours, unless it is asked for something else. -/
def wantsColour : IO Bool := do
  if (← IO.getEnv "NO_COLOR").isSome then return false
  match ← IO.getEnv "CLICOLOR_FORCE" with
  | some choice => return choice != "0"
  | none => (← IO.getStdout).isTty

/-- Answer arguments that ask for no run. -/
def showUsage : Command.Usage → IO UInt32
  | .help => do
    IO.print Command.overview
    return 0
  | .version => do
    IO.println "intl-extract 0.1.0"
    return 0
  | _ => do
    IO.eprint Command.overview
    return 2

/-- Run the program on a request. -/
def perform (request : Command.Request) : IO UInt32 := do
  let directory := Path.ofString (← IO.currentDir).toString
  let before ← picture directory request
  let outcome := Command.run (← wantsColour) before directory request
  carryOut before outcome.tree
  IO.print outcome.output
  IO.eprint outcome.errorOutput
  if let some error := outcome.error then IO.eprintln ("Error: " ++ error)
  return outcome.status.code.toUInt32

end Program

end MessageCatalog

/-- Run the program on its arguments. -/
def main (arguments : List String) : IO UInt32 :=
  match MessageCatalog.Command.read arguments with
  | .ok request => MessageCatalog.Program.perform request
  | .error usage => MessageCatalog.Program.showUsage usage
