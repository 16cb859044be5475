import MessageCatalog.Config.Format

/-!
# Finding the configuration

The configuration of a project is looked for in the working directory and then in the
directories above it. The search does not leave the repository that it starts in.
-/

namespace MessageCatalog

namespace Config

def fileName : String := ".intlrc.json"

def repositoryMark : String := ".git"

/-- The directories from one upwards, over a limited number of steps. A path has no more parents
than characters, so the length of its text is limit enough. -/
def directoriesUp : Nat → Path → List Path
  | 0, path => [path]
  | n + 1, path =>
    match path.parent? with
    | some parent => path :: directoriesUp n parent
    | none => [path]

/-- The first file with a configuration along some directories. A repository ends the search,
after the configuration next to its mark has been looked for. -/
def findIn (tree : FileTree) : List Path → Option Path
  | [] => none
  | directory :: directories =>
    if tree.existsAt (directory.child fileName) then some (directory.child fileName)
    else if tree.existsAt (directory.child repositoryMark) then none
    else findIn tree directories

def find? (tree : FileTree) (workingDirectory : Path) : Option Path :=
  findIn tree (directoriesUp workingDirectory.text.length workingDirectory)

/-- Why no configuration can be used: its file cannot be read, or is no document of a
configuration, or holds one that is not valid. -/
inductive LoadFault where
  | unreadable (path : Path) (fault : FileTree.Fault)
  | malformed (path : Path) (text : String)
  | invalid (fault : Fault)
  deriving DecidableEq, Repr

def LoadFault.message : LoadFault → String
  | .unreadable path fault =>
    "Failed to read config file: " ++ Text.quotedPath path.toString ++ ": " ++ fault.message
  | .malformed path text =>
    "Failed to parse config file: " ++ Text.quotedPath path.toString ++ ": " ++ text
  | .invalid fault => fault.message

def loadFile (tree : FileTree) (path : Path) : Except LoadFault Config := do
  let document ← (tree.readText path).mapError (.unreadable path)
  let config ← (ofDocument? document).mapError (.malformed path)
  config.validate.mapError .invalid
  return config

/-- Load the configuration for a working directory. Where none is found the standard one is
used; one that is found and cannot be used is a fault. -/
def load (tree : FileTree) (workingDirectory : Path) : Except LoadFault Config :=
  match find? tree workingDirectory with
  | some path => loadFile tree path
  | none => .ok standard

end Config

end MessageCatalog
