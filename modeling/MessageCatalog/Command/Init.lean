import MessageCatalog.Config.Discovery

/-!
# The command `init`

The command writes the configuration that a new project starts with, unless there is one
already.
-/

namespace MessageCatalog

namespace Command

/-- What the command has done. A configuration that is there already is never replaced, whatever
it holds. -/
inductive InitOutcome where
  | created
  | alreadyThere
  /-- The configuration could not be written. -/
  | unwritable (path : Path) (fault : FileTree.Fault)
  deriving DecidableEq, Repr

def init (tree : FileTree) (directory : Path) : FileTree × InitOutcome :=
  let path := directory.child Config.fileName
  if tree.existsAt path then (tree, .alreadyThere)
  else match tree.writeText path Config.initial.toDocument with
    | .ok tree => (tree, .created)
    | .error fault => (tree, .unwritable path fault)

end Command

end MessageCatalog
