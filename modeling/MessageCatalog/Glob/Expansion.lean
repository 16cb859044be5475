import MessageCatalog.FileTree.Basic
import MessageCatalog.Glob.Pattern

/-!
# Expanding patterns

A pattern with separators is expanded component by component against a tree of files.
A component without wildcards is looked up; any other is matched against the names in a
directory, in the order of names. Two stars descend into all directories. A component
that starts with a point may also match the two special entries of a directory.
-/

namespace MessageCatalog

namespace Glob

abbrev Component := List Token

def literal? : Component → Option (List Char)
  | [] => some []
  | .char c :: tokens => (literal? tokens).map (c :: ·)
  | _ :: _ => none

def isRecursive (component : Component) : Bool :=
  component.contains .anyDirectories

/-- The entries of a directory at a path, in the order of names, with their paths. What is no
directory has none. -/
def childrenOf (root : FileTree) (path : Path) : List (String × Path) :=
  match root.get path with
  | .ok node =>
    (node.entries.map (·.1)).mergeSort (fun a b => decide (a ≤ b)) |>.map fun name =>
      (name, path.child name)
  | .error _ => []

/-- The special entries that a component matches, the last first. Only a component that starts
with a point is asked, so a star at the front never leads to the parent. -/
def specialNames (component : Component) : List (List Char) :=
  match component with
  | .char '.' :: _ => [['.', '.'], ['.']].filter (isMatch component)
  | _ => []

def canEnter (root : FileTree) (path next : Path) (text : List Char) : Bool :=
  if text = ['.'] || text = ['.', '.'] then root.isDirectoryAt path
  else root.existsAt next

mutual

/-- What the components of a pattern match below a path, over a limited number of steps. A
component without wildcards is looked up; for any other the special entries come first, then the
entries by name. -/
def expandBelow (root : FileTree) : Nat → List Component → Path → List Path
  | 0, _, _ => []
  | _ + 1, [], _ => []
  | n + 1, component :: rest, path =>
    let enter (next : Path) : List Path :=
      if rest.isEmpty then [next] else expandBelow root n rest next
    match literal? component with
    | some text =>
      let next := path ++ ⟨text⟩
      if canEnter root path next text then enter next else []
    | none =>
      if root.isDirectoryAt path then
        (specialNames component).flatMap (fun name => enter (path ++ ⟨name⟩)) ++
          (childrenOf root path).flatMap fun (name, child) =>
            expandAt root n component rest name child
      else []

/-- What the components of a pattern match at an entry of a directory or below it. Behind two
stars the rest is tried at the entry itself, and then with the stars again below it if it is a
directory. -/
def expandAt (root : FileTree) :
    Nat → Component → List Component → String → Path → List Path
  | 0, _, _, _, _ => []
  | n + 1, component, rest, name, path =>
    if isRecursive component then
      let rest := rest.dropWhile isRecursive
      let below := if root.isDirectoryAt path then expandBelow root n (component :: rest) path
        else []
      match rest with
      | [] => if root.isDirectoryAt path then path :: below else []
      | next :: rest => matchEntry root n next rest name path ++ below
    else matchEntry root n component rest name path

def matchEntry (root : FileTree) :
    Nat → Component → List Component → String → Path → List Path
  | 0, _, _, _, _ => []
  | n + 1, component, rest, name, path =>
    if isMatch component name.toList then
      if rest.isEmpty then [path] else expandBelow root n rest path
    else []

end

/-- The components of a pattern behind the root. A separator at the end adds none. -/
def componentTexts (pattern : List Char) : List (List Char) :=
  let pieces := Path.pieces (pattern.drop 1)
  if pieces.getLast? = some [] then pieces.dropLast else pieces

/-- The steps that suffice to expand a pattern of some components: each component is used
up within a fixed number of steps for each level of the tree. -/
def expansionSteps (root : FileTree) (count : Nat) : Nat :=
  (count + 1) * 3 * (root.height + 2)

/-- The paths that an absolute pattern matches in a tree. The pattern is read as a whole first,
so that a fault has its place in the whole text. -/
def expand (root : FileTree) (pattern : Path) : Except Fault (List Path) := do
  let _ ← parse pattern.toString
  let components ← (componentTexts pattern.text).mapM fun text => parse (String.ofList text)
  return expandBelow root (expansionSteps root components.length) components ⟨['/']⟩

end Glob

end MessageCatalog
