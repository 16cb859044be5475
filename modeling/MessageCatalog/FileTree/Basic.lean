import MessageCatalog.Path.Basic

/-!
# Trees of files

What a run reads and writes is a tree: a file holds a text, or bytes that are no text;
a directory holds entries with names. Paths are followed from the root of the tree, and a
path that does not start there is followed from the directory of the process. A path leads
nowhere without a directory for each of its pieces, silent pieces included.

Operations fail for the reasons that a system of files gives, and their wording is part
of what a run reports.
-/

namespace MessageCatalog

/-- A file or a directory. -/
inductive FileTree where
  /-- A file with a text, or with bytes that are no text. -/
  | file (text : Option String)
  | directory (entries : List (String × FileTree))

namespace FileTree

inductive Fault where
  | notFound
  | alreadyExists
  | notDirectory
  | isDirectory
  | notText
  deriving DecidableEq, Repr

def Fault.message : Fault → String
  | .notFound => "No such file or directory (os error 2)"
  | .alreadyExists => "File exists (os error 17)"
  | .notDirectory => "Not a directory (os error 20)"
  | .isDirectory => "Is a directory (os error 21)"
  | .notText => "stream did not contain valid UTF-8"

def empty : FileTree := .directory []

def isDirectory : FileTree → Bool
  | directory _ => true
  | file _ => false

def entries : FileTree → List (String × FileTree)
  | directory entries => entries
  | file _ => []

/-- Put an entry into a list, in the place of one with the same name. -/
def setEntry (name : String) (node : FileTree) :
    List (String × FileTree) → List (String × FileTree)
  | [] => [(name, node)]
  | (other, old) :: entries =>
    if other = name then (name, node) :: entries
    else (other, old) :: setEntry name node entries

/-- Put a tree where the names lead to. Missing directories are made on the way; nothing
is put below a file. -/
def put : FileTree → List String → FileTree → FileTree
  | _, [], node => node
  | file text, _ :: _, _ => file text
  | directory entries, name :: names, node =>
    directory (setEntry name (put ((entries.lookup name).getD empty) names node) entries)

def at? : FileTree → List String → Option FileTree
  | tree, [] => some tree
  | tree, name :: names => (tree.entries.lookup name).bind (at? · names)

mutual

def height : FileTree → Nat
  | file _ => 0
  | directory entries => heightOf entries + 1

def heightOf : List (String × FileTree) → Nat
  | [] => 0
  | (_, node) :: entries => max (height node) (heightOf entries)

end

mutual

/-- The names that lead to files, with the texts of the files. -/
def files : FileTree → List (List String × Option String)
  | file text => [([], text)]
  | directory entries => filesOf entries

def filesOf : List (String × FileTree) → List (List String × Option String)
  | [] => []
  | (name, node) :: entries =>
    (files node).map (fun (names, text) => (name :: names, text)) ++ filesOf entries

end

/-- The files of a tree whose text is new or differs from another tree, with their names and
texts: what a run has written, seen from outside. -/
def changes (before after : FileTree) : List (List String × String) :=
  after.files.filterMap fun (names, text) =>
    match text, before.at? names with
    | some text, some (.file (some old)) => if old = text then none else some (names, text)
    | some text, _ => some (names, text)
    | none, _ => none

/-! ### Following paths -/

/-- The way from the root of a tree to a place in it, the last step first. With it a piece `..`
can go back to the directory that the way came through. -/
abbrev Way := List (String × FileTree)

def Way.node (root : FileTree) : Way → FileTree
  | [] => root
  | (_, node) :: _ => node

/-- Go on by one piece of a path. Whatever the piece is, it needs a directory to start from, so
nothing leads through a file and back. -/
def Way.step (root : FileTree) (way : Way) (piece : List Char) : Except Fault Way :=
  if !(way.node root).isDirectory then .error .notDirectory
  else match Path.component? piece with
    | none => .ok way
    | some .parent => .ok way.tail
    | _ =>
      let name := String.ofList piece
      match (way.node root).entries.lookup name with
      | some node => .ok ((name, node) :: way)
      | none => .error .notFound

/-- The pieces of a path behind the root. A path that is not absolute has no place in the
tree by itself; which one it stands for in a process is told by `resolve`. -/
def piecesOf (path : Path) : Except Fault (List (List Char)) :=
  match path.parts with
  | ⟨some .root, pieces⟩ => .ok pieces
  | _ => .error .notFound

def followPieces (root : FileTree) (pieces : List (List Char)) : Except Fault Way :=
  pieces.foldlM (Way.step root) []

def follow (root : FileTree) (path : Path) : Except Fault Way := do
  followPieces root (← piecesOf path)

def get (root : FileTree) (path : Path) : Except Fault FileTree := do
  return (← follow root path).node root

def existsAt (root : FileTree) (path : Path) : Bool :=
  (root.get path).isOk

def isDirectoryAt (root : FileTree) (path : Path) : Bool :=
  match root.get path with
  | .ok node => node.isDirectory
  | .error _ => false

def readText (root : FileTree) (path : Path) : Except Fault String := do
  match ← root.get path with
  | .file (some text) => return text
  | .file none => throw .notText
  | .directory _ => throw .isDirectory

/-- The path from the root that a path stands for in a process: a path that is not absolute
starts at the directory of the process, which has to be there. -/
def resolve (root : FileTree) (directory path : Path) : Except Fault Path :=
  if path.isAbsolute then .ok path
  else if path.text.isEmpty || !root.isDirectoryAt directory then .error .notFound
  else .ok (directory ++ path)

def readTextFrom (root : FileTree) (directory path : Path) : Except Fault String := do
  root.readText (← root.resolve directory path)

/-! ### Changing trees -/

def Way.names (way : Way) : List String :=
  way.reverse.map (·.1)

/-- Follow all pieces but the last, and find the name that the last piece gives to an
entry there. A last piece that is no name, after which there is nothing to create, is a
fault of the caller's choice. -/
def followParent (root : FileTree) (special : Fault) (pieces : List (List Char)) :
    Except Fault (Way × String) :=
  match pieces.getLast? with
  | none => .error special
  | some last => do
    let way ← followPieces root pieces.dropLast
    if !(way.node root).isDirectory then throw .notDirectory
    match Path.component? last with
    | some (.name _) => return (way, String.ofList last)
    | _ => throw special

/-- Drop the empty pieces at the end, which separators at the end leave. -/
def dropEmptyEnd (pieces : List (List Char)) : List (List Char) :=
  (pieces.reverse.dropWhile List.isEmpty).reverse

/-- Make a directory in an existing one. What is there already, be it a file or a directory, is
a fault, and so is a last piece that is no name. -/
def makeDirectory (root : FileTree) (path : Path) : Except Fault FileTree := do
  let (way, name) ← followParent root .alreadyExists (dropEmptyEnd (← piecesOf path))
  match (way.node root).entries.lookup name with
  | some _ => throw .alreadyExists
  | none => return root.put (way.names ++ [name]) empty

/-- Make a directory and what is missing on the way to it, over a limited number of
steps. What is there already is left alone. The tree is changed as far as it goes. -/
def makeDirectories : Nat → FileTree → Path → FileTree × Except Fault Unit
  | 0, root, _ => (root, .error .notFound)
  | n + 1, root, path =>
    let settle (root : FileTree) (fault : Fault) : FileTree × Except Fault Unit :=
      (root, if root.isDirectoryAt path then .ok () else .error fault)
    match root.makeDirectory path with
    | .ok root => (root, .ok ())
    | .error .notFound =>
      match path.parent? with
      | none => (root, .error .notFound)
      | some parent =>
        match makeDirectories n root parent with
        | (root, .error fault) => (root, .error fault)
        | (root, .ok ()) =>
          match root.makeDirectory path with
          | .ok root => (root, .ok ())
          | .error fault => settle root fault
    | .error fault => settle root fault

/-- Write a text to a file, in the place of what it held. The file is made if it is missing, the
directory that it is in is not. -/
def writeText (root : FileTree) (path : Path) (text : String) : Except Fault FileTree := do
  let (way, name) ← followParent root .isDirectory (← piecesOf path)
  match (way.node root).entries.lookup name with
  | some (.directory _) => throw .isDirectory
  | _ => return root.put (way.names ++ [name]) (.file (some text))

end FileTree

end MessageCatalog
