import MessageCatalog.Glob.Expansion
import MessageCatalog.Unit.Paths

/-!
# Scanning

A scan finds the units of a project: the files with the extension of a unit below one or
more starting points, in the order of paths and without repetition. Starting points and
exclusions are configured as paths or patterns. An excluded directory is still walked
through, so that each path is judged by itself.

Patterns are matched against whole paths, so they see the directories above the project
as well.
-/

namespace MessageCatalog

namespace Scan

/-- Which parts of a tree are scanned. What is included lies below the root; what is ignored
lies there only if it is a path, as patterns are matched against whole paths. -/
structure Options where
  /-- Starting points below the root; without any, the root itself is one. -/
  includes : List String
  ignores : List String
  ignoreTests : Bool
  deriving DecidableEq, Repr

/-- What a scan finds: the files, and how many paths it had to skip because they lead nowhere. -/
structure Found where
  files : List Path
  skipped : Nat
  deriving DecidableEq, Repr

def testPatterns : List String :=
  ["**/*.test.tsx", "**/*.test.ts", "**/*.test.jsx", "**/*.test.js", "**/*.spec.tsx",
    "**/*.spec.ts", "**/*.spec.jsx", "**/*.spec.js", "**/__tests__/**"]

/-! ### Exclusions -/

/-- What is left out of a scan: what lies below certain paths, and what matches a pattern. Only
the path of a file decides, and not what is found there. -/
structure Exclusions where
  paths : List Path
  patterns : List (List Glob.Token)

def readable (texts : List String) : List (List Glob.Token) :=
  texts.filterMap fun text => (Glob.parse text).toOption

/-- The exclusions of a scan. A text without wildcards is a path below the root. A pattern that
cannot be read excludes nothing. -/
def exclusions (root : Path) (options : Options) : Exclusions where
  paths := (options.ignores.filter (!Glob.isPattern ·)).map root.child
  patterns := readable (options.ignores.filter Glob.isPattern) ++
    (if options.ignoreTests then readable testPatterns else [])

def Exclusions.cover (exclusions : Exclusions) (path : Path) : Bool :=
  exclusions.paths.any path.startsWith ||
    exclusions.patterns.any fun pattern => Glob.isMatch pattern path.text

/-! ### Starting points -/

/-- The starting points that one configured text stands for: the directories that a pattern
matches, or what a path leads to, be it a directory or a file. -/
def startsOf (tree : FileTree) (root : Path) (text : String) : List Path :=
  let path := root.child text
  if Glob.isPattern text then
    match Glob.expand tree path with
    | .ok paths => paths.filter tree.isDirectoryAt
    | .error _ => []
  else if tree.existsAt path then [path] else []

def starts (tree : FileTree) (root : Path) (includes : List String) : List Path :=
  if includes.isEmpty then [root] else includes.flatMap (startsOf tree root)

/-! ### Walking -/

mutual

/-- The paths of a tree that is found at a path, with what they lead to. Each of them goes on
from there by names only. -/
def pathsFrom (path : Path) : FileTree → List (Path × FileTree)
  | .file text => [(path, .file text)]
  | .directory entries => (path, .directory entries) :: pathsFromAll path entries

def pathsFromAll (path : Path) : List (String × FileTree) → List (Path × FileTree)
  | [] => []
  | (name, node) :: entries => pathsFrom (path.child name) node ++ pathsFromAll path entries

end

/-- Whether a path is a unit that the scan is for. A directory is walked through even if it is
excluded, so that each file is judged by itself. -/
def selects (exclusions : Exclusions) (path : Path) (node : FileTree) : Bool :=
  !exclusions.cover path && !node.isDirectory && Unit.isSource path

/-- What is found from one starting point. One that leads nowhere counts as a skipped path. -/
def scanFrom (tree : FileTree) (exclusions : Exclusions) (start : Path) : Found :=
  match tree.get start with
  | .ok node =>
    ⟨((pathsFrom start node).filter fun (path, node) => selects exclusions path node).map
      (·.1), 0⟩
  | .error _ => ⟨[], 1⟩

/-- Drop all but the first of paths in a row that name the same place. Their texts may differ in
pieces that say nothing. -/
def dropRepeated : List Path → List Path
  | [] => []
  | path :: paths =>
    match dropRepeated paths with
    | [] => [path]
    | next :: rest => if path.names next then path :: rest else path :: next :: rest

def arrange (paths : List Path) : List Path :=
  dropRepeated (paths.mergeSort Path.precedes)

def join (found : List Found) : Found where
  files := arrange (found.flatMap (·.files))
  skipped := found.foldr (fun part n => part.skipped + n) 0

def scan (tree : FileTree) (root : Path) (options : Options) : Found :=
  let exclusions := exclusions root options
  join ((starts tree root options.includes).map (scanFrom tree exclusions))

/-- What an explicitly given path adds: all that a scan from it finds if it is a
directory, and itself if it has the extension of a unit. -/
def collectOne (tree : FileTree) (options : Options) (path : Path) : Found :=
  if tree.isDirectoryAt path then scan tree path options
  else if Unit.isSource path then ⟨[path], 0⟩
  else ⟨[], 1⟩

def collect (tree : FileTree) (options : Options) (paths : List Path) : Found :=
  join (paths.map (collectOne tree options))

end Scan

end MessageCatalog
