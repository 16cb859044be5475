import Mathlib.Data.List.Sort
import MessageCatalog.Proofs.Glob.Matching
import MessageCatalog.Proofs.Scan.Growth

/-!
# What a scan selects

A scan lists the files that it is for, neither fewer nor more: the files with the extension of
a unit at or below a starting point that nothing leaves out. What is said here about a path
does not depend on how the tree is walked through, on the order of the starting points, or on
how often a file is reached.
-/

namespace MessageCatalog

namespace Path

instance : Std.Irrefl Before where
  irrefl path before := by simpa [names] using before.2

instance : Std.Antisymm Before where
  antisymm a b first second := by
    have same := names_of_precedes first.1 second.1
    rw [first.2] at same
    exact Bool.noConfusion same

end Path

namespace Scan

open MessageCatalog.Path (Before)

/-- Whether paths are listed in their order, each place once, and are those that are wanted. A
place is listed under one of the paths that name it. -/
structure Lists (files : List Path) (wanted : Path → Prop) : Prop where
  ascending : files.Pairwise Before
  sound : ∀ path ∈ files, wanted path
  complete : ∀ path, wanted path → ∃ found ∈ files, found.names path = true

/-- The starting points of a scan: the root if none are configured, and otherwise what is there
at a configured path, and the directories that a configured pattern matches. -/
inductive IsStart (tree : FileTree) (root : Path) (includes : List String) : Path → Prop where
  | root (none : includes = []) : IsStart tree root includes root
  | literal {text : String} (among : text ∈ includes) (plain : Glob.isPattern text = false)
      (there : tree.existsAt (root.child text) = true) :
      IsStart tree root includes (root.child text)
  | wildcard {text : String} {path : Path} (among : text ∈ includes)
      (pattern : Glob.isPattern text = true) (matched : Glob.Matches tree (root.child text) path)
      (inside : tree.isDirectoryAt path = true) : IsStart tree root includes path

/-- The paths at and below a starting point, as they are reached from it. -/
inductive Reaches (tree : FileTree) (start : Path) : Path → Prop where
  | start (there : tree.existsAt start = true) : Reaches tree start start
  | entry {path : Path} {entries : List (String × FileTree)} {name : String} {node : FileTree}
      (above : Reaches tree start path) (inside : tree.get path = .ok (.directory entries))
      (among : (name, node) ∈ entries) : Reaches tree start (path.child name)

/-- Whether a path is not at or below a text without wildcards that is left out. -/
def Outside (root : Path) (ignores : List String) (path : Path) : Prop :=
  ∀ text ∈ ignores, Glob.isPattern text = false → path.startsWith (root.child text) = false

/-- Whether no pattern of a scan that can be read matches a path. -/
structure Unmatched (options : Options) (path : Path) : Prop where
  ignores : ∀ text ∈ options.ignores, Glob.isPattern text = true →
    ∀ tokens, Glob.parse text = .ok tokens → Glob.isMatch tokens path.text = false
  tests : options.ignoreTests = true → ∀ text ∈ testPatterns,
    ∀ tokens, Glob.parse text = .ok tokens → Glob.isMatch tokens path.text = false

/-- Whether a path is one of those that a scan is for, as far as no pattern matches it. -/
structure Candidate (tree : FileTree) (root : Path) (options : Options) (path : Path) : Prop where
  reached : ∃ start, IsStart tree root options.includes start ∧ Reaches tree start path
  file : ∃ text, tree.get path = .ok (.file text)
  source : Unit.isSource path = true
  outside : Outside root options.ignores path

/-- Whether a path is one of those that a scan is for. -/
structure Selected (tree : FileTree) (root : Path) (options : Options) (path : Path) : Prop
    extends Candidate tree root options path where
  unmatched : Unmatched options path

/-- The files that explicitly given paths stand for: what a scan of a directory finds, and all
other paths with the extension of a unit. -/
inductive Collected (tree : FileTree) (options : Options) (paths : List Path) : Path → Prop where
  | scanned {given path : Path} (among : given ∈ paths) (inside : tree.isDirectoryAt given = true)
      (found : path ∈ (scan tree given options).files) : Collected tree options paths path
  | named {path : Path} (among : path ∈ paths) (other : tree.isDirectoryAt path = false)
      (source : Unit.isSource path = true) : Collected tree options paths path

section Selection

variable {tree node found child : FileTree} {entries : List (String × FileTree)}
  {root path start : Path} {name : String} {options : Options} {paths : List Path}
  {P : Path → FileTree → Prop} {wanted : Path → Prop} {texts : List String}

/-! ### Lists -/

theorem dropRepeated_complete (paths : List Path) :
    ∀ path ∈ paths, ∃ found ∈ dropRepeated paths, found.names path = true := by
  induction paths with
  | nil => exact fun path among => absurd among List.not_mem_nil
  | cons first paths ih =>
    rw [dropRepeated]
    cases rest : dropRepeated paths with
    | nil =>
      intro path among
      rcases List.mem_cons.mp among with rfl | among
      · exact ⟨path, List.mem_singleton_self path, Path.names_iff.mpr rfl⟩
      · obtain ⟨found, inside, -⟩ := ih path among
        rw [rest] at inside
        exact absurd inside List.not_mem_nil
    | cons next others =>
      rw [rest] at ih
      dsimp only
      split
      · rename_i same
        intro path among
        rcases List.mem_cons.mp among with rfl | among
        · exact ⟨path, List.mem_cons_self, Path.names_iff.mpr rfl⟩
        · obtain ⟨found, inside, named⟩ := ih path among
          rcases List.mem_cons.mp inside with rfl | inside
          · refine ⟨first, List.mem_cons_self, ?_⟩
            rw [Path.names_iff, Path.names_iff.mp same, Path.names_iff.mp named]
          · exact ⟨found, List.mem_cons_of_mem _ inside, named⟩
      · intro path among
        rcases List.mem_cons.mp among with rfl | among
        · exact ⟨path, List.mem_cons_self, Path.names_iff.mpr rfl⟩
        · obtain ⟨found, inside, named⟩ := ih path among
          exact ⟨found, List.mem_cons_of_mem _ inside, named⟩

/-- Arranged paths list the paths that they are made of. -/
theorem lists_arrange (members : ∀ path, path ∈ paths ↔ wanted path) :
    Lists (arrange paths) wanted where
  ascending := arrange_pairwise paths
  sound path among := (members path).mp (arrange_subset paths among)
  complete path among :=
    dropRepeated_complete _ path (List.mem_mergeSort.mpr ((members path).mpr among))

/-! ### Starting points -/

theorem mem_startsOf_iff (proper : tree.Proper) (root : Path) (text : String) :
    path ∈ startsOf tree root text ↔
      Glob.isPattern text = true ∧ Glob.Matches tree (root.child text) path ∧
        tree.isDirectoryAt path = true ∨
      Glob.isPattern text = false ∧ tree.existsAt (root.child text) = true ∧
        path = root.child text := by
  rw [startsOf, Glob.matches_iff proper]
  cases pattern : Glob.isPattern text with
  | true =>
    rw [if_pos rfl]
    cases Glob.expand tree (root.child text) with
    | error fault => simp
    | ok paths => simp
  | false =>
    rw [if_neg Bool.false_ne_true]
    cases tree.existsAt (root.child text) with
    | true => simp
    | false => simp

theorem mem_starts_iff (proper : tree.Proper) (root : Path) (includes : List String) :
    path ∈ starts tree root includes ↔ IsStart tree root includes path := by
  cases includes with
  | nil =>
    rw [starts, List.isEmpty_nil, if_pos rfl, List.mem_singleton]
    constructor
    · rintro rfl
      exact .root rfl
    · rintro (none | ⟨among, -, -⟩ | ⟨among, -, -, -⟩)
      · rfl
      · exact absurd among List.not_mem_nil
      · exact absurd among List.not_mem_nil
  | cons text includes =>
    rw [starts, List.isEmpty_cons, if_neg Bool.false_ne_true, List.mem_flatMap]
    constructor
    · rintro ⟨text, among, inside⟩
      rcases (mem_startsOf_iff proper root text).mp inside with
        ⟨pattern, matched, inside⟩ | ⟨plain, there, rfl⟩
      · exact .wildcard among pattern matched inside
      · exact .literal among plain there
    · rintro (none | ⟨among, plain, there⟩ | ⟨among, pattern, matched, inside⟩)
      · exact absurd none (List.cons_ne_nil _ _)
      · exact ⟨_, among, (mem_startsOf_iff proper root _).mpr (.inr ⟨plain, there, rfl⟩)⟩
      · exact ⟨_, among, (mem_startsOf_iff proper root _).mpr (.inl ⟨pattern, matched, inside⟩)⟩

/-! ### Walking -/

mutual

/-- What holds at the start of a walk and is kept by going on to an entry holds throughout. -/
theorem pathsFrom_induction
    (step : ∀ (path : Path) (entries : List (String × FileTree)), P path (.directory entries) →
      ∀ entry ∈ entries, P (path.child entry.1) entry.2) :
    ∀ (node : FileTree) (path : Path), P path node → ∀ found ∈ pathsFrom path node,
      P found.1 found.2
  | .file text, path, here => by
    intro found among
    rw [pathsFrom, List.mem_singleton] at among
    rw [among]
    exact here
  | .directory entries, path, here => by
    intro found among
    rw [pathsFrom] at among
    rcases List.mem_cons.mp among with rfl | below
    · exact here
    · exact pathsFromAll_induction step entries path (step path entries here) found below

theorem pathsFromAll_induction
    (step : ∀ (path : Path) (entries : List (String × FileTree)), P path (.directory entries) →
      ∀ entry ∈ entries, P (path.child entry.1) entry.2) :
    ∀ (entries : List (String × FileTree)) (path : Path),
      (∀ entry ∈ entries, P (path.child entry.1) entry.2) →
      ∀ found ∈ pathsFromAll path entries, P found.1 found.2
  | [], _, _ => fun _ among => absurd among List.not_mem_nil
  | (name, node) :: entries, path, here => by
    intro found among
    obtain ⟨first, later⟩ := List.forall_mem_cons.mp here
    rw [pathsFromAll] at among
    rcases List.mem_append.mp among with inside | among
    · exact pathsFrom_induction step node (path.child name) first found inside
    · exact pathsFromAll_induction step entries path later found among

end

theorem self_mem_pathsFrom (path : Path) (node : FileTree) :
    (path, node) ∈ pathsFrom path node := by
  cases node with
  | file text =>
    rw [pathsFrom]
    exact List.mem_singleton_self _
  | directory entries =>
    rw [pathsFrom]
    exact List.mem_cons_self

theorem mem_pathsFromAll_iff {entry : Path × FileTree} :
    entry ∈ pathsFromAll path entries ↔
      ∃ first ∈ entries, entry ∈ pathsFrom (path.child first.1) first.2 := by
  induction entries with
  | nil =>
    rw [pathsFromAll]
    simp
  | cons first entries ih =>
    obtain ⟨name, node⟩ := first
    rw [pathsFromAll, List.mem_append, ih, List.exists_mem_cons_iff]

mutual

/-- A walk goes on to the entries of all directories that it comes to. -/
theorem mem_pathsFrom_of_entry (among : (name, child) ∈ entries) :
    ∀ (node : FileTree) (start : Path), (path, .directory entries) ∈ pathsFrom start node →
      (path.child name, child) ∈ pathsFrom start node
  | .file text, start, inside => by
    rw [pathsFrom, List.mem_singleton] at inside
    exact absurd (Prod.mk.inj inside).2 (by simp)
  | .directory entries', start, inside => by
    rw [pathsFrom] at inside ⊢
    rcases List.mem_cons.mp inside with here | below
    · obtain ⟨rfl, same⟩ := Prod.mk.inj here
      obtain rfl := FileTree.directory.inj same
      exact List.mem_cons_of_mem _ (mem_pathsFromAll_iff.mpr
        ⟨_, among, self_mem_pathsFrom _ child⟩)
    · exact List.mem_cons_of_mem _ (mem_pathsFromAll_of_entry among entries' start below)

theorem mem_pathsFromAll_of_entry (among : (name, child) ∈ entries) :
    ∀ (entries' : List (String × FileTree)) (start : Path),
      (path, .directory entries) ∈ pathsFromAll start entries' →
      (path.child name, child) ∈ pathsFromAll start entries'
  | [], _, inside => absurd inside List.not_mem_nil
  | (first, node) :: entries', start, inside => by
    rw [pathsFromAll] at inside ⊢
    rcases List.mem_append.mp inside with here | later
    · exact List.mem_append_left _ (mem_pathsFrom_of_entry among node (start.child first) here)
    · exact List.mem_append_right _ (mem_pathsFromAll_of_entry among entries' start later)

end

theorem get_entry (proper : tree.Proper) (inside : tree.get path = .ok (.directory entries))
    (among : (name, node) ∈ entries) : tree.get (path.child name) = .ok node :=
  FileTree.get_child proper inside
    (FileTree.lookup_of_mem (FileTree.proper_directory_iff.mp (proper.get inside)).1 among)

/-- A walk comes to what can be reached, with what is there. -/
theorem mem_pathsFrom_iff (proper : tree.Proper) (got : tree.get start = .ok node) :
    (path, found) ∈ pathsFrom start node ↔ Reaches tree start path ∧ tree.get path = .ok found := by
  constructor
  · refine pathsFrom_induction (P := fun path found => Reaches tree start path ∧
      tree.get path = .ok found) ?_ node start ?_ (path, found)
    · rintro path entries ⟨above, inside⟩ ⟨name, child⟩ among
      exact ⟨.entry above inside among, get_entry proper inside among⟩
    · exact ⟨.start (FileTree.existsAt_of_get got), got⟩
  · rintro ⟨reached, here⟩
    induction reached generalizing found with
    | start there =>
      obtain rfl := Except.ok.inj (got.symm.trans here)
      exact self_mem_pathsFrom start node
    | entry above inside among ih =>
      obtain rfl := Except.ok.inj ((get_entry proper inside among).symm.trans here)
      exact mem_pathsFrom_of_entry among node start (ih inside)

/-! ### Exclusions -/

theorem mem_readable_iff {tokens : List Glob.Token} :
    tokens ∈ readable texts ↔ ∃ text ∈ texts, Glob.parse text = .ok tokens := by
  rw [readable, List.mem_filterMap]
  refine exists_congr fun text => and_congr_right fun _ => ?_
  cases Glob.parse text <;> simp [Except.toOption]

theorem cover_eq_false_iff :
    (exclusions root options).cover path = false ↔
      Outside root options.ignores path ∧ Unmatched options path := by
  have patterns (texts : List String) :
      ((readable texts).any fun pattern => Glob.isMatch pattern path.text) = false ↔
        ∀ text ∈ texts, ∀ tokens, Glob.parse text = .ok tokens →
          Glob.isMatch tokens path.text = false := by
    rw [List.any_eq_false]
    constructor
    · intro unmatched text among tokens parsed
      simpa using unmatched tokens (mem_readable_iff.mpr ⟨text, among, parsed⟩)
    · intro unmatched tokens among
      obtain ⟨text, inside, parsed⟩ := mem_readable_iff.mp among
      simpa using unmatched text inside tokens parsed
  have outside : ((exclusions root options).paths.any path.startsWith) = false ↔
      Outside root options.ignores path := by
    rw [exclusions, Outside]
    simp only [List.any_map, List.any_filter, List.any_eq_false]
    simp
  rw [Exclusions.cover, Bool.or_eq_false_iff, outside, and_congr_right_iff]
  intro _
  rw [exclusions]
  dsimp only
  rw [List.any_append, Bool.or_eq_false_iff, patterns]
  have tests : ((if options.ignoreTests = true then readable testPatterns else []).any
      fun pattern => Glob.isMatch pattern path.text) = false ↔
      (options.ignoreTests = true → ∀ text ∈ testPatterns, ∀ tokens,
        Glob.parse text = .ok tokens → Glob.isMatch tokens path.text = false) := by
    split
    · rename_i ignored
      rw [patterns]
      exact ⟨fun tested _ => tested, fun tested => tested ignored⟩
    · rename_i kept
      exact iff_of_true rfl fun ignored => absurd ignored kept
  rw [tests]
  constructor
  · rintro ⟨ignored, tested⟩
    exact ⟨fun text among pattern => ignored text (List.mem_filter.mpr ⟨among, pattern⟩), tested⟩
  · rintro ⟨ignored, tested⟩
    refine ⟨fun text among => ?_, tested⟩
    obtain ⟨inside, pattern⟩ := List.mem_filter.mp among
    exact ignored text inside pattern

theorem selects_iff :
    selects (exclusions root options) path node = true ↔
      (∃ text, node = .file text) ∧ Unit.isSource path = true ∧
        Outside root options.ignores path ∧ Unmatched options path := by
  rw [selects, Bool.and_eq_true, Bool.and_eq_true, Bool.not_eq_true', Bool.not_eq_true',
    cover_eq_false_iff]
  have file : node.isDirectory = false ↔ ∃ text, node = .file text := by
    cases node <;> simp [FileTree.isDirectory]
  rw [file]
  tauto

/-! ### Scans -/

theorem mem_scanFrom_iff (proper : tree.Proper) :
    path ∈ (scanFrom tree (exclusions root options) start).files ↔
      Reaches tree start path ∧ (∃ text, tree.get path = .ok (.file text)) ∧
        Unit.isSource path = true ∧ Outside root options.ignores path ∧
        Unmatched options path := by
  cases got : tree.get start with
  | error fault =>
    rw [scanFrom, got]
    refine iff_of_false List.not_mem_nil ?_
    rintro ⟨reached, -⟩
    have there : tree.existsAt start = true := by
      induction reached with
      | start there => exact there
      | entry above inside among ih => exact ih
    obtain ⟨node, got', -⟩ := FileTree.exists_get_of_existsAt there
    rw [got] at got'
    exact absurd got' (by simp)
  | ok node =>
    rw [scanFrom_of_get got, selected]
    simp only [List.mem_map, List.mem_filter]
    constructor
    · rintro ⟨⟨path, found⟩, ⟨among, selected⟩, rfl⟩
      obtain ⟨reached, here⟩ := (mem_pathsFrom_iff proper got).mp among
      obtain ⟨⟨text, rfl⟩, chosen⟩ := selects_iff.mp selected
      exact ⟨reached, ⟨text, here⟩, chosen⟩
    · rintro ⟨reached, ⟨text, here⟩, chosen⟩
      exact ⟨(path, .file text), ⟨(mem_pathsFrom_iff proper got).mpr ⟨reached, here⟩,
        selects_iff.mpr ⟨⟨text, rfl⟩, chosen⟩⟩, rfl⟩

/-- A scan lists the paths that it is for. -/
theorem lists_scan (proper : tree.Proper) (root : Path) (options : Options) :
    Lists (scan tree root options).files (Selected tree root options) := by
  rw [scan, join]
  apply lists_arrange
  intro path
  rw [List.flatMap_map, List.mem_flatMap]
  constructor
  · rintro ⟨start, starting, inside⟩
    obtain ⟨reached, file, source, outside, unmatched⟩ := (mem_scanFrom_iff proper).mp inside
    exact ⟨⟨⟨start, (mem_starts_iff proper root _).mp starting, reached⟩, file, source, outside⟩,
      unmatched⟩
  · rintro ⟨⟨⟨start, starting, reached⟩, file, source, outside⟩, unmatched⟩
    exact ⟨start, (mem_starts_iff proper root _).mpr starting,
      (mem_scanFrom_iff proper).mpr ⟨reached, file, source, outside, unmatched⟩⟩

/-- Scanning a directory skips nothing. -/
theorem skipped_scan (inside : tree.isDirectoryAt root = true) (options : Options) :
    (scan tree root options).skipped = 0 := by
  rw [scan_of_exists]
  exact fun start among => existsAt_of_mem_starts
    (fun _ => FileTree.existsAt_of_isDirectoryAt inside) among

/-! ### Given paths -/

theorem mem_collectOne_iff (given : Path) :
    path ∈ (collectOne tree options given).files ↔
      tree.isDirectoryAt given = true ∧ path ∈ (scan tree given options).files ∨
      tree.isDirectoryAt given = false ∧ Unit.isSource given = true ∧ path = given := by
  rw [collectOne]
  cases tree.isDirectoryAt given with
  | true => simp
  | false =>
    cases Unit.isSource given with
    | true => simp
    | false => simp

theorem lists_collect (tree : FileTree) (options : Options) (paths : List Path) :
    Lists (collect tree options paths).files (Collected tree options paths) := by
  rw [collect, join]
  apply lists_arrange
  intro path
  rw [List.flatMap_map, List.mem_flatMap]
  constructor
  · rintro ⟨given, among, inside⟩
    rcases (mem_collectOne_iff given).mp inside with ⟨directory, found⟩ | ⟨other, source, rfl⟩
    · exact .scanned among directory found
    · exact .named among other source
  · rintro (⟨among, directory, found⟩ | ⟨among, other, source⟩)
    · exact ⟨_, among, (mem_collectOne_iff _).mpr (.inl ⟨directory, found⟩)⟩
    · exact ⟨_, among, (mem_collectOne_iff _).mpr (.inr ⟨other, source, rfl⟩)⟩

/-- Only what is neither a directory nor a unit is skipped. -/
theorem skipped_collectOne (given : Path) :
    (collectOne tree options given).skipped =
      if !tree.isDirectoryAt given && !Unit.isSource given then 1 else 0 := by
  rw [collectOne]
  cases inside : tree.isDirectoryAt given with
  | true => exact skipped_scan inside options
  | false => cases Unit.isSource given <;> rfl

theorem skipped_collect (tree : FileTree) (options : Options) (paths : List Path) :
    (collect tree options paths).skipped =
      paths.countP fun given => !tree.isDirectoryAt given && !Unit.isSource given := by
  rw [collect, join]
  dsimp only
  induction paths with
  | nil => rfl
  | cons given paths ih =>
    rw [List.map_cons, List.foldr_cons, ih, skipped_collectOne, List.countP_cons, Nat.add_comm]

end Selection

/-- A scan lists exactly the files that it is for, and explicitly given paths list exactly what
they stand for, those that stand for nothing being counted. -/
theorem scan_lists_selected {tree : FileTree} (proper : tree.Proper) (options : Options) :
    (∀ root, Lists (scan tree root options).files (Selected tree root options)) ∧
      ∀ paths, Lists (collect tree options paths).files (Collected tree options paths) ∧
        (collect tree options paths).skipped =
          paths.countP fun given => !tree.isDirectoryAt given && !Unit.isSource given := by
  refine ⟨fun root => lists_scan proper root options, fun paths => ?_⟩
  exact ⟨lists_collect tree options paths, skipped_collect tree options paths⟩

/-- A project with a directory in a directory, and units that are left out next to one that
is not. -/
def overlappingTree : FileTree :=
  .directory [("p", .directory [("src", .directory [("lib", .directory [
    ("a.tsx", .file (some "")), ("a.test.tsx", .file (some "")), ("a.md", .file (some "")),
    ("gen", .directory [("b.ts", .file (some ""))])])])])]

/-- Starting points one of which lies in the other. -/
def overlappingOptions : Options where
  includes := ["src", "src/*"]
  ignores := ["src/lib/gen"]
  ignoreTests := true

/-- The only unit that is not left out is reached from both starting points and listed once. -/
theorem scan_lists_selected_overlapping :
    let tree := overlappingTree
    let options := overlappingOptions
    tree.Proper ∧
      starts tree (.ofString "/p") options.includes =
        [.ofString "/p/src", .ofString "/p/src/lib"] ∧
      (scan tree (.ofString "/p") options).files = [.ofString "/p/src/lib/a.tsx"] ∧
      (collect tree options [.ofString "/p/src/lib/a.md", .ofString "/p"]).skipped = 1 := by
  intro tree options
  have proper : tree.Proper := by decide +kernel
  have starting : starts tree (.ofString "/p") options.includes =
      [.ofString "/p/src", .ofString "/p/src/lib"] := by decide +kernel
  have chosen : ∀ start ∈ starts tree (.ofString "/p") options.includes,
      (scanFrom tree (exclusions (.ofString "/p") options) start).files =
        [.ofString "/p/src/lib/a.tsx"] := by
    rw [starting]
    decide +kernel
  obtain ⟨lists, counts⟩ := scan_lists_selected proper options
  obtain ⟨ascending, sound, complete⟩ := lists (.ofString "/p")
  have only : ∀ path ∈ (scan tree (.ofString "/p") options).files,
      path = .ofString "/p/src/lib/a.tsx" := by
    intro path among
    obtain ⟨⟨⟨start, started, reached⟩, file, source, outside⟩, unmatched⟩ := sound path among
    have inside := (mem_scanFrom_iff proper).mpr ⟨reached, file, source, outside, unmatched⟩
    rw [chosen start ((mem_starts_iff proper _ _).mpr started)] at inside
    exact List.mem_singleton.mp inside
  have wanted : Selected tree (.ofString "/p") options (.ofString "/p/src/lib/a.tsx") := by
    have started : .ofString "/p/src" ∈ starts tree (.ofString "/p") options.includes := by
      rw [starting]
      exact List.mem_cons_self
    have inside := chosen _ started ▸ List.mem_singleton_self _
    obtain ⟨reached, file, source, outside, unmatched⟩ := (mem_scanFrom_iff proper).mp inside
    exact ⟨⟨⟨_, (mem_starts_iff proper _ _).mp started, reached⟩, file, source, outside⟩, unmatched⟩
  obtain ⟨found, among, -⟩ := complete _ wanted
  have listed : ∀ path, path ∈ (scan tree (.ofString "/p") options).files ↔
      path ∈ [Path.ofString "/p/src/lib/a.tsx"] := by
    refine fun path => ⟨fun among => List.mem_singleton.mpr (only path among), fun same => ?_⟩
    rw [List.mem_singleton.mp same, ← only found among]
    exact among
  refine ⟨proper, starting, ascending.eq_of_mem_iff (List.pairwise_singleton _ _) listed, ?_⟩
  rw [(counts _).2]
  decide +kernel

end Scan

end MessageCatalog
