import MessageCatalog.Proofs.Glob.Growth
import MessageCatalog.Proofs.Scan.Found
import MessageCatalog.Proofs.Unit.Isolation

/-!
# Scans of growing trees

A scan finds the same units after an addition to the tree that is no unit itself: the paths
that were there before are found in the same order, and a new starting point leads to what
was added, where nothing is found. This needs all starting points to go down only. One that
goes up through a directory which was added would lead back to what was there before.
-/

namespace MessageCatalog

namespace Scan

open FileTree (Addition Grows placeOf)
open MessageCatalog.Unit (Barren)

/-- Whether the starting points of a scan go down only: no component of a pattern matches the
parent of a directory, and other texts name none. -/
structure Downward (root : Path) (includes : List String) : Prop where
  straight : root.IsStraight
  pattern : ∀ text ∈ includes, Glob.isPattern text = true → Glob.GoesDown (root.child text)
  path : ∀ text ∈ includes, Glob.isPattern text = false → (root.child text).IsStraight

section Growth

variable {tree node leaf : FileTree} {entries : List (String × FileTree)}
  {names rest : List String} {name : String} {root path start : Path} {options : Options}
  {covered : Exclusions} {includes : List String} {allowed : List String → Prop}

/-! ### What is found from a starting point -/

theorem selects_directory (inside : node.isDirectory = true) (covered : Exclusions)
    (path : Path) : selects covered path node = false := by
  rw [selects, inside]
  simp

theorem selects_of_barren (barren : Barren (placeOf path)) (absolute : path.isAbsolute = true)
    (straight : path.IsStraight) (covered : Exclusions) (node : FileTree) :
    selects covered path node = false := by
  rw [selects, barren path absolute straight rfl, Bool.and_false]

/-- What a scan selects of the paths of a tree. -/
def selected (covered : Exclusions) (found : List (Path × FileTree)) : List (Path × FileTree) :=
  found.filter fun entry => selects covered entry.1 entry.2

theorem selected_nil (covered : Exclusions) : selected covered [] = [] := by
  rw [selected, List.filter_nil]

theorem selected_cons_of_neg (other : selects covered path node = false)
    (found : List (Path × FileTree)) :
    selected covered ((path, node) :: found) = selected covered found := by
  rw [selected, selected, List.filter_cons_of_neg]
  rw [other]
  exact Bool.false_ne_true

theorem selected_append (covered : Exclusions) (found more : List (Path × FileTree)) :
    selected covered (found ++ more) = selected covered found ++ selected covered more := by
  rw [selected, selected, selected, List.filter_append]

theorem selected_pathsFrom_of_bare (bare : node.entries = [])
    (other : selects covered path node = false) : selected covered (pathsFrom path node) = [] := by
  cases node with
  | file text => rw [pathsFrom, selected_cons_of_neg other, selected_nil]
  | directory entries =>
    obtain rfl : entries = [] := bare
    rw [pathsFrom, pathsFromAll, selected_cons_of_neg other, selected_nil]

/-- Setting an entry changes what is found by what is found at the entry. -/
theorem selected_pathsFromAll_setEntry
    (same : selected covered (pathsFrom (path.child name) node) =
      selected covered (pathsFrom (path.child name) ((entries.lookup name).getD .empty))) :
    selected covered (pathsFromAll path (FileTree.setEntry name node entries)) =
      selected covered (pathsFromAll path entries) := by
  induction entries with
  | nil =>
    rw [FileTree.setEntry, pathsFromAll, pathsFromAll, pathsFromAll, List.append_nil,
      selected_nil, same]
    exact selected_pathsFrom_of_bare rfl (selects_directory rfl covered _)
  | cons entry entries ih =>
    obtain ⟨first, old⟩ := entry
    rw [FileTree.lookup_cons_eq] at same
    rw [FileTree.setEntry]
    by_cases here : first = name
    · subst here
      rw [if_pos rfl, Option.getD_some] at same
      rw [if_pos rfl, pathsFromAll, pathsFromAll, selected_append, selected_append, same]
    · rw [if_neg (Ne.symm here)] at same
      rw [if_neg here, pathsFromAll, pathsFromAll, selected_append, selected_append, ih same]

/-- Nothing is found at the entry of an addition, neither before nor after it. -/
theorem selected_pathsFrom_entry {entries : List (String × FileTree)}
    (addition : Addition (fun below => Barren (placeOf path ++ below)) (.directory entries) [] name
      leaf)
    (absolute : path.isAbsolute = true) (straight : path.IsStraight) :
    selected covered (pathsFrom (path.child name) leaf) =
      selected covered (pathsFrom (path.child name) ((entries.lookup name).getD .empty)) := by
  have missing := addition.fresh
  have free := addition.free
  rw [List.nil_append, FileTree.itemAt, FileTree.at?_cons, FileTree.entries] at missing free
  cases inside : leaf.isDirectory with
  | true =>
    have new := missing inside
    rw [Option.map_eq_none_iff] at new
    cases found : entries.lookup name with
    | some old => exact absurd new (by simp [found])
    | none =>
      rw [selected_pathsFrom_of_bare addition.bare (selects_directory inside covered _)]
      exact (selected_pathsFrom_of_bare rfl (selects_directory rfl covered _)).symm
  | false =>
    have other : ∀ node, selects covered (path.child name) node = false := by
      have barren : Barren (placeOf (path.child name)) := by
        rw [FileTree.placeOf_child absolute addition.named]
        exact addition.fits inside
      exact selects_of_barren barren (Path.isAbsolute_append absolute _)
        (FileTree.isStraight_child absolute straight addition.named) covered
    rw [selected_pathsFrom_of_bare addition.bare (other leaf)]
    refine (selected_pathsFrom_of_bare ?_ (other _)).symm
    cases found : entries.lookup name with
    | none => rfl
    | some old =>
      rw [Option.getD_some]
      cases old with
      | file text => rfl
      | directory entries => exact absurd (by simp [found]) free

/-- Nothing else is found below a path after an addition below it. -/
theorem selected_pathsFrom_put
    (addition : Addition (fun below => Barren (placeOf path ++ below)) node rest name leaf)
    (proper : node.Proper) (absolute : path.isAbsolute = true) (straight : path.IsStraight) :
    selected covered (pathsFrom path (node.put (rest ++ [name]) leaf)) =
      selected covered (pathsFrom path node) := by
  induction rest generalizing node path with
  | nil =>
    obtain ⟨entries, here⟩ := FileTree.exists_of_itemAt_directory addition.inside
    obtain rfl := Option.some.inj ((FileTree.at?_nil node).symm.trans here)
    rw [List.nil_append, FileTree.put, FileTree.put, pathsFrom, pathsFrom,
      selected_cons_of_neg (selects_directory rfl covered path),
      selected_cons_of_neg (selects_directory rfl covered path)]
    exact selected_pathsFromAll_setEntry
      (selected_pathsFrom_entry addition absolute straight)
  | cons first rest ih =>
    cases node with
    | file text => exact absurd addition.inside (by simp [FileTree.itemAt, FileTree.entries])
    | directory entries =>
      have there := addition.inside
      rw [FileTree.itemAt, FileTree.at?_cons, FileTree.entries] at there
      cases found : entries.lookup first with
      | none => exact absurd there (by simp [found])
      | some child =>
        obtain ⟨named, childProper⟩ := proper.lookup found
        have at' : (FileTree.directory entries).at? [first] = some child := by
          rw [FileTree.at?_cons, FileTree.entries, found, Option.bind_some, FileTree.at?_nil]
        have below := addition.below at'
        rw [List.cons_append, FileTree.put, found, Option.getD_some, pathsFrom, pathsFrom,
          selected_cons_of_neg (selects_directory rfl covered path),
          selected_cons_of_neg (selects_directory rfl covered path)]
        apply selected_pathsFromAll_setEntry
        rw [found, Option.getD_some]
        refine ih ?_ childProper (Path.isAbsolute_append absolute _)
          (FileTree.isStraight_child absolute straight named)
        rw [FileTree.placeOf_child absolute named]
        simpa only [List.append_assoc] using below

theorem scanFrom_of_get (got : tree.get start = .ok node) (covered : Exclusions) :
    scanFrom tree covered start = ⟨(selected covered (pathsFrom start node)).map (·.1), 0⟩ := by
  rw [scanFrom, got]
  rfl

theorem skipped_scanFrom (here : tree.existsAt start = true) (covered : Exclusions) :
    (scanFrom tree covered start).skipped = 0 := by
  obtain ⟨node, got, -⟩ := FileTree.exists_get_of_existsAt here
  rw [scanFrom_of_get got]

/-- From where something was before, the same is found. -/
theorem scanFrom_put (addition : Addition Barren tree names name leaf) (proper : tree.Proper)
    (straight : start.IsStraight) (here : tree.existsAt start = true) (covered : Exclusions) :
    scanFrom (tree.put (names ++ [name]) leaf) covered start = scanFrom tree covered start := by
  obtain ⟨node, got, there⟩ := FileTree.exists_get_of_existsAt here
  obtain ⟨node', got', there'⟩ :=
    FileTree.exists_get_of_existsAt (addition.retains.existsAt here)
  have absolute := FileTree.isAbsolute_of_get got
  rw [scanFrom_of_get got, scanFrom_of_get got']
  suffices same : selected covered (pathsFrom start node') =
      selected covered (pathsFrom start node) by rw [same]
  rcases addition.at?_cases there with ⟨rest, rfl, below⟩ | ⟨place, last⟩ | same
  · obtain rfl := Option.some.inj (there'.symm.trans below)
    exact selected_pathsFrom_put (addition.below there) (proper.get got) absolute straight
  · obtain rfl := Option.some.inj (there'.symm.trans last)
    have taken : tree.itemAt (names ++ [name]) ≠ none := by
      rw [FileTree.itemAt, ← place, there]
      simp
    have free := addition.free
    obtain ⟨text, rfl⟩ := addition.item_eq taken
    have barren : Barren (placeOf start) := place ▸ addition.fits rfl
    rw [selected_pathsFrom_of_bare rfl (selects_of_barren barren absolute straight covered _)]
    refine (selected_pathsFrom_of_bare ?_
      (selects_of_barren barren absolute straight covered _)).symm
    rw [FileTree.itemAt, ← place, there] at free
    cases node with
    | file text => rfl
    | directory entries => exact absurd rfl free
  · rw [Option.some.inj (there'.symm.trans same)]

/-- From where nothing was before, nothing is found. -/
theorem scanFrom_of_new (addition : Addition Barren tree names name leaf)
    (absolute : start.isAbsolute = true) (straight : start.IsStraight)
    (missing : tree.existsAt start = false)
    (here : (tree.put (names ++ [name]) leaf).existsAt start = true) (covered : Exclusions) :
    (scanFrom (tree.put (names ++ [name]) leaf) covered start).files = [] := by
  obtain ⟨place, got⟩ := addition.get_of_new straight missing here
  rw [scanFrom_of_get got, selected_pathsFrom_of_bare addition.bare, List.map_nil]
  cases inside : leaf.isDirectory with
  | true => exact selects_directory inside covered start
  | false =>
    exact selects_of_barren (place ▸ addition.fits inside) absolute straight covered leaf

/-! ### Starting points -/

theorem isStraight_of_mem_starts (downward : Downward root includes) (proper : tree.Proper)
    (among : start ∈ starts tree root includes) : start.IsStraight := by
  rw [starts] at among
  split at among
  · rw [List.mem_singleton.mp among]
    exact downward.straight
  · obtain ⟨text, listed, inside⟩ := List.mem_flatMap.mp among
    rw [startsOf] at inside
    split at inside
    · rename_i pattern
      split at inside
      · rename_i expanded
        exact Glob.isStraight_of_mem_expand proper (downward.pattern text listed pattern) expanded
          (List.mem_filter.mp inside).1
      · exact absurd inside List.not_mem_nil
    · rename_i other
      split at inside
      · rw [List.mem_singleton.mp inside]
        exact downward.path text listed (by simpa using other)
      · exact absurd inside List.not_mem_nil

theorem existsAt_of_mem_starts (known : includes = [] → tree.existsAt root = true)
    (among : start ∈ starts tree root includes) : tree.existsAt start = true := by
  rw [starts] at among
  split at among
  · rename_i empty
    rw [List.mem_singleton.mp among]
    exact known (List.isEmpty_iff.mp empty)
  · obtain ⟨text, -, inside⟩ := List.mem_flatMap.mp among
    rw [startsOf] at inside
    split at inside
    · split at inside
      · exact FileTree.existsAt_of_isDirectoryAt (List.mem_filter.mp inside).2
      · exact absurd inside List.not_mem_nil
    · split at inside
      · rw [List.mem_singleton.mp inside]
        assumption
      · exact absurd inside List.not_mem_nil

theorem filter_startsOf (addition : Addition allowed tree names name leaf)
    (proper : tree.Proper) (root : Path) (text : String) :
    (startsOf (tree.put (names ++ [name]) leaf) root text).filter tree.existsAt =
      startsOf tree root text := by
  have retains := addition.retains
  have expansion := Glob.filter_expand addition proper (root.child text)
  generalize tree.put (names ++ [name]) leaf = after at retains expansion
  rw [startsOf, startsOf]
  split
  · cases expanded : Glob.expand after (root.child text) with
    | error fault =>
      rw [expanded] at expansion
      rw [← expansion]
      rfl
    | ok paths =>
      rw [expanded] at expansion
      rw [← expansion]
      simp only [Except.map]
      rw [List.filter_filter, List.filter_filter]
      refine List.filter_congr fun path _ => ?_
      cases here : tree.existsAt path with
      | true => rw [Bool.true_and, Bool.and_true, retains.isDirectoryAt_eq here]
      | false => rw [Bool.false_and, Bool.and_false]
  · cases here : tree.existsAt (root.child text) with
    | true =>
      rw [if_pos (retains.existsAt here), if_pos rfl, List.filter_cons_of_pos here,
        List.filter_nil]
    | false =>
      simp only [Bool.false_eq_true, if_false]
      split
      · rw [List.filter_cons_of_neg (by simp [here]), List.filter_nil]
      · rfl

/-- The starting points that were there before are the starting points before. -/
theorem filter_starts (addition : Addition allowed tree names name leaf) (proper : tree.Proper)
    (known : includes = [] → tree.existsAt root = true) :
    (starts (tree.put (names ++ [name]) leaf) root includes).filter tree.existsAt =
      starts tree root includes := by
  rw [starts, starts]
  split
  · rename_i empty
    rw [List.filter_cons_of_pos (known (List.isEmpty_iff.mp empty)), List.filter_nil]
  · rw [List.filter_flatMap]
    exact List.flatMap_congr fun text _ => filter_startsOf addition proper root text

/-! ### Scans -/

theorem foldr_skipped_eq_zero {found : List Found} (none : ∀ part ∈ found, part.skipped = 0) :
    found.foldr (fun part n => part.skipped + n) 0 = 0 := by
  induction found with
  | nil => rfl
  | cons part found ih =>
    rw [List.foldr_cons, none part List.mem_cons_self,
      ih fun other among => none other (List.mem_cons_of_mem part among)]

/-- A scan whose starting points are there skips none of them. -/
theorem scan_of_exists
    (there : ∀ start ∈ starts tree root options.includes, tree.existsAt start = true) :
    scan tree root options = ⟨arrange ((starts tree root options.includes).flatMap fun start =>
      (scanFrom tree (exclusions root options) start).files), 0⟩ := by
  rw [scan, join, foldr_skipped_eq_zero, List.flatMap_map]
  intro part among
  obtain ⟨start, starting, rfl⟩ := List.mem_map.mp among
  exact skipped_scanFrom (there start starting) _

/-- An addition that is no unit does not change what is found. -/
theorem scan_put (addition : Addition Barren tree names name leaf) (proper : tree.Proper)
    (absolute : root.isAbsolute = true) (downward : Downward root options.includes)
    (known : options.includes = [] → tree.existsAt root = true) :
    scan (tree.put (names ++ [name]) leaf) root options = scan tree root options := by
  have known' := fun empty => addition.retains.existsAt (known empty)
  have there : ∀ start ∈ starts tree root options.includes, tree.existsAt start = true :=
    fun start among => existsAt_of_mem_starts known among
  have there' : ∀ start ∈ starts (tree.put (names ++ [name]) leaf) root options.includes,
      (tree.put (names ++ [name]) leaf).existsAt start = true :=
    fun start among => existsAt_of_mem_starts known' among
  rw [scan_of_exists there, scan_of_exists there',
    Glob.flatMap_of_filter (filter_starts addition proper known)]
  · intro start among here
    have straight := isStraight_of_mem_starts downward (addition.proper proper) among
    rw [scanFrom_put addition proper straight here]
  · intro start among missing
    have straight := isStraight_of_mem_starts downward (addition.proper proper) among
    exact scanFrom_of_new addition (isAbsolute_of_mem_starts absolute among) straight missing
      (there' start among) _

/-- What is found stays the same however a tree grows by what is no unit. -/
theorem scan_grows {after : FileTree} (grows : Grows Barren tree after) (proper : tree.Proper)
    (absolute : root.isAbsolute = true) (downward : Downward root options.includes)
    (known : options.includes = [] → tree.existsAt root = true) :
    scan after root options = scan tree root options := by
  induction grows with
  | refl => rfl
  | add addition _ ih =>
    rw [ih (addition.proper proper) fun empty => addition.retains.existsAt (known empty),
      scan_put addition proper absolute downward known]

/-! ### Units -/

mutual

/-- A path that is found leads to what it is found with. -/
theorem get_of_mem_pathsFrom (proper : tree.Proper) :
    ∀ (node : FileTree) {path : Path}, tree.get path = .ok node → path.IsStraight →
      ∀ entry ∈ pathsFrom path node, tree.get entry.1 = .ok entry.2 ∧ entry.1.IsStraight
  | .file text, path, got, straight => by
    intro entry among
    rw [pathsFrom, List.mem_singleton] at among
    rw [among]
    exact ⟨got, straight⟩
  | .directory entries, path, got, straight => by
    intro entry among
    rw [pathsFrom] at among
    rcases List.mem_cons.mp among with rfl | below
    · exact ⟨got, straight⟩
    · exact get_of_mem_pathsFromAll proper entries got straight (List.Subset.refl _) entry below

theorem get_of_mem_pathsFromAll (proper : tree.Proper) {all : List (String × FileTree)} :
    ∀ (entries : List (String × FileTree)) {path : Path},
      tree.get path = .ok (.directory all) → path.IsStraight → entries ⊆ all →
      ∀ entry ∈ pathsFromAll path entries,
        tree.get entry.1 = .ok entry.2 ∧ entry.1.IsStraight
  | [], _, _, _, _ => fun entry among => absurd among List.not_mem_nil
  | (name, node) :: entries, path, got, straight, inside => by
    intro entry among
    rw [pathsFromAll] at among
    have distinct := FileTree.proper_directory_iff.mp (proper.get got)
    have here := inside List.mem_cons_self
    rcases List.mem_append.mp among with first | later
    · refine get_of_mem_pathsFrom proper node ?_ ?_ entry first
      · exact FileTree.get_child proper got (FileTree.lookup_of_mem distinct.1 here)
      · exact FileTree.isStraight_child (FileTree.isAbsolute_of_get got) straight
          (distinct.2 _ here).1
    · exact get_of_mem_pathsFromAll proper entries got straight
        (fun other among => inside (List.mem_cons_of_mem _ among)) entry later

end

/-- All that a scan finds are files, and their paths go down only. -/
theorem exists_file_of_mem_scan (proper : tree.Proper) (downward : Downward root options.includes)
    (among : path ∈ (scan tree root options).files) :
    path.IsStraight ∧ ∃ text, tree.get path = .ok (.file text) := by
  obtain ⟨start, starting, inside⟩ := mem_scan among
  obtain ⟨node, found, got, below, chosen⟩ := mem_scanFrom inside
  obtain ⟨here, straight⟩ := get_of_mem_pathsFrom proper node got
    (isStraight_of_mem_starts downward proper starting) _ below
  refine ⟨straight, ?_⟩
  cases found with
  | file text => exact ⟨text, here⟩
  | directory entries =>
    rw [selects_directory rfl] at chosen
    exact Bool.noConfusion chosen

end Growth

end Scan

end MessageCatalog
