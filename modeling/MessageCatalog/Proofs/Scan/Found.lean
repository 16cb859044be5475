import MessageCatalog.Proofs.Glob.Expansion
import MessageCatalog.Proofs.Scan.Arrangement

/-!
# What is found

All that a scan finds is a unit by its extension, and all its paths start at the root if the
scan does.
-/

namespace MessageCatalog

namespace Scan

section Found

variable {tree node : FileTree} {entries : List (String × FileTree)} {root path start : Path}
  {options : Options} {covered : Exclusions} {P : Path → Prop}

mutual

/-- What holds of a path and is kept by going down holds of all paths below it. -/
theorem forall_mem_pathsFrom
    (step : ∀ (path : Path) (text : List Char), P path → P (path ++ ⟨text⟩)) {path : Path}
    (here : P path) : ∀ node : FileTree, ∀ entry ∈ pathsFrom path node, P entry.1
  | .file text => by
    intro entry among
    rw [pathsFrom, List.mem_singleton] at among
    rw [among]
    exact here
  | .directory entries => by
    intro entry among
    rw [pathsFrom] at among
    rcases List.mem_cons.mp among with rfl | below
    · exact here
    · exact forall_mem_pathsFromAll step here entries entry below

theorem forall_mem_pathsFromAll
    (step : ∀ (path : Path) (text : List Char), P path → P (path ++ ⟨text⟩)) {path : Path}
    (here : P path) :
    ∀ entries : List (String × FileTree), ∀ entry ∈ pathsFromAll path entries, P entry.1
  | [] => fun entry among => absurd among List.not_mem_nil
  | (name, node) :: entries => by
    intro entry among
    rw [pathsFromAll] at among
    rcases List.mem_append.mp among with first | later
    · exact forall_mem_pathsFrom step (step path name.toList here) node entry first
    · exact forall_mem_pathsFromAll step here entries entry later

end

theorem isAbsolute_child (path : Path) (text : List Char) (absolute : path.isAbsolute = true) :
    (path ++ (⟨text⟩ : Path)).isAbsolute = true :=
  Path.isAbsolute_append absolute _

theorem mem_scanFrom (among : path ∈ (scanFrom tree covered start).files) :
    ∃ node found, tree.get start = .ok node ∧ (path, found) ∈ pathsFrom start node ∧
      selects covered path found = true := by
  rw [scanFrom] at among
  split at among
  · rename_i node got
    obtain ⟨⟨path', found⟩, inside, rfl⟩ := List.mem_map.mp among
    rw [List.mem_filter] at inside
    exact ⟨node, found, got, inside.1, inside.2⟩
  · exact absurd among List.not_mem_nil

theorem isSource_of_selects (selected : selects covered path node = true) :
    Unit.isSource path = true := by
  rw [selects, Bool.and_eq_true] at selected
  exact selected.2

theorem isAbsolute_of_mem_starts {includes : List String} (absolute : root.isAbsolute = true)
    (among : start ∈ starts tree root includes) : start.isAbsolute = true := by
  rw [starts] at among
  split at among
  · rw [List.mem_singleton.mp among]
    exact absolute
  · obtain ⟨text, -, inside⟩ := List.mem_flatMap.mp among
    rw [startsOf] at inside
    split at inside
    · split at inside
      · rename_i expanded
        exact Glob.isAbsolute_of_mem_expand expanded (List.mem_filter.mp inside).1
      · exact absurd inside List.not_mem_nil
    · split at inside
      · rw [List.mem_singleton.mp inside]
        exact isAbsolute_child root text.toList absolute
      · exact absurd inside List.not_mem_nil

theorem mem_scan (among : path ∈ (scan tree root options).files) :
    ∃ start ∈ starts tree root options.includes,
      path ∈ (scanFrom tree (exclusions root options) start).files := by
  have inside := arrange_subset _ among
  obtain ⟨found, scanned, inside⟩ := List.mem_flatMap.mp inside
  obtain ⟨start, starting, rfl⟩ := List.mem_map.mp scanned
  exact ⟨start, starting, inside⟩

theorem isSource_of_mem_scan (among : path ∈ (scan tree root options).files) :
    Unit.isSource path = true := by
  obtain ⟨start, -, inside⟩ := mem_scan among
  obtain ⟨node, found, -, -, selected⟩ := mem_scanFrom inside
  exact isSource_of_selects selected

theorem isAbsolute_of_mem_scan (absolute : root.isAbsolute = true)
    (among : path ∈ (scan tree root options).files) : path.isAbsolute = true := by
  obtain ⟨start, starting, inside⟩ := mem_scan among
  obtain ⟨node, found, -, below, -⟩ := mem_scanFrom inside
  exact forall_mem_pathsFrom isAbsolute_child (isAbsolute_of_mem_starts absolute starting) node
    (path, found) below

theorem mem_collect {paths : List Path} (among : path ∈ (collect tree options paths).files) :
    ∃ given ∈ paths, path ∈ (scan tree given options).files ∨
      path = given ∧ Unit.isSource given = true := by
  have inside := arrange_subset _ among
  obtain ⟨found, collected, inside⟩ := List.mem_flatMap.mp inside
  obtain ⟨given, listed, rfl⟩ := List.mem_map.mp collected
  refine ⟨given, listed, ?_⟩
  rw [collectOne] at inside
  split at inside
  · exact .inl inside
  · split at inside
    · rename_i source
      exact .inr ⟨List.mem_singleton.mp inside, source⟩
    · exact absurd inside List.not_mem_nil

end Found

end Scan

end MessageCatalog
