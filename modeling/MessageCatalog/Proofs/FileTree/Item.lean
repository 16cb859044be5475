import MessageCatalog.FileTree.Basic

/-!
# What is at a place of a tree

A place is the list of names that leads to it from the root. What a tree has there is a
directory, a file with its text, or nothing; two trees are alike if they have the same
everywhere, in whatever order their directories list the entries.

Putting something without entries of its own into a directory changes what is at one place
only. Making a directory and writing a file are both of this kind.
-/

namespace MessageCatalog

namespace FileTree

/-- What a tree has at a place, without the entries of a directory. -/
inductive Item where
  | directory
  | file (text : Option String)
  deriving DecidableEq, Repr

/-- The tree itself, seen from its place. -/
def item : FileTree → Item
  | directory _ => .directory
  | file text => .file text

/-- What a tree has at a place. -/
def itemAt (tree : FileTree) (names : List String) : Option Item :=
  (tree.at? names).map item

section Items

variable {tree node : FileTree} {entries : List (String × FileTree)} {name other : String}
  {names others rest : List String}

@[simp] theorem item_directory (entries : List (String × FileTree)) :
    (directory entries).item = .directory := rfl

@[simp] theorem item_file (text : Option String) : (file text).item = .file text := rfl

@[simp] theorem at?_nil (tree : FileTree) : tree.at? [] = some tree := by
  rw [at?]

@[simp] theorem at?_cons (tree : FileTree) (name : String) (names : List String) :
    tree.at? (name :: names) = (tree.entries.lookup name).bind (·.at? names) := by
  rw [at?]

theorem at?_append (tree : FileTree) (names others : List String) :
    tree.at? (names ++ others) = (tree.at? names).bind (·.at? others) := by
  induction names generalizing tree with
  | nil => simp
  | cons name names ih =>
    rw [List.cons_append, at?_cons, at?_cons]
    cases tree.entries.lookup name with
    | none => rfl
    | some node => exact ih node

theorem at?_concat (tree : FileTree) (names : List String) (name : String) :
    tree.at? (names ++ [name]) = (tree.at? names).bind (·.entries.lookup name) := by
  rw [at?_append]
  cases tree.at? names with
  | none => rfl
  | some node => cases found : node.entries.lookup name <;> simp [found]

theorem isDirectory_iff : tree.isDirectory = true ↔ tree.item = .directory := by
  cases tree <;> simp [isDirectory]

theorem itemAt_nil (tree : FileTree) : tree.itemAt [] = some tree.item := by
  rw [itemAt, at?_nil, Option.map_some]

theorem itemAt_eq_none_iff : tree.itemAt names = none ↔ tree.at? names = none := by
  rw [itemAt, Option.map_eq_none_iff]

theorem exists_of_itemAt_directory (here : tree.itemAt names = some .directory) :
    ∃ entries, tree.at? names = some (directory entries) := by
  obtain ⟨node, found, same⟩ := Option.map_eq_some_iff.mp here
  cases node with
  | file text => exact absurd same (by simp)
  | directory entries => exact ⟨entries, found⟩

/-- Only a directory has something below it. -/
theorem itemAt_of_below (below : tree.itemAt (names ++ name :: rest) ≠ none) :
    tree.itemAt names = some .directory := by
  rw [Ne, itemAt_eq_none_iff, at?_append] at below
  rw [itemAt]
  cases found : tree.at? names with
  | none => exact absurd (by rw [found]; rfl) below
  | some node =>
    cases node with
    | directory entries => rfl
    | file text => exact absurd (by rw [found]; simp [FileTree.entries]) below

theorem itemAt_of_isPrefix (below : tree.itemAt others ≠ none) (start : names <+: others)
    (proper : names ≠ others) : tree.itemAt names = some .directory := by
  obtain ⟨rest, rfl⟩ := start
  cases rest with
  | nil => exact absurd (List.append_nil names).symm proper
  | cons name rest => exact itemAt_of_below below

/-! ### Putting -/

theorem lookup_cons_eq (name other : String) (node : FileTree)
    (entries : List (String × FileTree)) :
    ((name, node) :: entries).lookup other =
      if other = name then some node else entries.lookup other := by
  rw [List.lookup_cons]
  by_cases same : other = name
  · simp [same]
  · rw [if_neg same, beq_false_of_ne same]

theorem lookup_setEntry (name other : String) (node : FileTree)
    (entries : List (String × FileTree)) :
    (setEntry name node entries).lookup other =
      if other = name then some node else entries.lookup other := by
  induction entries with
  | nil => exact lookup_cons_eq name other node []
  | cons entry entries ih =>
    rw [setEntry]
    by_cases known : entry.1 = name
    · rw [if_pos known, lookup_cons_eq, lookup_cons_eq, known]
      by_cases same : other = name <;> simp [same]
    · rw [if_neg known, lookup_cons_eq, lookup_cons_eq, ih]
      by_cases same : other = entry.1
      · simp [same, known]
      · simp [same]

/-- What a tree has at a place after something was put into a directory. -/
theorem at?_put (there : tree.itemAt names = some .directory) (name : String)
    (node : FileTree) (others : List String) :
    ((tree.put (names ++ [name]) node).at? others).map item =
      if names ++ [name] <+: others then node.itemAt (others.drop (names.length + 1))
      else tree.itemAt others := by
  induction names generalizing tree others with
  | nil =>
    obtain ⟨entries, here⟩ := exists_of_itemAt_directory there
    obtain rfl := Option.some.inj ((at?_nil tree).symm.trans here)
    rw [List.nil_append, put, put]
    cases others with
    | nil => simp [itemAt]
    | cons other others =>
      rw [at?_cons, FileTree.entries, lookup_setEntry]
      by_cases same : other = name
      · simp [same, itemAt]
      · simp [same, Ne.symm same, itemAt, FileTree.entries]
  | cons first names ih =>
    cases tree with
    | file text => exact absurd there (by simp [itemAt, FileTree.entries])
    | directory entries =>
      rw [itemAt, at?_cons, FileTree.entries] at there
      cases found : entries.lookup first with
      | none => exact absurd there (by simp [found])
      | some tree =>
        rw [found] at there
        rw [List.cons_append, put, found, Option.getD_some]
        cases others with
        | nil => simp [itemAt]
        | cons other others =>
          rw [at?_cons, FileTree.entries, lookup_setEntry]
          by_cases same : other = first
          · rw [if_pos same, Option.bind_some, ih there, same]
            simp [itemAt, FileTree.entries, found]
          · simp [same, Ne.symm same, itemAt, FileTree.entries]

theorem itemAt_of_entries_nil (bare : node.entries = []) (names : List String) :
    node.itemAt names = if names = [] then some node.item else none := by
  cases names with
  | nil => simp [itemAt]
  | cons name names => simp [itemAt, bare]

/-- Putting a file or an empty directory where no directory is changes what is there and
nothing else. -/
theorem itemAt_put (there : tree.itemAt names = some .directory)
    (free : tree.itemAt (names ++ [name]) ≠ some .directory) (bare : node.entries = [])
    (others : List String) :
    (tree.put (names ++ [name]) node).itemAt others =
      if others = names ++ [name] then some node.item else tree.itemAt others := by
  rw [itemAt, at?_put there, itemAt_of_entries_nil bare]
  by_cases start : names ++ [name] <+: others
  · rw [if_pos start]
    by_cases same : others = names ++ [name]
    · rw [if_pos same, if_pos (by rw [same]; simp)]
    · have empty : tree.itemAt others = none := by
        apply Classical.byContradiction
        intro below
        exact free (itemAt_of_isPrefix below start (Ne.symm same))
      obtain ⟨rest, rfl⟩ := start
      rw [if_neg same, empty, if_neg]
      intro ended
      rw [List.drop_eq_nil_iff, List.length_append, List.length_append,
        List.length_singleton] at ended
      have short : rest.length = 0 := by omega
      exact same (by rw [List.length_eq_zero_iff.mp short, List.append_nil])
  · rw [if_neg start, if_neg]
    rintro rfl
    exact start (List.prefix_refl _)

end Items

end FileTree

end MessageCatalog
