import MessageCatalog.Proofs.FileTree.Proper

/-!
# Growing trees

A tree grows by additions: an empty directory is put where nothing was, or a file where no
directory is. An addition changes what is at one place, and what was at a path before is
there still, with the same entries in the same order. Only the directory that the addition
is made in may have one more entry at its end. A path that goes down only and can be
followed now, but not before, leads to what was added.
-/

namespace MessageCatalog

namespace FileTree

/-- Whether something can be put into a directory of a tree: an empty directory where
nothing is, or a file at a place of some kind where no directory is. -/
structure Addition (allowed : List String → Prop) (tree : FileTree) (names : List String)
    (name : String) (leaf : FileTree) : Prop where
  inside : tree.itemAt names = some .directory
  free : tree.itemAt (names ++ [name]) ≠ some .directory
  named : IsName name
  bare : leaf.entries = []
  fresh : leaf.isDirectory = true → tree.itemAt (names ++ [name]) = none
  fits : leaf.isDirectory = false → allowed (names ++ [name])

/-- What was put into directories one after the other. -/
inductive Grows (allowed : List String → Prop) : FileTree → FileTree → Prop
  | refl (tree : FileTree) : Grows allowed tree tree
  | add {tree after leaf : FileTree} {names : List String} {name : String} :
    Addition allowed tree names name leaf →
    Grows allowed (tree.put (names ++ [name]) leaf) after → Grows allowed tree after

section Growth

variable {tree tree' after node node' leaf : FileTree} {names rest place : List String}
  {name : String} {path : Path} {allowed : List String → Prop} {pieces : List (List Char)}

/-! ### Where something is put -/

/-- Above the place of what is put, it is put further down. -/
theorem at?_put_of_above (there : tree.at? place = some node) (rest : List String)
    (leaf : FileTree) : (tree.put (place ++ rest) leaf).at? place = some (node.put rest leaf) := by
  induction place generalizing tree with
  | nil =>
    rw [at?_nil, Option.some.injEq] at there
    rw [List.nil_append, at?_nil, there]
  | cons first place ih =>
    rw [at?_cons] at there
    obtain ⟨child, found, below⟩ := Option.bind_eq_some_iff.mp there
    cases tree with
    | file text => exact absurd found (by simp [FileTree.entries])
    | directory entries =>
      rw [FileTree.entries] at found
      rw [List.cons_append, put, found, Option.getD_some, at?_cons, FileTree.entries,
        lookup_setEntry, if_pos rfl, Option.bind_some]
      exact ih below

/-- What is neither above nor below the place of what is put stays what it is. -/
theorem at?_put_of_apart (there : tree.at? place = some node) (above : ¬ place <+: names)
    (below : ¬ names <+: place) : (tree.put names leaf).at? place = some node := by
  induction place generalizing tree names with
  | nil => exact absurd List.nil_prefix above
  | cons first place ih =>
    cases names with
    | nil => exact absurd List.nil_prefix below
    | cons name names =>
      rw [at?_cons] at there
      obtain ⟨child, found, deeper⟩ := Option.bind_eq_some_iff.mp there
      cases tree with
      | file text => exact absurd found (by simp [FileTree.entries])
      | directory entries =>
        rw [FileTree.entries] at found
        rw [put, at?_cons, FileTree.entries, lookup_setEntry]
        by_cases same : first = name
        · subst same
          rw [if_pos rfl, found, Option.getD_some, Option.bind_some]
          rw [List.prefix_cons_inj] at above below
          exact ih deeper above below
        · rw [if_neg same, found]
          exact deeper

namespace Addition

/-- What is at a place after an addition that was there before. -/
theorem at?_cases (addition : Addition allowed tree names name leaf)
    (there : tree.at? place = some node) :
    (∃ rest, names = place ++ rest ∧ (tree.put (names ++ [name]) leaf).at? place =
        some (node.put (rest ++ [name]) leaf)) ∨
      place = names ++ [name] ∧ (tree.put (names ++ [name]) leaf).at? place = some leaf ∨
      (tree.put (names ++ [name]) leaf).at? place = some node := by
  by_cases above : place <+: names ++ [name]
  · obtain ⟨rest, same⟩ := above
    have put := at?_put_of_above there rest leaf
    rw [same] at put
    rcases List.eq_nil_or_concat rest with rfl | ⟨rest, last, rfl⟩
    · rw [List.append_nil] at same
      rw [FileTree.put] at put
      exact .inr (.inl ⟨same, put⟩)
    · rw [List.concat_eq_append] at same put
      rw [← List.append_assoc] at same
      obtain ⟨front, last⟩ := List.append_inj' same rfl
      rw [List.cons.inj last |>.1] at put
      exact .inl ⟨rest, front.symm, put⟩
  · refine .inr (.inr (at?_put_of_apart there above fun below => ?_))
    apply addition.free
    refine itemAt_of_isPrefix (by rw [itemAt, there]; simp) below ?_
    rintro rfl
    exact above (List.prefix_refl _)

theorem at?_self (addition : Addition allowed tree names name leaf) :
    (tree.put (names ++ [name]) leaf).at? (names ++ [name]) = some leaf := by
  obtain ⟨entries, there⟩ := exists_of_itemAt_directory addition.inside
  rw [at?_concat, at?_put_of_above there [name] leaf, Option.bind_some, put, put,
    FileTree.entries, lookup_setEntry, if_pos rfl]

theorem itemAt (addition : Addition allowed tree names name leaf) (place : List String) :
    (tree.put (names ++ [name]) leaf).itemAt place =
      if place = names ++ [name] then some leaf.item else tree.itemAt place :=
  itemAt_put addition.inside addition.free addition.bare place

/-- Seen from above its place, an addition is one further down. -/
theorem below (addition : Addition allowed tree (place ++ rest) name leaf)
    (there : tree.at? place = some node) :
    Addition (fun below => allowed (place ++ below)) node rest name leaf := by
  have same : ∀ names, tree.itemAt (place ++ names) = node.itemAt names := fun names => by
    rw [FileTree.itemAt, FileTree.itemAt, at?_append, there, Option.bind_some]
  obtain ⟨inside, free, named, bare, fresh, fits⟩ := addition
  rw [same] at inside
  rw [List.append_assoc, same] at free fresh
  rw [List.append_assoc] at fits
  exact ⟨inside, free, named, bare, fresh, fits⟩

theorem item_eq (addition : Addition allowed tree names name leaf)
    (file : tree.itemAt (names ++ [name]) ≠ none) : ∃ text, leaf = .file text := by
  cases leaf with
  | directory entries => exact absurd (addition.fresh rfl) file
  | file text => exact ⟨text, rfl⟩

theorem retains (addition : Addition allowed tree names name leaf) :
    Retains tree (tree.put (names ++ [name]) leaf) := by
  refine ⟨fun place here => ?_, fun place text here => ?_⟩
  · rw [addition.itemAt, if_neg, here]
    rintro rfl
    exact addition.free here
  · rw [addition.itemAt]
    split
    · rename_i same
      obtain ⟨text', rfl⟩ := addition.item_eq (by rw [← same, here]; simp)
      exact ⟨text', rfl⟩
    · exact ⟨text, here⟩

theorem proper (addition : Addition allowed tree names name leaf) (proper : tree.Proper) :
    (tree.put (names ++ [name]) leaf).Proper := by
  apply proper.put addition.inside addition.named
  cases leaf with
  | file text => trivial
  | directory entries =>
    obtain rfl := addition.bare
    exact proper_empty

/-- The names in a directory stay the same, except that a new one may be the last. -/
theorem map_entries (addition : Addition allowed tree names name leaf)
    (there : tree.at? place = some node)
    (there' : (tree.put (names ++ [name]) leaf).at? place = some node') :
    node'.entries.map (·.1) = node.entries.map (·.1) ∨
      place = names ∧ tree.itemAt (place ++ [name]) = none ∧
        node'.entries.map (·.1) = node.entries.map (·.1) ++ [name] := by
  rcases addition.at?_cases there with ⟨rest, rfl, here⟩ | ⟨rfl, here⟩ | here
  · obtain rfl := Option.some.inj (there'.symm.trans here)
    have inside := addition.inside
    rw [FileTree.itemAt, at?_append, there, Option.bind_some] at inside
    cases node with
    | file text => exact .inl (by cases rest <;> rfl)
    | directory entries =>
      cases rest with
      | nil =>
        rw [List.nil_append, put, FileTree.entries, FileTree.entries, map_fst_setEntry]
        split
        · exact .inl rfl
        · rename_i new
          rw [← lookup_ne_none_iff, Classical.not_not] at new
          refine .inr ⟨(List.append_nil place).symm, ?_, rfl⟩
          rw [FileTree.itemAt, at?_concat, there, Option.bind_some, FileTree.entries, new]
          rfl
      | cons first rest =>
        refine .inl ?_
        rw [List.cons_append, put, FileTree.entries, FileTree.entries, map_fst_setEntry, if_pos]
        rw [← lookup_ne_none_iff]
        intro missing
        rw [at?_cons, FileTree.entries, missing] at inside
        exact absurd inside (by simp)
  · obtain rfl := Option.some.inj (there'.symm.trans here)
    refine .inl ?_
    have free := addition.free
    rw [FileTree.itemAt, there] at free
    rw [addition.bare]
    cases node with
    | file text => rfl
    | directory entries => exact absurd rfl free
  · obtain rfl := Option.some.inj (there'.symm.trans here)
    exact .inl rfl

end Addition

/-! ### One addition after the other -/

theorem Grows.trans {tree'' : FileTree} (first : Grows allowed tree tree')
    (second : Grows allowed tree' tree'') : Grows allowed tree tree'' := by
  induction first with
  | refl tree => exact second
  | add addition _ ih => exact .add addition (ih second)

theorem Grows.mono {allowed' : List String → Prop} (grows : Grows allowed tree tree')
    (wider : ∀ place, allowed place → allowed' place) : Grows allowed' tree tree' := by
  induction grows with
  | refl tree => exact .refl tree
  | add addition _ ih =>
    exact .add { addition with fits := fun file => wider _ (addition.fits file) } ih

theorem Grows.retains (grows : Grows allowed tree tree') : Retains tree tree' := by
  induction grows with
  | refl tree => exact .refl tree
  | add addition _ ih => exact addition.retains.trans ih

/-! ### Paths -/

/-- Obstacles depend on what is at the places on the way. -/
theorem obstacle?_congr
    (same : ∀ place ∈ visited names pieces, tree'.itemAt place = tree.itemAt place) :
    tree'.obstacle? names pieces = tree.obstacle? names pieces := by
  induction pieces generalizing names with
  | nil => rfl
  | cons piece pieces ih =>
    have here := same names List.mem_cons_self
    have others := fun place among => same place (List.mem_cons_of_mem names among)
    have next := others (stepFrom names piece) (by cases pieces <;> simp [visited])
    rw [obstacle?, obstacle?, here, next, ih others]

theorem Retains.existsAt (retains : Retains tree tree') (here : tree.existsAt path = true) :
    tree'.existsAt path = true :=
  existsAt_iff.mpr (retains.obstacleTo?_eq_none (existsAt_iff.mp here))

/-- What is at a path stays a directory, and stays a file. -/
theorem Retains.isDirectoryAt_eq (retains : Retains tree tree')
    (here : tree.existsAt path = true) : tree'.isDirectoryAt path = tree.isDirectoryAt path := by
  have clear := existsAt_iff.mp here
  rw [Bool.eq_iff_iff, isDirectoryAt_iff, isDirectoryAt_iff]
  refine and_congr (iff_of_true (retains.obstacleTo?_eq_none clear) clear) ⟨fun made => ?_,
    retains.directory _⟩
  obtain ⟨node, -, there⟩ := get_of_clear clear
  cases node with
  | directory entries => rw [FileTree.itemAt, there]; rfl
  | file text =>
    obtain ⟨text', file⟩ := retains.file (placeOf path) text (by rw [FileTree.itemAt, there]; rfl)
    rw [file] at made
    exact absurd made (by simp)

theorem existsAt_of_isDirectoryAt (inside : tree.isDirectoryAt path = true) :
    tree.existsAt path = true :=
  existsAt_iff.mpr (isDirectoryAt_iff.mp inside).1

theorem exists_get_of_existsAt (here : tree.existsAt path = true) :
    ∃ node, tree.get path = .ok node ∧ tree.at? (placeOf path) = some node :=
  get_of_clear (existsAt_iff.mp here)

theorem isAbsolute_of_existsAt (here : tree.existsAt path = true) : path.isAbsolute = true := by
  obtain ⟨node, got, -⟩ := exists_get_of_existsAt here
  exact isAbsolute_of_get got

theorem existsAt_of_get (got : tree.get path = .ok node) : tree.existsAt path = true :=
  existsAt_iff.mpr (get_eq_ok_iff.mp got).1

/-- A path that goes down only and that an addition makes lead somewhere leads to what was
added. -/
theorem Addition.get_of_new (addition : Addition allowed tree names name leaf)
    (straight : path.IsStraight) (missing : tree.existsAt path = false)
    (here : (tree.put (names ++ [name]) leaf).existsAt path = true) :
    placeOf path = names ++ [name] ∧ (tree.put (names ++ [name]) leaf).get path = .ok leaf := by
  have clear := existsAt_iff.mp here
  obtain ⟨node, got, there⟩ := get_of_clear clear
  have down : ∀ piece ∈ path.parts.body, Path.component? piece ≠ some .parent :=
    fun piece => straight.component?_ne
  have new : placeOf path = names ++ [name] := by
    apply Classical.byContradiction
    intro other
    have kept := addition.itemAt (placeOf path)
    rw [if_neg other] at kept
    -- What was added is not on the way either, for what is below it was not there before.
    have same : ∀ place ∈ visited [] path.parts.body,
        tree.itemAt place = (tree.put (names ++ [name]) leaf).itemAt place := by
      intro place among
      have above := prefix_placeFrom_of_mem_visited down among
      rw [addition.itemAt, if_neg]
      rintro rfl
      have below : tree.itemAt (placeOf path) ≠ none := by
        rw [← kept, FileTree.itemAt, there]
        simp
      exact addition.free (itemAt_of_isPrefix below above (Ne.symm other))
    rw [← Bool.not_eq_true, existsAt_iff, obstacleTo?] at missing
    rw [obstacleTo?] at clear
    split at clear
    · rename_i lead
      rw [lead] at missing
      exact missing ((obstacle?_congr same).trans clear)
    · exact absurd clear (by simp)
  rw [new, addition.at?_self, Option.some.injEq] at there
  exact ⟨new, there ▸ got⟩

end Growth

end FileTree

end MessageCatalog
