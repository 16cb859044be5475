import MessageCatalog.Proofs.FileTree.Item
import MessageCatalog.Proofs.Path.Steps

/-!
# Where paths lead

Which place a path leads to can be read off its pieces: a name goes down, a parent goes up,
and a silent piece stays. The tree only decides whether it can be followed: each piece needs
a directory to start from, and a name needs an entry. The first piece without one is the
obstacle, and it alone decides the fault.

So everything that is read along a path is a function of the items of the tree. In a tree
that retains all directories and files, a path that could be followed still can, and a file
that was in the way still is.

A path that does not start at the root stands for the one behind the directory of the
process.
-/

namespace MessageCatalog

namespace FileTree

/-- The place that a piece of a path leads to from another place. -/
def stepFrom (names : List String) (piece : List Char) : List String :=
  match Path.component? piece with
  | none => names
  | some .parent => names.dropLast
  | _ => names ++ [String.ofList piece]

/-- The place that pieces of a path lead to from another place. -/
def placeFrom (names : List String) (pieces : List (List Char)) : List String :=
  pieces.foldl stepFrom names

/-- The place that a path leads to. -/
def placeOf (path : Path) : List String :=
  placeFrom [] path.parts.body

/-- The places that pieces lead through, from the first to the last. -/
def visited : List String → List (List Char) → List (List String)
  | names, [] => [names]
  | names, piece :: pieces => names :: visited (stepFrom names piece) pieces

/-- What prevents pieces from being followed from a place. -/
def obstacle? (tree : FileTree) : List String → List (List Char) → Option Fault
  | _, [] => none
  | names, piece :: pieces =>
    if tree.itemAt names ≠ some .directory then some .notDirectory
    else if tree.itemAt (stepFrom names piece) = none then some .notFound
    else obstacle? tree (stepFrom names piece) pieces

/-- What prevents a path from being followed. -/
def obstacleTo? (tree : FileTree) (path : Path) : Option Fault :=
  match path.parts.lead with
  | some .root => tree.obstacle? [] path.parts.body
  | _ => some .notFound

/-- All directories and files of a tree are still there in another one. -/
structure Retains (tree tree' : FileTree) : Prop where
  directory : ∀ names, tree.itemAt names = some .directory →
    tree'.itemAt names = some .directory
  file : ∀ names text, tree.itemAt names = some (.file text) →
    ∃ text', tree'.itemAt names = some (.file text')

section Following

variable {tree tree' tree'' node : FileTree} {way : Way} {path directory place : Path}
  {fault : Fault} {names rest : List String} {piece : List Char} {pieces others : List (List Char)}

/-! ### Places -/

theorem stepFrom_silent (silent : Path.component? piece = none) (names : List String) :
    stepFrom names piece = names := by
  rw [stepFrom, silent]

theorem stepFrom_parent (up : Path.component? piece = some .parent) (names : List String) :
    stepFrom names piece = names.dropLast := by
  rw [stepFrom, up]

theorem stepFrom_name {text : List Char} (down : Path.component? piece = some (.name text))
    (names : List String) : stepFrom names piece = names ++ [String.ofList piece] := by
  rw [stepFrom, down]

/-- A piece is silent, goes up, or is a name. -/
theorem component?_cases (piece : List Char) :
    Path.component? piece = none ∨ Path.component? piece = some .parent ∨
      Path.component? piece = some (.name piece) := by
  rw [Path.component?.eq_def]
  split
  · exact .inl rfl
  · exact .inl rfl
  · exact .inr (.inl rfl)
  · exact .inr (.inr rfl)

@[simp] theorem placeFrom_nil (names : List String) : placeFrom names [] = names := rfl

@[simp] theorem placeFrom_cons (names : List String) (piece : List Char)
    (pieces : List (List Char)) :
    placeFrom names (piece :: pieces) = placeFrom (stepFrom names piece) pieces := rfl

theorem placeFrom_append (names : List String) (pieces others : List (List Char)) :
    placeFrom names (pieces ++ others) = placeFrom (placeFrom names pieces) others :=
  List.foldl_append

theorem mem_visited_append {place : List String} :
    place ∈ visited names (pieces ++ others) ↔
      place ∈ visited names pieces ∨ place ∈ visited (placeFrom names pieces) others := by
  induction pieces generalizing names with
  | nil =>
    rw [List.nil_append, placeFrom_nil, visited, List.mem_singleton]
    refine ⟨.inr, fun either => either.elim (fun first => ?_) id⟩
    cases others <;> simp [visited, first]
  | cons piece pieces ih =>
    rw [List.cons_append, visited, visited, List.mem_cons, List.mem_cons, ih,
      placeFrom_cons, or_assoc]

theorem placeFrom_mem_visited (names : List String) (pieces : List (List Char)) :
    placeFrom names pieces ∈ visited names pieces := by
  induction pieces generalizing names with
  | nil => simp [visited]
  | cons piece pieces ih => exact List.mem_cons_of_mem _ (ih _)

/-! ### Obstacles -/

theorem obstacle?_append (tree : FileTree) (names : List String)
    (pieces others : List (List Char)) :
    tree.obstacle? names (pieces ++ others) =
      (tree.obstacle? names pieces).or (tree.obstacle? (placeFrom names pieces) others) := by
  induction pieces generalizing names with
  | nil => simp [obstacle?]
  | cons piece pieces ih =>
    rw [List.cons_append, obstacle?, obstacle?, placeFrom_cons, ih]
    split
    · rfl
    · split
      · rfl
      · rfl

theorem obstacle?_single (tree : FileTree) (names : List String) (piece : List Char) :
    tree.obstacle? names [piece] =
      if tree.itemAt names ≠ some .directory then some .notDirectory
      else if tree.itemAt (stepFrom names piece) = none then some .notFound else none := rfl

/-- Without an obstacle, the last place is there and all places before it are
directories. -/
theorem itemAt_of_obstacle?_eq_none (clear : tree.obstacle? names pieces = none)
    (start : tree.itemAt names ≠ none) :
    tree.itemAt (placeFrom names pieces) ≠ none ∧
      ∀ place ∈ visited names pieces,
        place = placeFrom names pieces ∨ tree.itemAt place = some .directory := by
  induction pieces generalizing names with
  | nil => exact ⟨start, fun place here => .inl (List.mem_singleton.mp here)⟩
  | cons piece pieces ih =>
    rw [obstacle?] at clear
    split at clear
    · exact absurd clear (by simp)
    · rename_i here
      split at clear
      · exact absurd clear (by simp)
      · rename_i there
        obtain ⟨last, before⟩ := ih clear there
        refine ⟨last, fun place among => ?_⟩
        rcases List.mem_cons.mp among with rfl | among
        · exact .inr (Classical.not_not.mp here)
        · exact before place among

/-- If all places on the way are directories, then there is no obstacle. -/
theorem obstacle?_eq_none
    (way : ∀ place ∈ visited names pieces, tree.itemAt place = some .directory) :
    tree.obstacle? names pieces = none := by
  induction pieces generalizing names with
  | nil => rfl
  | cons piece pieces ih =>
    have first := way names List.mem_cons_self
    have others := fun place among => way place (List.mem_cons_of_mem names among)
    have next := others (stepFrom names piece) (by cases pieces <;> simp [visited])
    rw [obstacle?, if_neg (Classical.not_not.mpr first), if_neg (by rw [next]; simp)]
    exact ih others

/-- A place that is no directory, but has to be one, is a file. -/
theorem exists_file_of_notDirectory (start : tree.itemAt names ≠ none)
    (blocked : tree.obstacle? names pieces = some .notDirectory) :
    ∃ place ∈ visited names pieces, ∃ text, tree.itemAt place = some (.file text) := by
  induction pieces generalizing names with
  | nil => exact absurd blocked (by simp [obstacle?])
  | cons piece pieces ih =>
    rw [obstacle?] at blocked
    split at blocked
    · rename_i here
      refine ⟨names, List.mem_cons_self, ?_⟩
      cases item : tree.itemAt names with
      | none => exact absurd item start
      | some item' =>
        cases item' with
        | directory => exact absurd item here
        | file text => exact ⟨text, rfl⟩
    · split at blocked
      · exact absurd blocked (by simp)
      · rename_i there
        obtain ⟨place, among, text, file⟩ := ih there blocked
        exact ⟨place, List.mem_cons_of_mem names among, text, file⟩

theorem obstacle?_cases (tree : FileTree) (names : List String) (pieces : List (List Char)) :
    tree.obstacle? names pieces = none ∨ tree.obstacle? names pieces = some .notDirectory ∨
      tree.obstacle? names pieces = some .notFound := by
  induction pieces generalizing names with
  | nil => exact .inl rfl
  | cons piece pieces ih =>
    rw [obstacle?]
    split
    · exact .inr (.inl rfl)
    · split
      · exact .inr (.inr rfl)
      · exact ih _

/-! ### Retaining -/

theorem Retains.refl (tree : FileTree) : Retains tree tree :=
  ⟨fun _ here => here, fun _ text here => ⟨text, here⟩⟩

theorem Retains.trans (first : Retains tree tree') (second : Retains tree' tree'') :
    Retains tree tree'' := by
  refine ⟨fun names here => second.directory names (first.directory names here),
    fun names text here => ?_⟩
  obtain ⟨text', there⟩ := first.file names text here
  exact second.file names text' there

theorem Retains.itemAt_ne_none (retains : Retains tree tree') (here : tree.itemAt names ≠ none) :
    tree'.itemAt names ≠ none := by
  cases item : tree.itemAt names with
  | none => exact absurd item here
  | some item' =>
    cases item' with
    | directory => simp [retains.directory names item]
    | file text =>
      obtain ⟨text', there⟩ := retains.file names text item
      simp [there]

theorem Retains.obstacle?_eq_none (retains : Retains tree tree')
    (clear : tree.obstacle? names pieces = none) : tree'.obstacle? names pieces = none := by
  induction pieces generalizing names with
  | nil => rfl
  | cons piece pieces ih =>
    rw [obstacle?] at clear ⊢
    split at clear
    · exact absurd clear (by simp)
    · rename_i here
      split at clear
      · exact absurd clear (by simp)
      · rename_i there
        rw [if_neg (Classical.not_not.mpr (retains.directory names (Classical.not_not.mp here))),
          if_neg (retains.itemAt_ne_none there)]
        exact ih clear

theorem Retains.obstacle?_eq_notDirectory (retains : Retains tree tree')
    (start : tree.itemAt names ≠ none)
    (blocked : tree.obstacle? names pieces = some .notDirectory) :
    tree'.obstacle? names pieces = some .notDirectory := by
  induction pieces generalizing names with
  | nil => exact absurd blocked (by simp [obstacle?])
  | cons piece pieces ih =>
    rw [obstacle?] at blocked ⊢
    split at blocked
    · rename_i here
      rw [if_pos]
      intro there
      cases item : tree.itemAt names with
      | none => exact start item
      | some item' =>
        cases item' with
        | directory => exact here item
        | file text =>
          obtain ⟨text', file⟩ := retains.file names text item
          rw [file] at there
          exact absurd there (by simp)
    · rename_i here
      split at blocked
      · exact absurd blocked (by simp)
      · rename_i there
        rw [if_neg (Classical.not_not.mpr (retains.directory names (Classical.not_not.mp here))),
          if_neg (retains.itemAt_ne_none there)]
        exact ih there blocked

/-! ### Ways -/

/-- The nodes of a way are what the tree has at its places. -/
def Way.Sound (root : FileTree) : Way → Prop
  | [] => True
  | (name, node) :: way =>
    Way.Sound root way ∧ (Way.node root way).entries.lookup name = some node

theorem Way.names_cons (name : String) (node : FileTree) (way : Way) :
    Way.names ((name, node) :: way) = way.names ++ [name] := by
  simp [Way.names]

theorem Way.names_tail (way : Way) : Way.names way.tail = way.names.dropLast := by
  cases way with
  | nil => rfl
  | cons entry way =>
    rw [Way.names_cons, List.dropLast_concat]
    rfl

theorem Way.Sound.tail (sound : way.Sound tree) : Way.Sound tree way.tail := by
  cases way with
  | nil => trivial
  | cons entry way => exact sound.1

theorem Way.Sound.at?_names (sound : way.Sound tree) :
    tree.at? way.names = some (way.node tree) := by
  induction way with
  | nil => exact at?_nil tree
  | cons entry way ih =>
    obtain ⟨name, node⟩ := entry
    rw [Way.names_cons, at?_concat, ih sound.1]
    exact sound.2

theorem Way.Sound.itemAt_names (sound : way.Sound tree) :
    tree.itemAt way.names = some (way.node tree).item := by
  rw [itemAt, sound.at?_names, Option.map_some]

/-- One piece is followed as the items of the tree say. -/
theorem Way.Sound.step (sound : way.Sound tree) (piece : List Char) :
    match tree.obstacle? way.names [piece] with
    | some fault => way.step tree piece = .error fault
    | none => ∃ way', way.step tree piece = .ok way' ∧ way'.Sound tree ∧
        way'.names = stepFrom way.names piece := by
  have here := sound.itemAt_names
  rw [obstacle?_single, Way.step]
  cases inside : (way.node tree).isDirectory with
  | false =>
    have absent : tree.itemAt way.names ≠ some .directory := by
      rw [here]
      intro same
      rw [isDirectory_iff.mpr (Option.some.inj same)] at inside
      exact Bool.noConfusion inside
    rw [if_pos absent]
    rfl
  | true =>
    have present : tree.itemAt way.names = some .directory :=
      here.trans (congrArg some (isDirectory_iff.mp inside))
    rw [if_neg (Classical.not_not.mpr present)]
    rcases component?_cases piece with silent | up | down
    · rw [stepFrom_silent silent, present, silent]
      exact ⟨way, rfl, sound, rfl⟩
    · have there := sound.tail.itemAt_names
      rw [Way.names_tail] at there
      rw [stepFrom_parent up, there, up]
      exact ⟨way.tail, rfl, sound.tail, way.names_tail⟩
    · have below : tree.itemAt (way.names ++ [String.ofList piece]) =
          ((way.node tree).entries.lookup (String.ofList piece)).map item := by
        rw [itemAt, at?_concat, sound.at?_names, Option.bind_some]
      rw [stepFrom_name down, below, down]
      cases found : (way.node tree).entries.lookup (String.ofList piece) with
      | none => simp [found]
      | some node =>
        refine ⟨(String.ofList piece, node) :: way, ?_, ⟨sound, found⟩, Way.names_cons _ _ way⟩
        simp [found]

/-- Pieces are followed as the items of the tree say. -/
theorem Way.Sound.follow (sound : way.Sound tree) (pieces : List (List Char)) :
    match tree.obstacle? way.names pieces with
    | some fault => pieces.foldlM (Way.step tree) way = .error fault
    | none => ∃ way', pieces.foldlM (Way.step tree) way = .ok way' ∧ way'.Sound tree ∧
        way'.names = placeFrom way.names pieces := by
  induction pieces generalizing way with
  | nil => exact ⟨way, rfl, sound, rfl⟩
  | cons piece pieces ih =>
    have first := sound.step piece
    have split : tree.obstacle? way.names (piece :: pieces) =
        (tree.obstacle? way.names [piece]).or
          (tree.obstacle? (stepFrom way.names piece) pieces) :=
      obstacle?_append tree way.names [piece] pieces
    rw [split, List.foldlM_cons, placeFrom_cons]
    cases clear : tree.obstacle? way.names [piece] with
    | some fault =>
      rw [clear] at first
      simp only [Option.some_or]
      rw [first]
      rfl
    | none =>
      rw [clear] at first
      obtain ⟨way', stepped, sound', names⟩ := first
      have later := ih sound'
      rw [names] at later
      simp only [Option.none_or]
      rw [stepped]
      exact later

theorem followPieces_error (blocked : tree.obstacle? [] pieces = some fault) :
    tree.followPieces pieces = .error fault := by
  have start : Way.Sound tree [] := trivial
  have followed := start.follow pieces
  rw [show Way.names [] = [] from rfl, blocked] at followed
  exact followed

theorem followPieces_ok (clear : tree.obstacle? [] pieces = none) :
    ∃ way, tree.followPieces pieces = .ok way ∧ way.Sound tree ∧
      way.names = placeFrom [] pieces := by
  have start : Way.Sound tree [] := trivial
  have followed := start.follow pieces
  rw [show Way.names [] = [] from rfl, clear] at followed
  exact followed

/-! ### Reading -/

theorem piecesOf_eq (path : Path) :
    piecesOf path = if path.parts.lead = some .root then .ok path.parts.body
      else .error .notFound := by
  rw [piecesOf]
  split
  · rename_i same
    rw [same, if_pos rfl]
  · rename_i other
    rw [if_neg]
    intro lead
    exact other path.parts.body (by rw [← lead])

theorem get_of_obstacle (blocked : tree.obstacleTo? path = some fault) :
    tree.get path = .error fault := by
  rw [obstacleTo?] at blocked
  rw [get, follow, piecesOf_eq]
  split at blocked
  · rename_i lead
    rw [if_pos lead]
    change (tree.followPieces path.parts.body >>= fun way => pure (way.node tree)) = _
    rw [followPieces_error blocked]
    rfl
  · rename_i lead
    rw [if_neg lead, ← Option.some.inj blocked]
    rfl

theorem get_of_clear (clear : tree.obstacleTo? path = none) :
    ∃ node, tree.get path = .ok node ∧ tree.at? (placeOf path) = some node := by
  rw [obstacleTo?] at clear
  split at clear
  · rename_i lead
    obtain ⟨way, followed, sound, names⟩ := followPieces_ok clear
    refine ⟨way.node tree, ?_, ?_⟩
    · rw [get, follow, piecesOf_eq, if_pos lead]
      change (tree.followPieces path.parts.body >>= fun way => pure (way.node tree)) = _
      rw [followed]
      rfl
    · rw [placeOf, ← names]
      exact sound.at?_names
  · exact absurd clear (by simp)

theorem get_eq_ok_iff :
    tree.get path = .ok node ↔
      tree.obstacleTo? path = none ∧ tree.at? (placeOf path) = some node := by
  cases clear : tree.obstacleTo? path with
  | some fault => simp [get_of_obstacle clear]
  | none =>
    obtain ⟨node', got, there⟩ := get_of_clear clear
    simp [got, there]

theorem existsAt_iff : tree.existsAt path = true ↔ tree.obstacleTo? path = none := by
  rw [existsAt]
  cases clear : tree.obstacleTo? path with
  | some fault => simp [get_of_obstacle clear, Except.isOk, Except.toBool]
  | none =>
    obtain ⟨node, got, -⟩ := get_of_clear clear
    simp [got, Except.isOk, Except.toBool]

theorem isDirectoryAt_iff :
    tree.isDirectoryAt path = true ↔
      tree.obstacleTo? path = none ∧ tree.itemAt (placeOf path) = some .directory := by
  rw [isDirectoryAt]
  cases clear : tree.obstacleTo? path with
  | some fault => simp [get_of_obstacle clear]
  | none =>
    obtain ⟨node, got, there⟩ := get_of_clear clear
    simp [got, itemAt, there, isDirectory_iff]

/-- What reading a file comes to, as a function of the items of the tree. -/
theorem readText_eq (tree : FileTree) (path : Path) :
    tree.readText path =
      match tree.obstacleTo? path with
      | some fault => .error fault
      | none =>
        match tree.itemAt (placeOf path) with
        | some (.file (some text)) => .ok text
        | some (.file none) => .error .notText
        | _ => .error .isDirectory := by
  rw [readText]
  cases clear : tree.obstacleTo? path with
  | some fault =>
    rw [get_of_obstacle clear]
    rfl
  | none =>
    obtain ⟨node, got, there⟩ := get_of_clear clear
    rw [got, itemAt, there]
    cases node with
    | directory entries => rfl
    | file text => cases text <;> rfl

theorem existsAt_of_readText {text : String} (readable : tree.readText path = .ok text) :
    tree.existsAt path = true := by
  rw [existsAt_iff]
  rw [readText_eq] at readable
  cases clear : tree.obstacleTo? path with
  | none => rfl
  | some fault =>
    rw [clear] at readable
    exact absurd readable (by simp)

theorem exists_file_of_readText {text : String} (readable : tree.readText path = .ok text) :
    ∃ other, tree.itemAt (placeOf path) = some (.file other) := by
  rw [readText_eq] at readable
  split at readable
  · exact absurd readable (by simp)
  · split at readable
    · exact ⟨_, ‹_›⟩
    · exact ⟨_, ‹_›⟩
    · exact absurd readable (by simp)

theorem Retains.obstacleTo?_eq_none (retains : Retains tree tree')
    (clear : tree.obstacleTo? path = none) : tree'.obstacleTo? path = none := by
  rw [obstacleTo?] at clear ⊢
  split at clear
  · exact retains.obstacle?_eq_none clear
  · exact absurd clear (by simp)

theorem Retains.isDirectoryAt (retains : Retains tree tree')
    (there : tree.isDirectoryAt path = true) : tree'.isDirectoryAt path = true := by
  rw [isDirectoryAt_iff] at there ⊢
  exact ⟨retains.obstacleTo?_eq_none there.1, retains.directory _ there.2⟩

/-! ### From the directory of the process -/

theorem resolve_of_isAbsolute (absolute : path.isAbsolute = true) :
    tree.resolve directory path = .ok path := by
  rw [resolve, if_pos absolute]

theorem readTextFrom_of_isAbsolute (absolute : path.isAbsolute = true) :
    tree.readTextFrom directory path = tree.readText path := by
  rw [readTextFrom, resolve_of_isAbsolute absolute]
  rfl

theorem resolve_eq_ok_iff :
    tree.resolve directory path = .ok place ↔ place = directory ++ path ∧
      (path.isAbsolute = true ∨ path.text ≠ [] ∧ tree.isDirectoryAt directory = true) := by
  rw [resolve]
  split
  · rename_i absolute
    rw [Path.append_of_isAbsolute absolute, Except.ok.injEq, eq_comm]
    exact ⟨fun same => ⟨same, .inl absolute⟩, And.left⟩
  · rename_i relative
    split
    · rename_i nowhere
      refine ⟨fun resolved => absurd resolved (by simp), fun same => ?_⟩
      obtain ⟨inhabited, there⟩ := same.2.resolve_left relative
      simp [inhabited, there] at nowhere
    · rename_i somewhere
      rw [Except.ok.injEq, eq_comm]
      exact ⟨fun same => ⟨same, .inr (by simpa using somewhere)⟩, And.left⟩

/-- What a path stands for starts at the root. -/
theorem isAbsolute_of_resolve (resolved : tree.resolve directory path = .ok place) :
    place.isAbsolute = true := by
  obtain ⟨rfl, absolute | ⟨-, there⟩⟩ := resolve_eq_ok_iff.mp resolved
  · rwa [Path.append_of_isAbsolute absolute]
  · have clear := (isDirectoryAt_iff.mp there).1
    rw [obstacleTo?] at clear
    split at clear
    · exact Path.isAbsolute_append (Path.isAbsolute_of_lead ‹_›) path
    · exact absurd clear (by simp)

theorem Retains.resolve_eq_ok (retains : Retains tree tree')
    (resolved : tree.resolve directory path = .ok place) :
    tree'.resolve directory path = .ok place := by
  rw [resolve_eq_ok_iff] at resolved ⊢
  exact resolved.imp_right (Or.imp_right (And.imp_right retains.isDirectoryAt))

end Following

end FileTree

end MessageCatalog
