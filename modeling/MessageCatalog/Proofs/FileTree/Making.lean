import MessageCatalog.Proofs.FileTree.Following
import MessageCatalog.Proofs.Path.Steps

/-!
# Making directories and writing files

Making directories adds directories on the way that a path takes and changes nothing else,
whether it succeeds or not. It fails exactly if a file is on this way; where directories are
missing does not matter. If the path goes down only, then nothing is made before the file is
met, and the fault depends on where it is.

Writing a file puts it where the path leads to, unless a directory is there.
-/

namespace MessageCatalog

namespace FileTree

open MessageCatalog.Path (isSilent spoken)

/-- Directories were made, one after the other, at places of some kind where nothing was. -/
inductive Furnishes (allowed : List String → Prop) : FileTree → FileTree → Prop
  | refl (tree : FileTree) : Furnishes allowed tree tree
  | make {tree tree' : FileTree} {names : List String} {name : String} :
    tree.itemAt names = some .directory → tree.itemAt (names ++ [name]) = none →
    allowed (names ++ [name]) → Furnishes allowed (tree.put (names ++ [name]) empty) tree' →
    Furnishes allowed tree tree'

/-- What is at a place is as it was before, or a directory was made where nothing was. -/
def KeptAt (tree after : FileTree) (names : List String) : Prop :=
  after.itemAt names = tree.itemAt names ∨
    tree.itemAt names = none ∧ after.itemAt names = some .directory

/-- The places that a path leads through before its last piece. -/
def wayTo (path : Path) : List (List String) :=
  visited [] path.parts.body.dropLast

section Making

variable {tree tree' tree'' : FileTree} {path : Path} {names place : List String}
  {allowed allowed' : List String → Prop} {front body pieces others : List (List Char)}
  {last : List Char} {fault special : Fault} {n : Nat}

/-! ### Places and spoken pieces -/

theorem stepFrom_of_isSilent (silent : isSilent last = true) (names : List String) :
    stepFrom names last = names :=
  stepFrom_silent (Path.isSilent_iff.mp silent) names

theorem placeFrom_spoken (names : List String) (pieces : List (List Char)) :
    placeFrom names (spoken pieces) = placeFrom names pieces := by
  induction pieces generalizing names with
  | nil => rfl
  | cons piece pieces ih =>
    cases silent : isSilent piece with
    | true =>
      rw [Path.spoken_cons_silent silent, placeFrom_cons, stepFrom_of_isSilent silent, ih]
    | false => rw [Path.spoken_cons_spoken silent, placeFrom_cons, placeFrom_cons, ih]

theorem mem_visited_spoken :
    place ∈ visited names (spoken pieces) ↔ place ∈ visited names pieces := by
  induction pieces generalizing names with
  | nil => rfl
  | cons piece pieces ih =>
    cases silent : isSilent piece with
    | true =>
      rw [Path.spoken_cons_silent silent, ih, visited, stepFrom_of_isSilent silent,
        List.mem_cons]
      refine ⟨.inr, fun either => either.elim (fun first => ?_) id⟩
      cases pieces <;> simp [visited, first]
    | false => rw [Path.spoken_cons_spoken silent, visited, visited, List.mem_cons,
        List.mem_cons, ih]

theorem mem_visited_congr (same : spoken pieces = spoken others) :
    place ∈ visited names pieces ↔ place ∈ visited names others := by
  rw [← mem_visited_spoken, same, mem_visited_spoken]

theorem placeOf_eq (path : Path) : placeOf path = placeFrom [] path.steps :=
  (placeFrom_spoken [] path.parts.body).symm

/-- The places on the way to a last piece are those on the way to the piece before it, and
the last place. -/
theorem mem_visited_concat :
    place ∈ visited names (pieces ++ [last]) ↔
      place ∈ visited names pieces ∨ place = placeFrom names (pieces ++ [last]) := by
  have final : placeFrom names (pieces ++ [last]) = stepFrom (placeFrom names pieces) last :=
    placeFrom_append names pieces [last]
  rw [mem_visited_append, final, visited, visited, List.mem_cons, List.mem_singleton]
  constructor
  · rintro (before | rfl | there)
    · exact .inl before
    · exact .inl (placeFrom_mem_visited names pieces)
    · exact .inr there
  · exact fun either => either.imp_right .inr

/-! ### Furnishing -/

theorem Furnishes.trans (first : Furnishes allowed tree tree')
    (second : Furnishes allowed tree' tree'') : Furnishes allowed tree tree'' := by
  induction first with
  | refl tree => exact second
  | make there free fits _ ih => exact .make there free fits (ih second)

theorem Furnishes.mono (furnishes : Furnishes allowed tree tree')
    (wider : ∀ place, allowed place → allowed' place) : Furnishes allowed' tree tree' := by
  induction furnishes with
  | refl tree => exact .refl tree
  | make there free fits _ ih => exact .make there free (wider _ fits) ih

theorem itemAt_put_empty {name : String} (there : tree.itemAt names = some .directory)
    (free : tree.itemAt (names ++ [name]) = none) (place : List String) :
    (tree.put (names ++ [name]) empty).itemAt place =
      if place = names ++ [name] then some .directory else tree.itemAt place :=
  itemAt_put there (by rw [free]; simp) rfl place

theorem Furnishes.itemAt (furnishes : Furnishes allowed tree tree') (place : List String) :
    tree'.itemAt place = tree.itemAt place ∨
      tree.itemAt place = none ∧ tree'.itemAt place = some .directory ∧ allowed place := by
  induction furnishes with
  | refl tree => exact .inl rfl
  | @make tree tree' names name there free fits _ ih =>
    rw [itemAt_put_empty there free] at ih
    by_cases same : place = names ++ [name]
    · rw [if_pos same] at ih
      rcases ih with kept | ⟨missing, -⟩
      · exact .inr ⟨same ▸ free, kept, same ▸ fits⟩
      · exact absurd missing (by simp)
    · rwa [if_neg same] at ih

theorem KeptAt.refl (tree : FileTree) (names : List String) : KeptAt tree tree names :=
  .inl rfl

theorem Furnishes.keptAt (furnishes : Furnishes allowed tree tree') (place : List String) :
    KeptAt tree tree' place :=
  (furnishes.itemAt place).imp id fun made => ⟨made.1, made.2.1⟩

theorem Furnishes.itemAt_eq (furnishes : Furnishes allowed tree tree')
    (here : tree.itemAt place ≠ none) : tree'.itemAt place = tree.itemAt place :=
  (furnishes.itemAt place).resolve_right fun made => here made.1

theorem Furnishes.file_iff {text : Option String} (furnishes : Furnishes allowed tree tree') :
    tree'.itemAt place = some (.file text) ↔ tree.itemAt place = some (.file text) := by
  rcases furnishes.itemAt place with kept | ⟨free, made, -⟩
  · rw [kept]
  · rw [free, made]
    simp

theorem Furnishes.retains (furnishes : Furnishes allowed tree tree') : Retains tree tree' := by
  refine ⟨fun names here => ?_, fun names text here => ⟨text, ?_⟩⟩
  · rw [furnishes.itemAt_eq (by rw [here]; simp), here]
  · rw [furnishes.itemAt_eq (by rw [here]; simp), here]

/-- Where everything is there already, nothing is made. -/
theorem Furnishes.eq_of_forall (furnishes : Furnishes allowed tree tree')
    (there : ∀ place, allowed place → tree.itemAt place ≠ none) : tree' = tree := by
  cases furnishes with
  | refl => rfl
  | make _ free fits _ => exact absurd free (there _ fits)

/-! ### One directory -/

theorem dropEmptyEnd_concat (loud : isSilent last = false) (front : List (List Char)) :
    dropEmptyEnd (front ++ [last]) = front ++ [last] := by
  have some : last.isEmpty = false := by
    cases last with
    | nil => exact absurd loud (by decide)
    | cons c s => rfl
  rw [dropEmptyEnd, List.reverse_concat, List.dropWhile_cons_of_neg (by simp [some]),
    List.reverse_cons, List.reverse_reverse]

theorem followParent_concat (tree : FileTree) (special : Fault) (front : List (List Char))
    (last : List Char) :
    tree.followParent special (front ++ [last]) = (do
      let way ← tree.followPieces front
      if !(way.node tree).isDirectory then throw .notDirectory
      match Path.component? last with
      | some (.name _) => return (way, String.ofList last)
      | _ => throw special) := by
  rewrite [followParent, List.getLast?_concat, List.dropLast_concat]
  rfl

theorem followParent_of_obstacle (blocked : tree.obstacle? [] front = some fault) :
    tree.followParent special (front ++ [last]) = .error fault := by
  rw [followParent_concat, followPieces_error blocked]
  rfl

theorem followParent_of_file (clear : tree.obstacle? [] front = none)
    (inside : tree.itemAt (placeFrom [] front) ≠ some .directory) :
    tree.followParent special (front ++ [last]) = .error .notDirectory := by
  obtain ⟨way, followed, sound, names⟩ := followPieces_ok clear
  have outside : (way.node tree).isDirectory = false := by
    rw [← Bool.not_eq_true, isDirectory_iff]
    intro same
    exact inside (by rw [← names, sound.itemAt_names, same])
  rw [followParent_concat, followed]
  simp only [bind, Except.bind, outside]
  rfl

theorem followParent_of_parent (clear : tree.obstacle? [] front = none)
    (inside : tree.itemAt (placeFrom [] front) = some .directory)
    (up : Path.component? last = some .parent) :
    tree.followParent special (front ++ [last]) = .error special := by
  obtain ⟨way, followed, sound, names⟩ := followPieces_ok clear
  rw [← names, sound.itemAt_names, Option.some.injEq] at inside
  rw [followParent_concat, followed]
  simp only [bind, Except.bind, isDirectory_iff.mpr inside, up]
  rfl

theorem followParent_of_name (special : Fault) (clear : tree.obstacle? [] front = none)
    (inside : tree.itemAt (placeFrom [] front) = some .directory)
    (down : Path.component? last = some (.name last)) :
    ∃ way, tree.followParent special (front ++ [last]) = .ok (way, String.ofList last) ∧
      way.names = placeFrom [] front ∧
      ((way.node tree).entries.lookup (String.ofList last)).map item =
        tree.itemAt (placeFrom [] front ++ [String.ofList last]) := by
  obtain ⟨way, followed, sound, names⟩ := followPieces_ok clear
  refine ⟨way, ?_, names, ?_⟩
  · rw [← names, sound.itemAt_names, Option.some.injEq] at inside
    rw [followParent_concat, followed]
    simp only [bind, Except.bind, isDirectory_iff.mpr inside, down]
    rfl
  · rw [FileTree.itemAt, at?_concat, ← names, sound.at?_names, Option.bind_some]

/-- What decides how a directory is made is the first piece that cannot be followed. -/
theorem makeDirectory_of_clear (parts : path.parts = ⟨some .root, front ++ [last]⟩)
    (loud : isSilent last = false) (clear : tree.obstacle? [] (front ++ [last]) = none) :
    tree.makeDirectory path = .error .alreadyExists := by
  rw [obstacle?_append, Option.or_eq_none_iff, obstacle?_single] at clear
  obtain ⟨clear, final⟩ := clear
  have inside : tree.itemAt (placeFrom [] front) = some .directory := by
    apply Classical.byContradiction
    intro outside
    rw [if_pos outside] at final
    exact absurd final (by simp)
  rw [if_neg (Classical.not_not.mpr inside)] at final
  rw [makeDirectory, piecesOf_eq, parts]
  simp only [if_true, bind, Except.bind, dropEmptyEnd_concat loud]
  rcases Path.component?_of_spoken loud with ⟨up, -⟩ | down
  · rw [followParent_of_parent clear inside up]
  · obtain ⟨way, followed, names, entry⟩ :=
      followParent_of_name .alreadyExists clear inside down
    rw [stepFrom_name down, ← entry] at final
    rw [followed]
    simp only
    cases found : (way.node tree).entries.lookup (String.ofList last) with
    | none => simp [found] at final
    | some node => rfl

theorem makeDirectory_of_file (parts : path.parts = ⟨some .root, front ++ [last]⟩)
    (loud : isSilent last = false)
    (blocked : tree.obstacle? [] (front ++ [last]) = some .notDirectory) :
    tree.makeDirectory path = .error .notDirectory := by
  rw [makeDirectory, piecesOf_eq, parts]
  simp only [if_true, bind, Except.bind, dropEmptyEnd_concat loud]
  rw [obstacle?_append] at blocked
  cases before : tree.obstacle? [] front with
  | some fault =>
    rw [before, Option.some_or] at blocked
    rw [followParent_of_obstacle before, Option.some.inj blocked]
  | none =>
    rw [before, Option.none_or, obstacle?_single] at blocked
    have outside : tree.itemAt (placeFrom [] front) ≠ some .directory := by
      intro inside
      rw [if_neg (Classical.not_not.mpr inside)] at blocked
      split at blocked <;> exact absurd blocked (by simp)
    rw [followParent_of_file before outside]

theorem makeDirectory_of_missing_before (parts : path.parts = ⟨some .root, front ++ [last]⟩)
    (loud : isSilent last = false) (missing : tree.obstacle? [] front = some .notFound) :
    tree.makeDirectory path = .error .notFound := by
  rw [makeDirectory, piecesOf_eq, parts]
  simp only [if_true, bind, Except.bind, dropEmptyEnd_concat loud]
  rw [followParent_of_obstacle missing]

theorem makeDirectory_of_missing (parts : path.parts = ⟨some .root, front ++ [last]⟩)
    (loud : isSilent last = false) (before : tree.obstacle? [] front = none)
    (missing : tree.obstacle? [] (front ++ [last]) = some .notFound) :
    placeFrom [] (front ++ [last]) = placeFrom [] front ++ [String.ofList last] ∧
      tree.itemAt (placeFrom [] front) = some .directory ∧
      tree.itemAt (placeFrom [] front ++ [String.ofList last]) = none ∧
      tree.makeDirectory path =
        .ok (tree.put (placeFrom [] front ++ [String.ofList last]) empty) := by
  rw [obstacle?_append, before, Option.none_or, obstacle?_single] at missing
  have inside : tree.itemAt (placeFrom [] front) = some .directory := by
    apply Classical.byContradiction
    intro outside
    rw [if_pos outside] at missing
    exact absurd missing (by simp)
  rw [if_neg (Classical.not_not.mpr inside)] at missing
  rcases Path.component?_of_spoken loud with ⟨up, rfl⟩ | down
  · -- The parent of a directory is always there.
    rw [stepFrom_parent up, if_neg] at missing
    · exact absurd missing (by simp)
    · intro absent
      rcases List.eq_nil_or_concat (placeFrom [] front) with root | ⟨above, name, below⟩
      · rw [root, List.dropLast_nil, itemAt_nil] at absent
        exact absurd absent (by simp)
      · rw [below, List.concat_eq_append] at inside absent
        rw [List.dropLast_concat, itemAt_of_below (by rw [inside]; simp)] at absent
        exact absurd absent (by simp)
  · have free : tree.itemAt (placeFrom [] front ++ [String.ofList last]) = none := by
      apply Classical.byContradiction
      intro taken
      rw [stepFrom_name down, if_neg taken] at missing
      exact absurd missing (by simp)
    refine ⟨by rw [placeFrom_append, placeFrom_cons, placeFrom_nil, stepFrom_name down],
      inside, free, ?_⟩
    rw [makeDirectory, piecesOf_eq, parts]
    simp only [if_true, bind, Except.bind, dropEmptyEnd_concat loud]
    obtain ⟨way, followed, names, entry⟩ :=
      followParent_of_name .alreadyExists before inside down
    rw [free, Option.map_eq_none_iff] at entry
    rw [followed]
    simp only [entry, names]
    rfl

/-! ### All directories on the way -/

/-- A body that a path can have after silent pieces were dropped from its end: nothing is
left, or the last piece is spoken. -/
def Neat (body : List (List Char)) : Prop :=
  body = [[]] ∨ ∃ front last, body = front ++ [last] ∧ isSilent last = false

/-- What making directories along the pieces of a path comes to: either all places on the
way are directories now, or a file is on the way. In both cases only directories on the way
were made. -/
inductive Furnished (tree : FileTree) (body : List (List Char)) :
    FileTree × Except Fault Unit → Prop
  | done {tree' : FileTree} : Furnishes (· ∈ visited [] body) tree tree' →
    (∀ place ∈ visited [] body, tree'.itemAt place = some .directory) →
    Furnished tree body (tree', .ok ())
  | blocked {tree' : FileTree} {fault : Fault} {place : List String} {text : Option String} :
    Furnishes (· ∈ visited [] body) tree tree' → place ∈ visited [] body →
    tree.itemAt place = some (.file text) → Furnished tree body (tree', .error fault)

theorem Furnished.after {outcome : FileTree × Except Fault Unit}
    (furnishes : Furnishes (· ∈ visited [] body) tree tree')
    (furnished : Furnished tree' body outcome) : Furnished tree body outcome := by
  cases furnished with
  | done later way => exact .done (furnishes.trans later) way
  | blocked later among file =>
    exact .blocked (furnishes.trans later) among (furnishes.file_iff.mp file)

theorem parts_parent (plain : ∀ piece ∈ front, Path.separator ∉ piece) :
    ∃ body, (Path.Parts.path ⟨some .root, Path.trimEnd front⟩).parts = ⟨some .root, body⟩ ∧
      Neat body ∧ spoken body = spoken front ∧ body.length ≤ front.length + 1 ∧
      (front ≠ [] → body.length ≤ front.length) := by
  have shorter := (Path.trimEnd_isPrefix front).length_le
  refine ⟨_, Path.parts_root fun piece among => plain piece (Path.mem_of_mem_trimEnd among),
    ?_, ?_, ?_, ?_⟩
  · split
    · exact .inl rfl
    · rename_i some
      exact .inr ((Path.trimEnd_cases front).resolve_left some)
  · split
    · rename_i empty
      rw [← Path.spoken_trimEnd front, empty]
      rfl
    · exact Path.spoken_trimEnd front
  · split
    · simp
    · omega
  · intro some
    have positive := List.length_pos_iff.mpr some
    split
    · exact positive
    · exact shorter

theorem makeDirectories_of_ok (made : tree.makeDirectory path = .ok tree') (n : Nat) :
    tree.makeDirectories (n + 1) path = (tree', .ok ()) := by
  rw [makeDirectories, made]

/-- A fault other than a missing directory is none if the directory is there already. -/
theorem makeDirectories_of_error (failed : tree.makeDirectory path = .error fault)
    (other : fault ≠ .notFound) (n : Nat) :
    tree.makeDirectories (n + 1) path =
      (tree, if tree.isDirectoryAt path then .ok () else .error fault) := by
  rw [makeDirectories, failed]
  cases fault with
  | notFound => exact absurd rfl other
  | alreadyExists => rfl
  | notDirectory => rfl
  | isDirectory => rfl
  | notText => rfl

theorem makeDirectories_of_missing {parent : Path}
    (missing : tree.makeDirectory path = .error .notFound) (above : path.parent? = some parent)
    (n : Nat) :
    tree.makeDirectories (n + 1) path =
      match tree.makeDirectories n parent with
      | (tree, .error fault) => (tree, .error fault)
      | (tree, .ok ()) =>
        match tree.makeDirectory path with
        | .ok tree => (tree, .ok ())
        | .error fault => (tree, if tree.isDirectoryAt path then .ok () else .error fault) := by
  rewrite [makeDirectories, missing]
  dsimp only
  rewrite [above]
  rfl

theorem isDirectoryAt_iff_of_clear (parts : path.parts = ⟨some .root, body⟩)
    (clear : tree.obstacle? [] body = none) :
    tree.isDirectoryAt path = true ↔ tree.itemAt (placeFrom [] body) = some .directory := by
  rw [isDirectoryAt_iff, obstacleTo?, placeOf, parts]
  simp [clear]

theorem isDirectoryAt_of_obstacle (parts : path.parts = ⟨some .root, body⟩)
    (blocked : tree.obstacle? [] body = some fault) : tree.isDirectoryAt path = false := by
  rw [← Bool.not_eq_true, isDirectoryAt_iff, obstacleTo?, parts]
  simp [blocked]

theorem exists_file_of_not_directory (here : tree.itemAt place ≠ none)
    (other : tree.itemAt place ≠ some .directory) :
    ∃ text, tree.itemAt place = some (.file text) := by
  cases seen : tree.itemAt place with
  | none => exact absurd seen here
  | some found =>
    cases found with
    | directory => exact absurd seen other
    | file text => exact ⟨text, rfl⟩

/-- If the whole way is there, then it depends on the last place only. -/
theorem furnished_of_clear (parts : path.parts = ⟨some .root, body⟩)
    (clear : tree.obstacle? [] body = none) (fault : Fault) :
    Furnished tree body
      (tree, if tree.isDirectoryAt path then .ok () else .error fault) := by
  obtain ⟨there, before⟩ := itemAt_of_obstacle?_eq_none clear (by rw [itemAt_nil]; simp)
  by_cases inside : tree.itemAt (placeFrom [] body) = some .directory
  · rw [if_pos ((isDirectoryAt_iff_of_clear parts clear).mpr inside)]
    refine .done (.refl tree) fun place among => ?_
    rcases before place among with rfl | directory
    · exact inside
    · exact directory
  · rw [if_neg fun made => inside ((isDirectoryAt_iff_of_clear parts clear).mp made)]
    obtain ⟨text, file⟩ := exists_file_of_not_directory there inside
    exact .blocked (.refl tree) (placeFrom_mem_visited [] body) file

theorem furnished_of_file (parts : path.parts = ⟨some .root, body⟩)
    (blocked : tree.obstacle? [] body = some .notDirectory) (fault : Fault) :
    Furnished tree body
      (tree, if tree.isDirectoryAt path then .ok () else .error fault) := by
  obtain ⟨place, among, text, file⟩ :=
    exists_file_of_notDirectory (by rw [itemAt_nil]; simp) blocked
  rw [isDirectoryAt_of_obstacle parts blocked]
  exact .blocked (.refl tree) among file

/-- Once the directories before the last one are there, the last one can be made, unless a
file is there. -/
theorem furnished_last (parts : path.parts = ⟨some .root, front ++ [last]⟩)
    (loud : isSilent last = false)
    (before : ∀ place ∈ visited [] front, tree.itemAt place = some .directory) :
    Furnished tree (front ++ [last])
      (match tree.makeDirectory path with
        | .ok tree => (tree, .ok ())
        | .error fault =>
          (tree, if tree.isDirectoryAt path then .ok () else .error fault)) := by
  have clear := obstacle?_eq_none before
  rcases obstacle?_cases tree [] (front ++ [last]) with none | file | missing
  · rw [makeDirectory_of_clear parts loud none]
    exact furnished_of_clear parts none _
  · rw [makeDirectory_of_file parts loud file]
    exact furnished_of_file parts file _
  · obtain ⟨final, inside, free, made⟩ := makeDirectory_of_missing parts loud clear missing
    rw [made]
    have among : placeFrom [] front ++ [String.ofList last] ∈ visited [] (front ++ [last]) :=
      mem_visited_concat.mpr (.inr final.symm)
    refine .done (.make inside free among (.refl _)) fun place there => ?_
    rw [itemAt_put_empty inside free]
    split
    · rfl
    · rename_i other
      rw [← final] at other
      exact before place ((mem_visited_concat.mp there).resolve_right other)

/-- The root is there always. -/
theorem furnished_root (parts : path.parts = ⟨some .root, [[]]⟩) (n : Nat) :
    Furnished tree [[]] (tree.makeDirectories (n + 1) path) := by
  have failed : tree.makeDirectory path = .error .alreadyExists := by
    rw [makeDirectory, piecesOf_eq, parts]
    rfl
  rw [makeDirectories_of_error failed (by simp)]
  rcases obstacle?_cases tree [] [[]] with none | file | missing
  · exact furnished_of_clear parts none _
  · exact furnished_of_file parts file _
  · rw [obstacle?_single, stepFrom_of_isSilent rfl, itemAt_nil] at missing
    split at missing <;> exact absurd missing (by simp)

/-- Only the last directory has to be made. -/
theorem furnished_next (parts : path.parts = ⟨some .root, front ++ [last]⟩)
    (loud : isSilent last = false) (before : tree.obstacle? [] front = none)
    (missing : tree.obstacle? [] (front ++ [last]) = some .notFound) (n : Nat) :
    Furnished tree (front ++ [last]) (tree.makeDirectories (n + 1) path) := by
  obtain ⟨-, inside, -, made⟩ := makeDirectory_of_missing parts loud before missing
  obtain ⟨-, way⟩ := itemAt_of_obstacle?_eq_none before (by rw [itemAt_nil]; simp)
  have furnished := furnished_last parts loud fun place among =>
    (way place among).elim (fun same => same ▸ inside) id
  rw [makeDirectories_of_ok made]
  rwa [made] at furnished

/-- The way to the last directory is made first. -/
theorem furnished_above (parts : path.parts = ⟨some .root, front ++ [last]⟩)
    (loud : isSilent last = false) (missing : tree.obstacle? [] front = some .notFound)
    (same : spoken body = spoken front)
    (first : Furnished tree body
      (tree.makeDirectories n (Path.Parts.path ⟨some .root, Path.trimEnd front⟩))) :
    Furnished tree (front ++ [last]) (tree.makeDirectories (n + 1) path) := by
  rw [makeDirectories_of_missing (makeDirectory_of_missing_before parts loud missing)
    (Path.parent?_of_parts parts loud)]
  have wider : ∀ place ∈ visited [] body, place ∈ visited [] (front ++ [last]) :=
    fun place among => mem_visited_concat.mpr (.inl ((mem_visited_congr same).mp among))
  generalize tree.makeDirectories n (Path.Parts.path ⟨some .root, Path.trimEnd front⟩) =
    outcome at first ⊢
  cases first with
  | done furnishes way =>
    have before := fun place among => way place ((mem_visited_congr same).mpr among)
    exact (furnished_last parts loud before).after (furnishes.mono wider)
  | blocked furnishes among file =>
    exact .blocked (furnishes.mono wider) (wider _ among) file

theorem makeDirectories_furnished (parts : path.parts = ⟨some .root, body⟩) (neat : Neat body)
    (enough : body.length ≤ n) : Furnished tree body (tree.makeDirectories n path) := by
  induction n generalizing path body with
  | zero => rcases neat with rfl | ⟨front, last, rfl, -⟩ <;> simp at enough
  | succ n ih =>
    rcases neat with rfl | ⟨front, last, rfl, loud⟩
    · exact furnished_root parts n
    · rcases obstacle?_cases tree [] (front ++ [last]) with none | file | missing
      · rw [makeDirectories_of_error (makeDirectory_of_clear parts loud none) (by simp)]
        exact furnished_of_clear parts none _
      · rw [makeDirectories_of_error (makeDirectory_of_file parts loud file) (by simp)]
        exact furnished_of_file parts file _
      · rcases obstacle?_cases tree [] front with before | file | missing'
        · exact furnished_next parts loud before missing n
        · rw [obstacle?_append, file, Option.some_or] at missing
          exact absurd missing (by simp)
        · have longer : front ≠ [] := by
            rintro rfl
            exact absurd missing' (by simp [obstacle?])
          have plain : ∀ piece ∈ front, Path.separator ∉ piece := by
            intro piece among
            have inside : piece ∈ path.parts.body := by
              rw [parts]
              exact List.mem_append_left _ among
            exact Path.separator_not_mem_of_mem_body inside
          obtain ⟨body, parts', neat, same, -, shorter⟩ := parts_parent plain
          have fewer : body.length ≤ n := by
            have bound := shorter longer
            rw [List.length_append, List.length_singleton] at enough
            omega
          exact furnished_above parts loud missing' same (ih parts' neat fewer)

/-! ### Ways that go down only -/

theorem placeFrom_of_names (down : ∀ piece ∈ pieces, Path.component? piece = some (.name piece))
    (names : List String) : placeFrom names pieces = names ++ pieces.map String.ofList := by
  induction pieces generalizing names with
  | nil => rw [placeFrom_nil, List.map_nil, List.append_nil]
  | cons piece pieces ih =>
    rw [placeFrom_cons, stepFrom_name (down piece List.mem_cons_self),
      ih fun other among => down other (List.mem_cons_of_mem piece among), List.map_cons,
      List.append_assoc, List.singleton_append]

theorem mem_visited_of_names
    (down : ∀ piece ∈ pieces, Path.component? piece = some (.name piece)) :
    place ∈ visited names pieces ↔
      ∃ front, front <+: pieces ∧ place = names ++ front.map String.ofList := by
  induction pieces generalizing names with
  | nil =>
    rw [visited, List.mem_singleton]
    refine ⟨fun here => ⟨[], List.nil_prefix, ?_⟩, ?_⟩
    · rw [here, List.map_nil, List.append_nil]
    · rintro ⟨front, start, rfl⟩
      rw [List.prefix_nil.mp start, List.map_nil, List.append_nil]
  | cons piece pieces ih =>
    rw [visited, List.mem_cons, stepFrom_name (down piece List.mem_cons_self),
      ih fun other among => down other (List.mem_cons_of_mem piece among)]
    constructor
    · rintro (rfl | ⟨front, start, rfl⟩)
      · exact ⟨[], List.nil_prefix, by rw [List.map_nil, List.append_nil]⟩
      · refine ⟨piece :: front, (List.prefix_cons_inj piece).mpr start, ?_⟩
        rw [List.map_cons, List.append_assoc, List.singleton_append]
    · rintro ⟨front, start, rfl⟩
      cases front with
      | nil => exact .inl (by rw [List.map_nil, List.append_nil])
      | cons first front =>
        obtain ⟨rfl, start'⟩ := List.cons_prefix_cons.mp start
        refine .inr ⟨front, start', ?_⟩
        rw [List.map_cons, List.append_assoc, List.singleton_append]

theorem isPrefix_of_mem_visited (down : ∀ piece ∈ pieces, Path.component? piece ≠ some .parent)
    (among : place ∈ visited names pieces) : names <+: place := by
  induction pieces generalizing names with
  | nil => exact List.mem_singleton.mp among ▸ List.prefix_refl names
  | cons piece pieces ih =>
    rcases List.mem_cons.mp among with rfl | among
    · exact List.prefix_refl place
    · have later := ih (fun other there => down other (List.mem_cons_of_mem piece there)) among
      rcases component?_cases piece with silent | up | name
      · rwa [stepFrom_silent silent] at later
      · exact absurd up (down piece List.mem_cons_self)
      · rw [stepFrom_name name] at later
        exact (List.prefix_append _ _).trans later

theorem prefix_placeFrom_of_mem_visited
    (down : ∀ piece ∈ pieces, Path.component? piece ≠ some .parent)
    (among : place ∈ visited names pieces) : place <+: placeFrom names pieces := by
  induction pieces generalizing names with
  | nil => exact List.mem_singleton.mp among ▸ List.prefix_refl names
  | cons piece pieces ih =>
    have down' := fun other there => down other (List.mem_cons_of_mem piece there)
    rcases List.mem_cons.mp among with rfl | among
    · have start := isPrefix_of_mem_visited down (placeFrom_mem_visited place (piece :: pieces))
      exact start
    · exact ih down' among

/-- On a way that goes down only, nothing is missing before something that is there. -/
theorem obstacle?_ne_notFound (down : ∀ piece ∈ pieces, Path.component? piece ≠ some .parent)
    {text : Option String} (among : place ∈ visited names pieces)
    (file : tree.itemAt place = some (.file text)) :
    tree.obstacle? names pieces ≠ some .notFound := by
  induction pieces generalizing names with
  | nil => simp [obstacle?]
  | cons piece pieces ih =>
    have down' := fun other there => down other (List.mem_cons_of_mem piece there)
    rw [obstacle?]
    split
    · simp
    · rename_i inside
      have later : place ∈ visited (stepFrom names piece) pieces := by
        rcases List.mem_cons.mp among with rfl | later
        · rw [Classical.not_not.mp inside] at file
          exact absurd file (by simp)
        · exact later
      split
      · rename_i missing
        have below := isPrefix_of_mem_visited down' later
        by_cases same : stepFrom names piece = place
        · rw [same, file] at missing
          exact absurd missing (by simp)
        · rw [itemAt_of_isPrefix (by rw [file]; simp) below same] at missing
          exact absurd missing (by simp)
      · exact ih down' later

/-- A file on a way that goes down only prevents directories from being made, with the same
fault in all trees that retain the file, and before anything is made. -/
theorem makeDirectories_of_file (parts : path.parts = ⟨some .root, body⟩) (neat : Neat body)
    (down : ∀ piece ∈ body, Path.component? piece ≠ some .parent) {text : Option String}
    (among : place ∈ visited [] body) (file : tree.itemAt place = some (.file text)) :
    ∃ fault, ∀ tree' n, Retains tree tree' →
      tree'.makeDirectories (n + 1) path = (tree', .error fault) := by
  have start : tree.itemAt [] ≠ none := by
    rw [itemAt_nil]
    simp
  rcases neat with rfl | ⟨front, last, rfl, loud⟩
  · refine ⟨.alreadyExists, fun tree' n retains => ?_⟩
    have failed : tree'.makeDirectory path = .error .alreadyExists := by
      rw [makeDirectory, piecesOf_eq, parts]
      rfl
    have root : place = [] := by
      rw [visited, stepFrom_of_isSilent rfl, visited] at among
      simpa using among
    obtain ⟨text', file'⟩ := retains.file place text file
    rw [makeDirectories_of_error failed (by simp), if_neg]
    intro inside
    have there := (isDirectoryAt_iff.mp inside).2
    rw [placeOf, parts, placeFrom_cons, stepFrom_of_isSilent rfl, placeFrom_nil, ← root,
      file'] at there
    exact absurd there (by simp)
  · rcases obstacle?_cases tree [] (front ++ [last]) with clear | blocked | missing
    · obtain ⟨-, before⟩ := itemAt_of_obstacle?_eq_none clear start
      have final : place = placeFrom [] (front ++ [last]) := by
        refine (before place among).resolve_right fun inside => ?_
        rw [file] at inside
        exact absurd inside (by simp)
      refine ⟨.alreadyExists, fun tree' n retains => ?_⟩
      obtain ⟨text', file'⟩ := retains.file place text file
      have clear' := retains.obstacle?_eq_none clear
      rw [makeDirectories_of_error (makeDirectory_of_clear parts loud clear') (by simp), if_neg]
      intro inside
      have there := (isDirectoryAt_iff_of_clear parts clear').mp inside
      rw [← final, file'] at there
      exact absurd there (by simp)
    · refine ⟨.notDirectory, fun tree' n retains => ?_⟩
      have blocked' := retains.obstacle?_eq_notDirectory start blocked
      rw [makeDirectories_of_error (makeDirectory_of_file parts loud blocked') (by simp),
        isDirectoryAt_of_obstacle parts blocked']
      rfl
    · exact absurd missing (obstacle?_ne_notFound down among file)

/-! ### Files -/

/-- Where the way is there, writing only depends on whether a directory is in the place. -/
theorem writeText_eq (parts : path.parts = ⟨some .root, front ++ [last]⟩)
    (down : Path.component? last = some (.name last))
    (way : ∀ place ∈ visited [] front, tree.itemAt place = some .directory) (text : String) :
    tree.writeText path text =
      if tree.itemAt (placeFrom [] front ++ [String.ofList last]) = some .directory then
        .error .isDirectory
      else .ok (tree.put (placeFrom [] front ++ [String.ofList last]) (.file (some text))) := by
  have inside := way _ (placeFrom_mem_visited [] front)
  obtain ⟨way, followed, names, entry⟩ :=
    followParent_of_name .isDirectory (obstacle?_eq_none way) inside down
  rw [writeText, piecesOf_eq, parts]
  simp only [if_true, bind, Except.bind, followed]
  rw [← entry, ← names]
  cases (way.node tree).entries.lookup (String.ofList last) with
  | none => rfl
  | some node => cases node <;> rfl

theorem itemAt_put_file {name text : String} (there : tree.itemAt names = some .directory)
    (free : tree.itemAt (names ++ [name]) ≠ some .directory) (place : List String) :
    (tree.put (names ++ [name]) (.file (some text))).itemAt place =
      if place = names ++ [name] then some (.file (some text)) else tree.itemAt place :=
  itemAt_put there free rfl place

end Making

end FileTree

end MessageCatalog
