import Mathlib.Data.List.Sort
import MessageCatalog.Proofs.Glob.Bound
import MessageCatalog.Proofs.Glob.Reading

/-!
# Patterns in growing trees

After an addition to a tree, a pattern may match more paths, but among the paths that were
there before it matches the same ones in the same order: going on from a path that was not
there never leads back to one that was. What is new goes down only if no component of the
pattern matches the parent of a directory.
-/

namespace MessageCatalog

namespace Glob

open FileTree (Addition placeOf stepFrom)
open MessageCatalog.Path (component? separator)

/-- Whether a tree has all that another one has, and in each directory that was there the
entries that it had, in the same order, among other ones. -/
structure Enlarged (tree after : FileTree) : Prop where
  proper : after.Proper
  retains : FileTree.Retains tree after
  children : ∀ path, tree.existsAt path = true →
    (childrenOf after path).filter (tree.existsAt ·.2) = childrenOf tree path

/-- Whether all that is matched in a tree at some bound is matched in another one as well,
and nothing else that is in the first tree. -/
structure Shows (tree after : FileTree) (n : Nat) : Prop where
  below : ∀ components path, (∀ component ∈ components, IsPlain component) →
    tree.existsAt path = true →
    (expandBelow after n components path).filter tree.existsAt =
      expandBelow tree n components path
  entry : ∀ component rest name path, IsPlain component →
    (∀ component ∈ rest, IsPlain component) → tree.existsAt path = true →
    (expandAt after n component rest name path).filter tree.existsAt =
      expandAt tree n component rest name path
  matched : ∀ component rest name path, (∀ component ∈ rest, IsPlain component) →
    tree.existsAt path = true →
    (matchEntry after n component rest name path).filter tree.existsAt =
      matchEntry tree n component rest name path

section Growth

variable {tree after leaf root : FileTree} {names : List String} {name : String} {path : Path}
  {allowed : List String → Prop} {n : Nat} {component : Component}
  {rest components : List Component} {text : List Char}

/-! ### Pieces -/

theorem existsAt_of_append (absolute : path.isAbsolute = true) (plain : separator ∉ text)
    (here : tree.existsAt (path ++ (⟨text⟩ : Path)) = true) : tree.existsAt path = true :=
  FileTree.existsAt_of_isDirectoryAt ((FileTree.existsAt_append tree absolute plain).mp here).1

/-- Both special entries of a directory are there. -/
theorem existsAt_special (absolute : path.isAbsolute = true)
    (inside : tree.isDirectoryAt path = true) (special : text = ['.', '.'] ∨ text = ['.']) :
    tree.existsAt (path ++ (⟨text⟩ : Path)) = true := by
  have directory := (FileTree.isDirectoryAt_iff.mp inside).2
  have plain : separator ∉ text := by
    rcases special with rfl | rfl <;> decide
  refine (FileTree.existsAt_append tree absolute plain).mpr ⟨inside, ?_⟩
  rcases special with rfl | rfl
  · rw [FileTree.stepFrom_parent rfl]
    rcases List.eq_nil_or_concat (placeOf path) with root | ⟨above, name, below⟩
    · rw [root, List.dropLast_nil, FileTree.itemAt_nil]
      simp
    · rw [below, List.concat_eq_append] at directory ⊢
      rw [List.dropLast_concat, FileTree.itemAt_of_below (by rw [directory]; simp)]
      simp
  · rw [FileTree.stepFrom_silent rfl, directory]
    simp

/-- A component without wildcards can be entered if it leads somewhere. -/
theorem canEnter_eq (root : FileTree) (absolute : path.isAbsolute = true)
    (plain : separator ∉ text) :
    canEnter root path (path ++ ⟨text⟩) text = root.existsAt (path ++ ⟨text⟩) := by
  rw [canEnter]
  split
  · rename_i special
    rw [Bool.or_eq_true, decide_eq_true_eq, decide_eq_true_eq, or_comm] at special
    rw [Bool.eq_iff_iff]
    exact ⟨fun inside => existsAt_special absolute inside special,
      fun here => ((FileTree.existsAt_append root absolute plain).mp here).1⟩
  · rfl

/-! ### Children -/

theorem isName_of_mem_childrenOf (proper : root.Proper) {entry : String × Path}
    (among : entry ∈ childrenOf root path) : FileTree.IsName entry.1 := by
  obtain ⟨entries, node, got, inside, -, -⟩ := exists_get_of_mem_childrenOf proper among
  exact ((FileTree.proper_directory_iff.mp (proper.get got)).2 _ inside).1

theorem existsAt_of_mem_childrenOf (proper : root.Proper) {entry : String × Path}
    (among : entry ∈ childrenOf root path) : root.existsAt entry.2 = true := by
  obtain ⟨entries, node, -, -, -, got⟩ := exists_get_of_mem_childrenOf proper among
  exact FileTree.existsAt_of_get got

/-- Sorting texts and dropping the same ones before or after comes to the same. -/
theorem filter_mergeSort (p : String → Bool) (l : List String) :
    (l.mergeSort fun a b => decide (a ≤ b)).filter p =
      (l.filter p).mergeSort fun a b => decide (a ≤ b) := by
  have sorted : ∀ l : List String,
      (l.mergeSort fun a b => decide (a ≤ b)).Pairwise fun a b => decide (a ≤ b) = true := by
    refine List.pairwise_mergeSort (fun a b c first second => ?_) fun a b => ?_
    · rw [decide_eq_true_eq] at first second ⊢
      exact String.le_trans first second
    · rw [Bool.or_eq_true, decide_eq_true_eq, decide_eq_true_eq]
      exact String.le_total a b
  refine List.Perm.eq_of_pairwise (fun a b _ _ first second => ?_) ((sorted l).filter p)
    (sorted _) (((List.mergeSort_perm l _).filter p).trans (List.mergeSort_perm _ _).symm)
  rw [decide_eq_true_eq] at first second
  exact String.le_antisymm first second

/-- The entries of a directory that were there before are the entries before. -/
theorem filter_childrenOf (addition : Addition allowed tree names name leaf)
    (proper : tree.Proper) (here : tree.existsAt path = true) :
    (childrenOf (tree.put (names ++ [name]) leaf) path).filter (tree.existsAt ·.2) =
      childrenOf tree path := by
  obtain ⟨node, got, there⟩ := FileTree.exists_get_of_existsAt here
  obtain ⟨node', got', there'⟩ :=
    FileTree.exists_get_of_existsAt (addition.retains.existsAt here)
  have before : (node.entries.map (·.1)).filter (fun name => tree.existsAt (path.child name)) =
      node.entries.map (·.1) := by
    refine List.filter_eq_self.mpr fun other among => ?_
    have child : (other, path.child other) ∈ childrenOf tree path := by
      rw [childrenOf_of_get got]
      exact List.mem_map.mpr ⟨other, List.mem_mergeSort.mpr among, rfl⟩
    exact existsAt_of_mem_childrenOf proper child
  have same : (node'.entries.map (·.1)).filter (fun name => tree.existsAt (path.child name)) =
      node.entries.map (·.1) := by
    rcases addition.map_entries there there' with same | ⟨-, missing, more⟩
    · rw [same, before]
    · rw [more, List.filter_append, before, List.filter_cons_of_neg, List.filter_nil,
        List.append_nil]
      intro found
      have absolute := FileTree.isAbsolute_of_get got
      refine ((FileTree.existsAt_append tree absolute addition.named.2).mp found).2 ?_
      rw [FileTree.stepFrom_name addition.named.1, String.ofList_toList, missing]
  rewrite [childrenOf_of_get got', childrenOf_of_get got, List.filter_map, filter_mergeSort,
    ← same]
  rfl

theorem child_eq {entry : String × Path} (among : entry ∈ childrenOf root path) :
    entry.2 = path ++ ⟨entry.1.toList⟩ := by
  obtain ⟨name, child⟩ := entry
  exact mem_childrenOf among

/-- What comes from the members that are left after dropping those that nothing comes from. -/
theorem flatMap_of_filter {α β : Type} {before now : List α} {there : α → Bool}
    {f g : α → List β} (same : now.filter there = before)
    (kept : ∀ a ∈ now, there a = true → f a = g a)
    (new : ∀ a ∈ now, there a = false → f a = []) : now.flatMap f = before.flatMap g := by
  subst same
  induction now with
  | nil => rfl
  | cons a now ih =>
    have kept' := fun b among => kept b (List.mem_cons_of_mem a among)
    have new' := fun b among => new b (List.mem_cons_of_mem a among)
    rw [List.flatMap_cons, ih kept' new']
    cases found : there a with
    | true =>
      rw [List.filter_cons_of_pos found, List.flatMap_cons, kept a List.mem_cons_self found]
    | false =>
      rw [List.filter_cons_of_neg (by simp [found]), new a List.mem_cons_self found,
        List.nil_append]

/-! ### What is matched -/

/-- From a path that was not there, nothing that was there is found. -/
theorem kept_missing (proper : after.Proper) (tree : FileTree) :
    Kept after IsPlain fun path => path.isAbsolute = true ∧ tree.existsAt path = false := by
  have step : ∀ (path : Path) (text : List Char), separator ∉ text →
      path.isAbsolute = true ∧ tree.existsAt path = false →
      (path ++ (⟨text⟩ : Path)).isAbsolute = true ∧
        tree.existsAt (path ++ (⟨text⟩ : Path)) = false := by
    rintro path text plain ⟨absolute, missing⟩
    refine ⟨Path.isAbsolute_append absolute _, ?_⟩
    rw [← Bool.not_eq_true]
    intro here
    rw [existsAt_of_append absolute plain here] at missing
    exact Bool.noConfusion missing
  constructor
  case literal => exact fun component text path plain same => step path text (plain text same)
  case special =>
    exact fun component text path _ among => step path text (plain_of_mem_specialNames among)
  case child =>
    intro path missing entry among
    rw [child_eq among]
    exact step path _ (isName_of_mem_childrenOf proper among).2 missing

/-- What is found goes down only if no component goes up. -/
theorem kept_straight (proper : root.Proper) :
    Kept root (fun component => IsPlain component ∧ Descends component)
      fun path => path.isAbsolute = true ∧ path.IsStraight := by
  have step : ∀ (path : Path) (text : List Char), separator ∉ text →
      component? text ≠ some .parent → path.isAbsolute = true ∧ path.IsStraight →
      (path ++ (⟨text⟩ : Path)).isAbsolute = true ∧ (path ++ (⟨text⟩ : Path)).IsStraight :=
    fun path text plain down ⟨absolute, straight⟩ => ⟨Path.isAbsolute_append absolute _,
      FileTree.isStraight_append absolute straight plain down⟩
  constructor
  case literal =>
    rintro component text path ⟨plain, descends⟩ same
    exact step path text (plain text same) (descends.component?_ne same)
  case special =>
    rintro component text path ⟨-, descends⟩ among
    refine step path text (plain_of_mem_specialNames among) ?_
    rcases eq_of_mem_specialNames among with rfl | rfl
    · exact absurd among descends
    · decide
  case child =>
    intro path straight entry among
    have named := isName_of_mem_childrenOf proper among
    rw [child_eq among]
    exact step path _ named.2 (by rw [named.1]; simp) straight

theorem filter_eq_nil_of_missing {found : List Path}
    (missing : ∀ path ∈ found, path.isAbsolute = true ∧ tree.existsAt path = false) :
    found.filter tree.existsAt = [] :=
  List.filter_eq_nil_iff.mpr fun path among => by simp [(missing path among).2]

theorem Shows.onward (shows' : Shows tree after n)
    (plain : ∀ component ∈ rest, IsPlain component) (here : tree.existsAt path = true) :
    (expandRest after n rest path).filter tree.existsAt = expandRest tree n rest path := by
  rw [expandRest, expandRest]
  split
  · rw [List.filter_cons_of_pos here, List.filter_nil]
  · exact shows'.below rest path plain here

theorem Shows.deeper (shows' : Shows tree after n) (enlarged : Enlarged tree after)
    (plain : IsPlain component) (later : ∀ component ∈ rest, IsPlain component)
    (here : tree.existsAt path = true) :
    (expandDeeper after n component rest path).filter tree.existsAt =
      expandDeeper tree n component rest path := by
  rw [expandDeeper, expandDeeper, enlarged.retains.isDirectoryAt_eq here]
  split
  · exact shows'.below _ path (List.forall_mem_cons.mpr ⟨plain, later⟩) here
  · rfl

/-- A component without wildcards that is new leads to nothing that was there. -/
theorem Shows.literal (shows' : Shows tree after n) (enlarged : Enlarged tree after)
    (absolute : path.isAbsolute = true) (plain : separator ∉ text)
    (later : ∀ component ∈ rest, IsPlain component) :
    (if canEnter after path (path ++ ⟨text⟩) text then expandRest after n rest (path ++ ⟨text⟩)
      else []).filter tree.existsAt =
    if canEnter tree path (path ++ ⟨text⟩) text then expandRest tree n rest (path ++ ⟨text⟩)
      else [] := by
  rw [canEnter_eq after absolute plain, canEnter_eq tree absolute plain]
  cases there : tree.existsAt (path ++ ⟨text⟩) with
  | true => rw [if_pos rfl, if_pos (enlarged.retains.existsAt there), shows'.onward later there]
  | false =>
    simp only [Bool.false_eq_true, if_false]
    split
    · exact filter_eq_nil_of_missing ((throughout (kept_missing enlarged.proper tree) n).onward
        later ⟨Path.isAbsolute_append absolute _, there⟩)
    · rfl

/-- A component with wildcards matches the special entries as before, and among the others
those that were there. -/
theorem Shows.wildcards (shows' : Shows tree after n) (enlarged : Enlarged tree after)
    (here : tree.existsAt path = true) (first : IsPlain component)
    (later : ∀ component ∈ rest, IsPlain component) :
    (if after.isDirectoryAt path then
      (specialNames component).flatMap (fun text => expandRest after n rest (path ++ ⟨text⟩)) ++
        (childrenOf after path).flatMap fun entry =>
          expandAt after n component rest entry.1 entry.2
      else []).filter tree.existsAt =
    if tree.isDirectoryAt path then
      (specialNames component).flatMap (fun text => expandRest tree n rest (path ++ ⟨text⟩)) ++
        (childrenOf tree path).flatMap fun entry =>
          expandAt tree n component rest entry.1 entry.2
      else [] := by
  have absolute := FileTree.isAbsolute_of_existsAt here
  have missing := throughout (kept_missing enlarged.proper tree) n
  rw [enlarged.retains.isDirectoryAt_eq here]
  split
  · rename_i inside
    rw [List.filter_append, List.filter_flatMap, List.filter_flatMap]
    congr 1
    · refine List.flatMap_congr fun text among => shows'.onward later ?_
      exact existsAt_special absolute inside (eq_of_mem_specialNames among)
    · refine flatMap_of_filter (enlarged.children path here) (fun entry _ there => ?_)
        fun entry among there => filter_eq_nil_of_missing ?_
      · exact shows'.entry component rest entry.1 entry.2 first later there
      · refine missing.entry component rest entry.1 entry.2 first later ⟨?_, there⟩
        rw [child_eq among]
        exact Path.isAbsolute_append absolute _
  · rfl

theorem Shows.below_succ (shows' : Shows tree after n) (enlarged : Enlarged tree after)
    (plain : ∀ component ∈ components, IsPlain component) (here : tree.existsAt path = true) :
    (expandBelow after (n + 1) components path).filter tree.existsAt =
      expandBelow tree (n + 1) components path := by
  cases components with
  | nil => rw [expandBelow_nil, expandBelow_nil, List.filter_nil]
  | cons component rest =>
    obtain ⟨first, later⟩ := List.forall_mem_cons.mp plain
    cases literal : literal? component with
    | some text =>
      rw [expandBelow_literal literal, expandBelow_literal literal]
      exact shows'.literal enlarged (FileTree.isAbsolute_of_existsAt here) (first text literal)
        later
    | none =>
      rw [expandBelow_wildcards literal, expandBelow_wildcards literal]
      exact shows'.wildcards enlarged here first later

theorem Shows.entry_succ (shows' : Shows tree after n) (enlarged : Enlarged tree after)
    (first : IsPlain component) (later : ∀ component ∈ rest, IsPlain component)
    (here : tree.existsAt path = true) :
    (expandAt after (n + 1) component rest name path).filter tree.existsAt =
      expandAt tree (n + 1) component rest name path := by
  cases recursive : isRecursive component with
  | false =>
    rw [expandAt_plain recursive, expandAt_plain recursive]
    exact shows'.matched component rest name path later here
  | true =>
    cases more : rest.dropWhile isRecursive with
    | nil =>
      rw [expandAt_last recursive more, expandAt_last recursive more,
        enlarged.retains.isDirectoryAt_eq here]
      split
      · rw [List.filter_cons_of_pos here,
          shows'.deeper enlarged first (List.forall_mem_nil IsPlain) here]
      · rfl
    | cons next others =>
      have others' := forall_mem_dropWhile later more
      rw [expandAt_next recursive more, expandAt_next recursive more, List.filter_append,
        shows'.matched next others name path (List.forall_mem_cons.mp others').2 here,
        shows'.deeper enlarged first others' here]

/-- In an enlarged tree, a pattern matches what it matched before, in the same order. -/
theorem Enlarged.shows_all (enlarged : Enlarged tree after) (n : Nat) : Shows tree after n := by
  induction n with
  | zero =>
    exact ⟨fun _ _ _ _ => by rw [expandBelow, expandBelow]; rfl,
      fun _ _ _ _ _ _ _ => by rw [expandAt, expandAt]; rfl,
      fun _ _ _ _ _ _ => by rw [matchEntry, matchEntry]; rfl⟩
  | succ n ih =>
    constructor
    case below => exact fun components path plain here => ih.below_succ enlarged plain here
    case entry => exact fun component rest name path first later here =>
      ih.entry_succ enlarged first later here
    case matched =>
      intro component rest name path later here
      rw [matchEntry_succ, matchEntry_succ]
      split
      · exact ih.onward later here
      · rfl

/-- An addition enlarges a tree. -/
theorem enlarged_put (addition : Addition allowed tree names name leaf) (proper : tree.Proper) :
    Enlarged tree (tree.put (names ++ [name]) leaf) where
  proper := addition.proper proper
  retains := addition.retains
  children _ here := filter_childrenOf addition proper here

/-! ### Patterns -/

/-- After an addition, a pattern expands to the same paths among those that were there. -/
theorem filter_expand (addition : Addition allowed tree names name leaf) (proper : tree.Proper)
    (pattern : Path) :
    (expand (tree.put (names ++ [name]) leaf) pattern).map (·.filter tree.existsAt) =
      expand tree pattern := by
  have enlarged := enlarged_put addition proper
  have start : tree.existsAt ⟨['/']⟩ = true := by
    have root : tree.itemAt [] = some .directory := by
      cases names with
      | nil => exact addition.inside
      | cons first names =>
        have below : tree.itemAt ([] ++ first :: names) ≠ none := by
          rw [List.nil_append, addition.inside]
          simp
        exact FileTree.itemAt_of_below below
    rw [FileTree.existsAt_iff]
    change tree.obstacle? [] [[]] = none
    rw [FileTree.obstacle?_single, FileTree.stepFrom_silent rfl, root]
    simp
  generalize tree.put (names ++ [name]) leaf = after at enlarged
  rw [expand, expand]
  cases parsed : parse pattern.toString with
  | error fault => rfl
  | ok tokens =>
    cases readable : (componentTexts pattern.text).mapM fun text => parse (String.ofList text) with
    | error fault => rfl
    | ok components =>
      obtain ⟨n, enough, enough'⟩ : ∃ n, expansionSteps tree components.length ≤ n ∧
          expansionSteps after components.length ≤ n :=
        ⟨_, Nat.le_max_left _ _, Nat.le_max_right _ _⟩
      have same := (enlarged.shows_all n).below components ⟨['/']⟩
        (fun component among => (of_mem_components readable among).1) start
      rw [expandBelow_of_le proper _ _ enough,
        expandBelow_of_le enlarged.proper _ _ enough'] at same
      exact congrArg Except.ok same

/-- What a pattern expands to goes down only if no component of it goes up. -/
theorem isStraight_of_mem_expand {pattern found : Path} {paths : List Path}
    (proper : root.Proper) (down : GoesDown pattern)
    (expanded : expand root pattern = .ok paths) (among : found ∈ paths) :
    found.IsStraight := by
  obtain ⟨components, readable, rfl⟩ := exists_of_expand expanded
  have kinds : ∀ component ∈ components, IsPlain component ∧ Descends component :=
    fun component inside => (of_mem_components readable inside).imp id (· down)
  exact ((throughout (kept_straight proper) _).below components ⟨['/']⟩ kinds
    ⟨rfl, by decide⟩ found among).2

end Growth

end Glob

end MessageCatalog
