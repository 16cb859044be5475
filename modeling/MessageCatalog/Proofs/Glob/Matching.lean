import MessageCatalog.Proofs.Glob.Growth

/-!
# What patterns match

What a pattern matches in a tree can be said without an order of search and without a bound on
its steps: a component without wildcards goes on to what has its name, any other to the special
entries or the entries that it matches, and two stars to all directories below. An expansion
finds exactly what can be reached in this way.
-/

namespace MessageCatalog

namespace Glob

/-- What the components of a pattern lead to in a tree, from a path. -/
inductive Leads (root : FileTree) : List Component → Path → Path → Prop where
  | done (path : Path) : Leads root [] path path
  /-- A component without wildcards is the next piece of the path. -/
  | literal {component : Component} {rest : List Component} {path found : Path}
      {text : List Char} (plain : literal? component = some text)
      (there : root.existsAt (path ++ ⟨text⟩) = true)
      (onward : Leads root rest (path ++ ⟨text⟩) found) :
      Leads root (component :: rest) path found
  /-- The special entries of a directory are matched only behind a point. -/
  | special {component : Component} {rest : List Component} {path found : Path}
      {text : List Char} (wild : literal? component = none)
      (inside : root.isDirectoryAt path = true) (matched : text ∈ specialNames component)
      (onward : Leads root rest (path ++ ⟨text⟩) found) :
      Leads root (component :: rest) path found
  | entry {component : Component} {rest : List Component} {path found : Path} {name : String}
      {child : Path} (wild : literal? component = none) (single : isRecursive component = false)
      (among : (name, child) ∈ childrenOf root path)
      (matched : isMatch component name.toList = true) (onward : Leads root rest child found) :
      Leads root (component :: rest) path found
  /-- Two stars match all directories below, and further ones behind them add nothing. -/
  | directory {component : Component} {rest : List Component} {path : Path} {name : String}
      {child : Path} (recursive : isRecursive component = true)
      (last : rest.dropWhile isRecursive = []) (among : (name, child) ∈ childrenOf root path)
      (inside : root.isDirectoryAt child = true) : Leads root (component :: rest) path child
  /-- Two stars match no directory at all. -/
  | skip {component next : Component} {rest others : List Component} {path found : Path}
      {name : String} {child : Path} (recursive : isRecursive component = true)
      (more : rest.dropWhile isRecursive = next :: others)
      (among : (name, child) ∈ childrenOf root path)
      (matched : isMatch next name.toList = true) (onward : Leads root others child found) :
      Leads root (component :: rest) path found
  /-- Two stars match a directory and what they match below it. -/
  | descend {component : Component} {rest : List Component} {path found : Path} {name : String}
      {child : Path} (recursive : isRecursive component = true)
      (among : (name, child) ∈ childrenOf root path) (inside : root.isDirectoryAt child = true)
      (onward : Leads root (component :: rest.dropWhile isRecursive) child found) :
      Leads root (component :: rest) path found

/-- Whether an absolute pattern that can be read matches a path in a tree. -/
structure Matches (root : FileTree) (pattern found : Path) : Prop where
  readable : ∃ tokens, parse pattern.toString = .ok tokens
  leads : ∃ components ≠ [], (componentTexts pattern.text).mapM
      (fun text => parse (String.ofList text)) = .ok components ∧
    Leads root components ⟨['/']⟩ found

/-- Whether all that is found within a bound is led to. -/
structure Sound (root : FileTree) (n : Nat) : Prop where
  below : ∀ components path, (∀ component ∈ components, IsPlain component) →
    path.isAbsolute = true → ∀ found ∈ expandBelow root n components path,
      Leads root components path found
  entry : ∀ component rest name path child, (∀ component' ∈ component :: rest, IsPlain component') →
    path.isAbsolute = true → literal? component = none → (name, child) ∈ childrenOf root path →
    ∀ found ∈ expandAt root n component rest name child, Leads root (component :: rest) path found
  matched : ∀ component rest name child, (∀ component ∈ rest, IsPlain component) →
    child.isAbsolute = true → ∀ found ∈ matchEntry root n component rest name child,
      isMatch component name.toList = true ∧ Leads root rest child found

section Matching

variable {root : FileTree} {path child found : Path} {n : Nat} {name : String}
  {component : Component} {rest components : List Component} {text : List Char}

theorem literal?_of_recursive (recursive : isRecursive component = true) :
    literal? component = none := by
  rw [← Option.not_isSome_iff_eq_none, Option.isSome_iff_exists]
  rintro ⟨text, same⟩
  rw [eq_map_of_literal? same, isRecursive, List.contains_iff_mem, List.mem_map] at recursive
  obtain ⟨c, -, wrong⟩ := recursive
  exact absurd wrong (by simp)

theorem isAbsolute_of_mem_childrenOf (absolute : path.isAbsolute = true)
    (among : (name, child) ∈ childrenOf root path) : child.isAbsolute = true := by
  rw [mem_childrenOf among]
  exact Path.isAbsolute_append absolute _

theorem isDirectoryAt_of_mem_childrenOf (proper : root.Proper)
    (among : (name, child) ∈ childrenOf root path) : root.isDirectoryAt path = true := by
  obtain ⟨entries, node, got, -, -, -⟩ := exists_get_of_mem_childrenOf proper among
  exact FileTree.isDirectoryAt_of_get got

/-! ### All that is found is led to -/

theorem Sound.onward (sound : Sound root n) (plain : ∀ component ∈ rest, IsPlain component)
    (absolute : path.isAbsolute = true) :
    ∀ found ∈ expandRest root n rest path, Leads root rest path found := by
  intro found among
  rw [expandRest] at among
  split at among
  · rename_i last
    rw [List.mem_singleton.mp among, List.isEmpty_iff.mp last]
    exact .done path
  · exact sound.below rest path plain absolute found among

theorem Sound.below_succ (sound : Sound root n)
    (plain : ∀ component ∈ components, IsPlain component) (absolute : path.isAbsolute = true) :
    ∀ found ∈ expandBelow root (n + 1) components path, Leads root components path found := by
  intro found among
  cases components with
  | nil =>
    rw [expandBelow_nil] at among
    exact absurd among List.not_mem_nil
  | cons component rest =>
    obtain ⟨first, later⟩ := List.forall_mem_cons.mp plain
    have onward (text : List Char) := sound.onward later (Path.isAbsolute_append absolute ⟨text⟩)
    cases literal : literal? component with
    | some text =>
      rw [expandBelow_literal literal, canEnter_eq root absolute (first text literal)] at among
      split at among
      · exact .literal literal ‹_› (onward text found among)
      · exact absurd among List.not_mem_nil
    | none =>
      rw [expandBelow_wildcards literal] at among
      split at among
      · rename_i inside
        rcases List.mem_append.mp among with special | among
        · obtain ⟨text, matched, further⟩ := List.mem_flatMap.mp special
          exact .special literal inside matched (onward text found further)
        · obtain ⟨⟨name, child⟩, entry, further⟩ := List.mem_flatMap.mp among
          exact sound.entry component rest name path child plain absolute literal entry found
            further
      · exact absurd among List.not_mem_nil

theorem Sound.entry_succ (sound : Sound root n)
    (plain : ∀ component' ∈ component :: rest, IsPlain component')
    (absolute : path.isAbsolute = true) (wild : literal? component = none)
    (among : (name, child) ∈ childrenOf root path) :
    ∀ found ∈ expandAt root (n + 1) component rest name child,
      Leads root (component :: rest) path found := by
  intro found further
  obtain ⟨first, later⟩ := List.forall_mem_cons.mp plain
  have absolute' := isAbsolute_of_mem_childrenOf absolute among
  cases recursive : isRecursive component with
  | false =>
    rw [expandAt_plain recursive] at further
    obtain ⟨matched, onward⟩ :=
      sound.matched component rest name child later absolute' found further
    exact .entry wild recursive among matched onward
  | true =>
    -- What is found deeper is found by two stars once more.
    have deeper {others : List Component} (plain' : ∀ component ∈ others, IsPlain component)
        (same : rest.dropWhile isRecursive = others)
        (further : found ∈ expandDeeper root n component others child) :
        Leads root (component :: rest) path found := by
      rw [expandDeeper] at further
      split at further
      · refine .descend recursive among ‹_› ?_
        rw [same]
        exact sound.below _ child (List.forall_mem_cons.mpr ⟨first, plain'⟩) absolute' found further
      · exact absurd further List.not_mem_nil
    cases more : rest.dropWhile isRecursive with
    | nil =>
      rw [expandAt_last recursive more] at further
      split at further
      · rcases List.mem_cons.mp further with rfl | further
        · exact .directory recursive more among ‹_›
        · exact deeper (List.forall_mem_nil IsPlain) more further
      · exact absurd further List.not_mem_nil
    | cons next others =>
      have plain' := forall_mem_dropWhile later more
      rw [expandAt_next recursive more] at further
      rcases List.mem_append.mp further with matched | further
      · obtain ⟨matched, onward⟩ := sound.matched next others name child
          (List.forall_mem_cons.mp plain').2 absolute' found matched
        exact .skip recursive more among matched onward
      · exact deeper plain' more further

theorem sound_all (root : FileTree) (n : Nat) : Sound root n := by
  induction n with
  | zero =>
    refine ⟨fun _ _ _ _ found among => ?_, fun _ _ _ _ _ _ _ _ _ found among => ?_,
      fun _ _ _ _ _ _ found among => ?_⟩
    · rw [expandBelow] at among
      exact absurd among List.not_mem_nil
    · rw [expandAt] at among
      exact absurd among List.not_mem_nil
    · rw [matchEntry] at among
      exact absurd among List.not_mem_nil
  | succ n ih =>
    constructor
    case below => exact fun components path plain absolute => ih.below_succ plain absolute
    case entry => exact fun component rest name path child plain absolute wild among =>
      ih.entry_succ plain absolute wild among
    case matched =>
      intro component rest name child plain absolute found among
      rw [matchEntry_succ] at among
      split at among
      · exact ⟨‹_›, ih.onward plain absolute found among⟩
      · exact absurd among List.not_mem_nil

/-! ### All that is led to is found -/

/-- Whether something is found from some bound on. -/
def Reachable (root : FileTree) (components : List Component) (path found : Path) : Prop :=
  ∃ bound, ∀ n, bound ≤ n → found ∈ expandRest root n components path

/-- What is found one step further is found from one bound further on. -/
theorem reachable_cons {expansion : Nat → List Path}
    (step : ∀ n, expandBelow root (n + 1) (component :: rest) path = expansion n)
    (further : ∃ bound, ∀ n, bound ≤ n → found ∈ expansion n) :
    Reachable root (component :: rest) path found := by
  obtain ⟨bound, later⟩ := further
  refine ⟨bound + 1, fun n enough => ?_⟩
  obtain ⟨n, rfl⟩ : ∃ m, n = m + 1 := ⟨n - 1, by omega⟩
  rw [expandRest, List.isEmpty_cons, if_neg Bool.false_ne_true, step]
  exact later n (by omega)

/-- What is found at an entry of a directory is found in the directory. -/
theorem reachable_of_entry (wild : literal? component = none)
    (inside : root.isDirectoryAt path = true) (among : (name, child) ∈ childrenOf root path)
    (further : ∃ bound, ∀ n, bound ≤ n → found ∈ expandAt root (n + 1) component rest name child) :
    Reachable root (component :: rest) path found := by
  obtain ⟨bound, later⟩ := further
  refine reachable_cons (fun n => expandBelow_wildcards wild) ⟨bound + 1, fun n enough => ?_⟩
  obtain ⟨n, rfl⟩ : ∃ m, n = m + 1 := ⟨n - 1, by omega⟩
  rw [if_pos inside]
  exact List.mem_append_right _ (List.mem_flatMap.mpr ⟨_, among, later n (by omega)⟩)

theorem mem_matchEntry_of_reachable (matched : isMatch component name.toList = true)
    (further : Reachable root rest child found) :
    ∃ bound, ∀ n, bound ≤ n → found ∈ matchEntry root n component rest name child := by
  obtain ⟨bound, later⟩ := further
  refine ⟨bound + 1, fun n enough => ?_⟩
  obtain ⟨n, rfl⟩ : ∃ m, n = m + 1 := ⟨n - 1, by omega⟩
  rw [matchEntry_succ, if_pos matched]
  exact later n (by omega)

theorem mem_expandDeeper_of_reachable (inside : root.isDirectoryAt child = true)
    (further : Reachable root (component :: rest) child found) :
    ∃ bound, ∀ n, bound ≤ n → found ∈ expandDeeper root n component rest child := by
  obtain ⟨bound, later⟩ := further
  refine ⟨bound, fun n enough => ?_⟩
  rw [expandDeeper, if_pos inside]
  exact later n enough

theorem Leads.reachable (leads : Leads root components path found) (proper : root.Proper)
    (plain : ∀ component ∈ components, IsPlain component) (absolute : path.isAbsolute = true) :
    Reachable root components path found := by
  induction leads with
  | done path =>
    refine ⟨0, fun n _ => ?_⟩
    rw [expandRest]
    exact List.mem_singleton_self path
  | @literal component rest path found text literal there onward ih =>
    obtain ⟨first, later⟩ := List.forall_mem_cons.mp plain
    obtain ⟨bound, further⟩ := ih later (Path.isAbsolute_append absolute _)
    refine reachable_cons (fun n => expandBelow_literal literal) ⟨bound, fun n enough => ?_⟩
    rw [canEnter_eq root absolute (first text literal), if_pos there]
    exact further n enough
  | special wild inside matched onward ih =>
    obtain ⟨first, later⟩ := List.forall_mem_cons.mp plain
    obtain ⟨bound, further⟩ := ih later (Path.isAbsolute_append absolute _)
    refine reachable_cons (fun n => expandBelow_wildcards wild) ⟨bound, fun n enough => ?_⟩
    rw [if_pos inside]
    exact List.mem_append_left _ (List.mem_flatMap.mpr ⟨_, matched, further n enough⟩)
  | entry wild single among matched onward ih =>
    obtain ⟨first, later⟩ := List.forall_mem_cons.mp plain
    refine reachable_of_entry wild (isDirectoryAt_of_mem_childrenOf proper among) among ?_
    simp only [expandAt_plain single]
    have absolute' := isAbsolute_of_mem_childrenOf absolute among
    exact mem_matchEntry_of_reachable matched (ih later absolute')
  | directory recursive last among inside =>
    refine reachable_of_entry (literal?_of_recursive recursive)
      (isDirectoryAt_of_mem_childrenOf proper among) among ⟨0, fun n _ => ?_⟩
    rw [expandAt_last recursive last, if_pos inside]
    exact List.mem_cons_self
  | skip recursive more among matched onward ih =>
    obtain ⟨first, later⟩ := List.forall_mem_cons.mp plain
    have later' := (List.forall_mem_cons.mp (forall_mem_dropWhile later more)).2
    obtain ⟨bound, further⟩ := mem_matchEntry_of_reachable matched
      (ih later' (isAbsolute_of_mem_childrenOf absolute among))
    refine reachable_of_entry (literal?_of_recursive recursive)
      (isDirectoryAt_of_mem_childrenOf proper among) among ⟨bound, fun n enough => ?_⟩
    rw [expandAt_next recursive more]
    exact List.mem_append_left _ (further n enough)
  | @descend component rest path found name child recursive among inside onward ih =>
    obtain ⟨first, later⟩ := List.forall_mem_cons.mp plain
    have later' : ∀ component ∈ rest.dropWhile isRecursive, IsPlain component :=
      fun component among => later component ((List.dropWhile_suffix _).subset among)
    obtain ⟨bound, further⟩ := mem_expandDeeper_of_reachable inside
      (ih (List.forall_mem_cons.mpr ⟨first, later'⟩) (isAbsolute_of_mem_childrenOf absolute among))
    refine reachable_of_entry (literal?_of_recursive recursive)
      (isDirectoryAt_of_mem_childrenOf proper among) among ⟨bound, fun n enough => ?_⟩
    cases more : rest.dropWhile isRecursive with
    | nil =>
      rw [more] at further
      rw [expandAt_last recursive more, if_pos inside]
      exact List.mem_cons_of_mem _ (further n enough)
    | cons next others =>
      rw [more] at further
      rw [expandAt_next recursive more]
      exact List.mem_append_right _ (further n enough)

/-! ### Patterns -/

theorem mem_expandBelow_iff (proper : root.Proper) (some : components ≠ [])
    (plain : ∀ component ∈ components, IsPlain component) (absolute : path.isAbsolute = true) :
    found ∈ expandBelow root (expansionSteps root components.length) components path ↔
      Leads root components path found := by
  refine ⟨(sound_all root _).below components path plain absolute found, fun leads => ?_⟩
  obtain ⟨bound, further⟩ := leads.reachable proper plain absolute
  have found' := further _ (Nat.le_max_left bound (expansionSteps root components.length))
  rw [expandRest, if_neg (by simpa using some)] at found'
  rwa [expandBelow_of_le proper components path (Nat.le_max_right _ _)] at found'

/-- A pattern expands to what it matches. -/
theorem matches_iff (proper : root.Proper) (pattern : Path) :
    Matches root pattern found ↔ ∃ paths, expand root pattern = .ok paths ∧ found ∈ paths := by
  constructor
  · rintro ⟨⟨tokens, readable⟩, components, some, components', leads⟩
    have plain : ∀ component ∈ components, IsPlain component :=
      fun component among => (of_mem_components components' among).1
    refine ⟨_, ?_, (mem_expandBelow_iff proper some plain rfl).mpr leads⟩
    rw [expand, readable, components']
    rfl
  · rintro ⟨paths, expanded, among⟩
    obtain ⟨components, components', rfl⟩ := exists_of_expand expanded
    have plain : ∀ component ∈ components, IsPlain component :=
      fun component among => (of_mem_components components' among).1
    have some : components ≠ [] := by
      rintro rfl
      rw [expandBelow_nil] at among
      exact List.not_mem_nil among
    refine ⟨?_, components, some, components', (mem_expandBelow_iff proper some plain rfl).mp among⟩
    cases readable : parse pattern.toString with
    | ok tokens => exact ⟨tokens, rfl⟩
    | error fault =>
      rw [expand, readable] at expanded
      exact absurd expanded (by simp [bind, Except.bind])

end Matching

end Glob

end MessageCatalog
