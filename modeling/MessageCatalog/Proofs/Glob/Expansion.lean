import MessageCatalog.Glob.Expansion
import MessageCatalog.Proofs.Path.Steps

/-!
# What patterns expand to

An expansion goes on from a path by a piece of text: by a component without wildcards, by a
special entry of a directory, or by the name of an entry. So what it finds has every
property of its start that is kept by going on.
-/

namespace MessageCatalog

namespace Glob

/-- What is matched from a path that a component was used up for. -/
def expandRest (root : FileTree) (n : Nat) (rest : List Component) (next : Path) : List Path :=
  if rest.isEmpty then [next] else expandBelow root n rest next

/-- What is matched below an entry that two stars were matched with. -/
def expandDeeper (root : FileTree) (n : Nat) (component : Component) (rest : List Component)
    (path : Path) : List Path :=
  if root.isDirectoryAt path then expandBelow root n (component :: rest) path else []

/-- Whether going on from a path by a piece keeps a property, for components of a kind. -/
structure Kept (root : FileTree) (kind : Component → Prop) (P : Path → Prop) : Prop where
  literal : ∀ component text path, kind component → literal? component = some text →
    P path → P (path ++ ⟨text⟩)
  special : ∀ component text path, kind component → text ∈ specialNames component →
    P path → P (path ++ ⟨text⟩)
  child : ∀ path, P path → ∀ entry ∈ childrenOf root path, P entry.2

/-- What holds of all results, at a bound, for components of a kind. -/
structure Throughout (root : FileTree) (kind : Component → Prop) (P : Path → Prop) (n : Nat) :
    Prop where
  below : ∀ components path, (∀ component ∈ components, kind component) → P path →
    ∀ found ∈ expandBelow root n components path, P found
  entry : ∀ component rest name path, kind component → (∀ component ∈ rest, kind component) →
    P path → ∀ found ∈ expandAt root n component rest name path, P found
  matched : ∀ component rest name path, (∀ component ∈ rest, kind component) → P path →
    ∀ found ∈ matchEntry root n component rest name path, P found

section Expansion

variable {root : FileTree} {P : Path → Prop} {kind : Component → Prop} {path : Path} {n : Nat}
  {component : Component} {rest components : List Component} {name : String}
  {text : List Char}

/-! ### Steps -/

theorem expandBelow_nil (root : FileTree) (n : Nat) (path : Path) :
    expandBelow root n [] path = [] := by
  cases n <;> rw [expandBelow]

theorem expandBelow_literal (literal : literal? component = some text) :
    expandBelow root (n + 1) (component :: rest) path =
      if canEnter root path (path ++ ⟨text⟩) text then expandRest root n rest (path ++ ⟨text⟩)
      else [] := by
  rw [expandBelow, literal]
  rfl

theorem expandBelow_wildcards (wildcards : literal? component = none) :
    expandBelow root (n + 1) (component :: rest) path =
      if root.isDirectoryAt path then
        (specialNames component).flatMap (fun text => expandRest root n rest (path ++ ⟨text⟩)) ++
          (childrenOf root path).flatMap fun entry =>
            expandAt root n component rest entry.1 entry.2
      else [] := by
  rw [expandBelow, wildcards]
  rfl

theorem expandAt_plain (plain : isRecursive component = false) :
    expandAt root (n + 1) component rest name path =
      matchEntry root n component rest name path := by
  rw [expandAt, if_neg (by simp [plain])]

theorem expandAt_last (recursive : isRecursive component = true)
    (last : rest.dropWhile isRecursive = []) :
    expandAt root (n + 1) component rest name path =
      if root.isDirectoryAt path then path :: expandDeeper root n component [] path else [] := by
  rw [expandAt, if_pos recursive]
  dsimp only
  rw [last, expandDeeper]

theorem expandAt_next {next : Component} {others : List Component}
    (recursive : isRecursive component = true)
    (more : rest.dropWhile isRecursive = next :: others) :
    expandAt root (n + 1) component rest name path =
      matchEntry root n next others name path ++
        expandDeeper root n component (next :: others) path := by
  rw [expandAt, if_pos recursive]
  dsimp only
  rw [more, expandDeeper]

theorem matchEntry_succ (root : FileTree) (n : Nat) (component : Component)
    (rest : List Component) (name : String) (path : Path) :
    matchEntry root (n + 1) component rest name path =
      if isMatch component name.toList then expandRest root n rest path else [] := by
  rw [matchEntry, expandRest]

/-! ### What is kept -/

theorem mem_childrenOf {child : Path} (among : (name, child) ∈ childrenOf root path) :
    child = path.child name := by
  rw [childrenOf] at among
  split at among
  · obtain ⟨name', -, same⟩ := List.mem_map.mp among
    rw [Prod.mk.injEq] at same
    rw [← same.1, ← same.2]
  · exact absurd among List.not_mem_nil

/-- What holds of all components behind an entry holds of those that are left when further
double stars are skipped. -/
theorem forall_mem_dropWhile {next : Component} {others : List Component}
    (later : ∀ component ∈ rest, kind component)
    (more : rest.dropWhile isRecursive = next :: others) :
    ∀ component ∈ next :: others, kind component := by
  intro component among
  rw [← more] at among
  exact later component ((List.dropWhile_suffix _).subset among)

theorem Throughout.onward (below : Throughout root kind P n)
    (kinds : ∀ component ∈ rest, kind component) (here : P path) :
    ∀ found ∈ expandRest root n rest path, P found := by
  intro found among
  rw [expandRest] at among
  split at among
  · rw [List.mem_singleton.mp among]
    exact here
  · exact below.below rest path kinds here found among

theorem Throughout.deeper (below : Throughout root kind P n) (first : kind component)
    (kinds : ∀ component ∈ rest, kind component) (here : P path) :
    ∀ found ∈ expandDeeper root n component rest path, P found := by
  intro found among
  rw [expandDeeper] at among
  split at among
  · exact below.below _ path (List.forall_mem_cons.mpr ⟨first, kinds⟩) here found among
  · exact absurd among List.not_mem_nil

theorem Throughout.below_succ (kept : Kept root kind P) (below : Throughout root kind P n)
    (kinds : ∀ component ∈ components, kind component) (here : P path) :
    ∀ found ∈ expandBelow root (n + 1) components path, P found := by
  intro found among
  cases components with
  | nil =>
    rw [expandBelow_nil] at among
    exact absurd among List.not_mem_nil
  | cons component rest =>
    obtain ⟨first, later⟩ := List.forall_mem_cons.mp kinds
    cases literal : literal? component with
    | some text =>
      rw [expandBelow_literal literal] at among
      split at among
      · exact below.onward later (kept.literal component text path first literal here) found among
      · exact absurd among List.not_mem_nil
    | none =>
      rw [expandBelow_wildcards literal] at among
      split at among
      · rcases List.mem_append.mp among with special | child
        · obtain ⟨text, matched, inside⟩ := List.mem_flatMap.mp special
          exact below.onward later (kept.special component text path first matched here) found
            inside
        · obtain ⟨⟨name, child⟩, entry, inside⟩ := List.mem_flatMap.mp child
          exact below.entry component rest name child first later (kept.child path here _ entry)
            found inside
      · exact absurd among List.not_mem_nil

theorem Throughout.entry_succ (below : Throughout root kind P n) (first : kind component)
    (later : ∀ component ∈ rest, kind component) (here : P path) :
    ∀ found ∈ expandAt root (n + 1) component rest name path, P found := by
  intro found among
  cases recursive : isRecursive component with
  | false =>
    rw [expandAt_plain recursive] at among
    exact below.matched component rest name path later here found among
  | true =>
    cases more : rest.dropWhile isRecursive with
    | nil =>
      rw [expandAt_last recursive more] at among
      split at among
      · rcases List.mem_cons.mp among with rfl | among
        · exact here
        · exact below.deeper first (List.forall_mem_nil kind) here found among
      · exact absurd among List.not_mem_nil
    | cons next others =>
      have others' := forall_mem_dropWhile later more
      rw [expandAt_next recursive more] at among
      rcases List.mem_append.mp among with matched | among
      · exact below.matched next others name path (List.forall_mem_cons.mp others').2 here found
          matched
      · exact below.deeper first others' here found among

theorem throughout (kept : Kept root kind P) (n : Nat) : Throughout root kind P n := by
  induction n with
  | zero =>
    refine ⟨fun _ _ _ _ found among => ?_, fun _ _ _ _ _ _ _ found among => ?_,
      fun _ _ _ _ _ _ found among => ?_⟩
    · rw [expandBelow] at among
      exact absurd among List.not_mem_nil
    · rw [expandAt] at among
      exact absurd among List.not_mem_nil
    · rw [matchEntry] at among
      exact absurd among List.not_mem_nil
  | succ n ih =>
    constructor
    case below => exact fun components path kinds here => ih.below_succ kept kinds here
    case entry => exact fun component rest name path first later here =>
      ih.entry_succ first later here
    case matched =>
      intro component rest name path later here found among
      rw [matchEntry_succ] at among
      split at among
      · exact ih.onward later here found among
      · exact absurd among List.not_mem_nil

/-! ### Patterns -/

/-- The components of a pattern, if they can be read. -/
theorem exists_of_expand {pattern : Path} {paths : List Path}
    (expanded : expand root pattern = .ok paths) :
    ∃ components, (componentTexts pattern.text).mapM (fun text => parse (String.ofList text)) =
        .ok components ∧
      paths = expandBelow root (expansionSteps root components.length) components ⟨['/']⟩ := by
  rw [expand] at expanded
  cases parsed : parse pattern.toString with
  | error fault =>
    rw [parsed] at expanded
    exact absurd expanded (by simp [bind, Except.bind])
  | ok tokens =>
    rw [parsed] at expanded
    simp only [bind, Except.bind] at expanded
    split at expanded
    · exact absurd expanded (by simp)
    · exact ⟨_, ‹_›, (Except.ok.inj expanded).symm⟩

/-- The paths that a pattern expands to start at the root. -/
theorem isAbsolute_of_mem_expand {pattern found : Path} {paths : List Path}
    (expanded : expand root pattern = .ok paths) (among : found ∈ paths) :
    found.isAbsolute = true := by
  obtain ⟨components, -, rfl⟩ := exists_of_expand expanded
  have kept : Kept root (fun _ => True) (·.isAbsolute = true) := by
    refine ⟨fun _ _ _ _ _ here => ?_, fun _ _ _ _ _ here => ?_, fun path here entry inside => ?_⟩
    · exact Path.isAbsolute_append here _
    · exact Path.isAbsolute_append here _
    · rw [mem_childrenOf inside]
      exact Path.isAbsolute_append here _
  exact (throughout kept _).below _ ⟨['/']⟩ (fun _ _ => trivial) rfl found among

end Expansion

end Glob

end MessageCatalog
