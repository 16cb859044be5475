import MessageCatalog.Proofs.FileTree.Growth
import MessageCatalog.Proofs.Glob.Expansion

/-!
# Enough steps

The steps of an expansion are bounded, and the bound is never reached: an expansion either
uses up a component of its pattern, after which it may be anywhere in the tree, or it goes
down in the tree. So the number of components left and the height of what is below the path
say how many steps suffice, and more steps change nothing.
-/

namespace MessageCatalog

namespace Glob

/-- The height of what is at a path. -/
def heightAt (root : FileTree) (path : Path) : Nat :=
  match root.get path with
  | .ok node => node.height
  | .error _ => 0

/-- Steps that suffice below a path for a number of components. -/
def stepsAt (root : FileTree) (count : Nat) (path : Path) : Nat :=
  count * (3 * (root.height + 2)) + 3 * heightAt root path

/-- Whether one more step changes nothing wherever the steps suffice. -/
structure Suffices (root : FileTree) (n : Nat) : Prop where
  below : ∀ components path, stepsAt root components.length path < n →
    expandBelow root (n + 1) components path = expandBelow root n components path
  entry : ∀ component rest name path, stepsAt root (rest.length + 1) path + 1 < n →
    expandAt root (n + 1) component rest name path = expandAt root n component rest name path
  matched : ∀ component rest name path, stepsAt root rest.length path + 1 < n →
    matchEntry root (n + 1) component rest name path =
      matchEntry root n component rest name path

section Bound

variable {root node : FileTree} {path child : Path} {n : Nat} {name : String}
  {names : List String} {entries : List (String × FileTree)} {rest components : List Component}
  {component : Component}

/-! ### Heights -/

theorem height_le_heightOf (among : (name, node) ∈ entries) :
    node.height ≤ FileTree.heightOf entries := by
  induction entries with
  | nil => exact absurd among List.not_mem_nil
  | cons entry entries ih =>
    rw [FileTree.heightOf]
    rcases List.mem_cons.mp among with rfl | among
    · exact Nat.le_max_left _ _
    · exact Nat.le_trans (ih among) (Nat.le_max_right _ _)

theorem height_le_of_at? (there : root.at? names = some node) : node.height ≤ root.height := by
  induction names generalizing root with
  | nil =>
    rw [FileTree.at?_nil, Option.some.injEq] at there
    exact Nat.le_of_eq (congrArg FileTree.height there.symm)
  | cons name names ih =>
    rw [FileTree.at?_cons] at there
    obtain ⟨child, found, below⟩ := Option.bind_eq_some_iff.mp there
    cases root with
    | file text => exact absurd found (by simp [FileTree.entries])
    | directory entries =>
      rw [FileTree.entries] at found
      have inner := height_le_heightOf (FileTree.mem_of_lookup found)
      have deeper := ih below
      rw [FileTree.height]
      omega

theorem heightAt_le (root : FileTree) (path : Path) : heightAt root path ≤ root.height := by
  rw [heightAt]
  split
  · rename_i node got
    exact height_le_of_at? (FileTree.get_eq_ok_iff.mp got).2
  · exact Nat.zero_le _

theorem childrenOf_of_get (got : root.get path = .ok node) :
    childrenOf root path =
      ((node.entries.map (·.1)).mergeSort fun a b => decide (a ≤ b)).map fun name =>
        (name, path.child name) := by
  rw [childrenOf, got]

theorem exists_get_of_mem_childrenOf (proper : root.Proper)
    (among : (name, child) ∈ childrenOf root path) :
    ∃ entries node, root.get path = .ok (.directory entries) ∧ (name, node) ∈ entries ∧
      child = path.child name ∧ root.get child = .ok node := by
  have spelled := mem_childrenOf among
  cases got : root.get path with
  | error fault =>
    rw [childrenOf, got] at among
    exact absurd among List.not_mem_nil
  | ok node =>
    rw [childrenOf_of_get got] at among
    obtain ⟨name', sorted, same⟩ := List.mem_map.mp among
    obtain rfl := (Prod.mk.inj same).1
    obtain ⟨⟨name', node'⟩, inside, rfl⟩ := List.mem_map.mp (List.mem_mergeSort.mp sorted)
    cases node with
    | file text => exact absurd inside List.not_mem_nil
    | directory entries =>
      have distinct := (FileTree.proper_directory_iff.mp (proper.get got)).1
      have found := FileTree.lookup_of_mem distinct inside
      exact ⟨entries, node', rfl, inside, spelled,
        spelled ▸ FileTree.get_child proper got found⟩

/-- Below a directory the height is smaller. -/
theorem heightAt_child (proper : root.Proper) (among : (name, child) ∈ childrenOf root path) :
    heightAt root child < heightAt root path := by
  obtain ⟨entries, node, got, inside, -, below⟩ := exists_get_of_mem_childrenOf proper among
  rw [heightAt, heightAt, got, below]
  exact Nat.lt_succ_of_le (height_le_heightOf inside)

/-! ### One step -/

theorem stepsAt_succ (root : FileTree) (count : Nat) (path : Path) :
    stepsAt root (count + 1) path = stepsAt root count path + 3 * (root.height + 2) := by
  rw [stepsAt, stepsAt, Nat.succ_mul]
  omega

theorem stepsAt_mono {count count' : Nat} (fewer : count ≤ count') (root : FileTree)
    (path : Path) : stepsAt root count path ≤ stepsAt root count' path :=
  Nat.add_le_add_right (Nat.mul_le_mul_right _ fewer) _

theorem Suffices.onward (enough : Suffices root n)
    (steps : stepsAt root (rest.length + 1) path ≤ n) (next : Path) :
    expandRest root (n + 1) rest next = expandRest root n rest next := by
  have low := heightAt_le root next
  rw [expandRest, expandRest, enough.below rest next]
  rw [stepsAt, Nat.succ_mul] at steps
  rw [stepsAt]
  omega

theorem Suffices.deeper (enough : Suffices root n)
    (steps : stepsAt root (rest.length + 1) path < n) :
    expandDeeper root (n + 1) component rest path = expandDeeper root n component rest path := by
  rw [expandDeeper, expandDeeper, enough.below (component :: rest) path steps]

theorem Suffices.below_succ (enough : Suffices root n) (proper : root.Proper)
    (steps : stepsAt root components.length path < n + 1) :
    expandBelow root (n + 2) components path = expandBelow root (n + 1) components path := by
  cases components with
  | nil => rw [expandBelow_nil, expandBelow_nil]
  | cons component rest =>
    rw [List.length_cons] at steps
    have onward := enough.onward (Nat.le_of_lt_succ steps)
    cases literal : literal? component with
    | some text => rw [expandBelow_literal literal, expandBelow_literal literal, onward]
    | none =>
      rw [expandBelow_wildcards literal, expandBelow_wildcards literal]
      have entries : (childrenOf root path).flatMap (fun entry =>
          expandAt root (n + 1) component rest entry.1 entry.2) =
          (childrenOf root path).flatMap fun entry =>
            expandAt root n component rest entry.1 entry.2 := by
        refine List.flatMap_congr fun entry among => enough.entry _ _ _ _ ?_
        have lower := heightAt_child proper among
        rw [stepsAt] at steps ⊢
        omega
      rw [entries]
      simp only [onward]

theorem Suffices.entry_succ (enough : Suffices root n)
    (steps : stepsAt root (rest.length + 1) path + 1 < n + 1) :
    expandAt root (n + 2) component rest name path =
      expandAt root (n + 1) component rest name path := by
  have shorter : (rest.dropWhile isRecursive).length ≤ rest.length :=
    (List.dropWhile_suffix _).length_le
  rw [stepsAt_succ] at steps
  cases recursive : isRecursive component with
  | false =>
    rw [expandAt_plain recursive, expandAt_plain recursive]
    exact enough.matched component rest name path (by omega)
  | true =>
    cases more : rest.dropWhile isRecursive with
    | nil =>
      have fewer := stepsAt_mono (Nat.zero_le rest.length) root path
      have deeper : expandDeeper root (n + 1) component [] path =
          expandDeeper root n component [] path :=
        enough.deeper (by rw [List.length_nil, stepsAt_succ]; omega)
      rw [expandAt_last recursive more, expandAt_last recursive more, deeper]
    | cons next others =>
      rw [more, List.length_cons] at shorter
      have fewer := stepsAt_mono shorter root path
      have deeper : expandDeeper root (n + 1) component (next :: others) path =
          expandDeeper root n component (next :: others) path :=
        enough.deeper (by rw [List.length_cons, stepsAt_succ]; omega)
      rw [stepsAt_succ] at fewer
      rw [expandAt_next recursive more, expandAt_next recursive more, deeper,
        enough.matched next others name path (by omega)]

theorem suffices_all (proper : root.Proper) (n : Nat) : Suffices root n := by
  induction n with
  | zero =>
    exact ⟨fun _ _ none => absurd none (Nat.not_lt_zero _),
      fun _ _ _ _ none => absurd none (Nat.not_lt_zero _),
      fun _ _ _ _ none => absurd none (Nat.not_lt_zero _)⟩
  | succ n ih =>
    constructor
    case below => exact fun components path steps => ih.below_succ proper steps
    case entry => exact fun component rest name path steps => ih.entry_succ steps
    case matched =>
      intro component rest name path steps
      rw [matchEntry_succ, matchEntry_succ, expandRest, expandRest,
        ih.below rest path (by omega)]

/-- More steps than an expansion is given change nothing. -/
theorem expandBelow_of_le (proper : root.Proper) (components : List Component) (path : Path)
    (enough : expansionSteps root components.length ≤ n) :
    expandBelow root n components path =
      expandBelow root (expansionSteps root components.length) components path := by
  have suffices' : stepsAt root components.length path <
      expansionSteps root components.length := by
    have low := heightAt_le root path
    rw [expansionSteps, Nat.mul_assoc, Nat.succ_mul, stepsAt]
    omega
  induction enough with
  | refl => rfl
  | step more ih =>
    rw [← ih]
    exact (suffices_all proper _).below components path (Nat.lt_of_lt_of_le suffices' more)

end Bound

end Glob

end MessageCatalog
