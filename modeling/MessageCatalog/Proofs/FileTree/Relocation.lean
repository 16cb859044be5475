import MessageCatalog.Proofs.FileTree.Growth
import MessageCatalog.Proofs.Path.Joining

/-!
# Copies of directories

A directory can be at one path of one tree and at another path of another tree. Paths that go
down from there lead to the same in both: pieces that never go up are followed inside of the
directory, whatever lies around it.
-/

namespace MessageCatalog

namespace FileTree

open MessageCatalog.Path (component?)

/-- Whether a tree has a directory with certain entries at a path. -/
structure Hosts (tree : FileTree) (root : Path) (entries : List (String × FileTree)) : Prop where
  proper : tree.Proper
  here : tree.get root = .ok (.directory entries)

/-- Whether two paths go down from two roots in the same way. -/
inductive Aligned (root root' : Path) : Path → Path → Prop where
  | root : Aligned root root' root root'
  | below {rest : Path} (relative : rest.isAbsolute = false) (straight : rest.IsStraight) :
      Aligned root root' (root ++ rest) (root' ++ rest)

section Relocation

variable {tree tree' node : FileTree} {entries : List (String × FileTree)}
  {root root' path path' rest : Path} {base way : Way} {name : String}
  {pieces : List (List Char)} {piece text : List Char}

/-! ### Following pieces inside a directory -/

theorem node_append (here : base.node tree = node) (way : Way) :
    Way.node tree (way ++ base) = way.node node := by
  cases way with
  | nil => exact here
  | cons step way => rfl

/-- A piece that does not go up is followed from a directory as if there was nothing else. -/
theorem step_append (here : base.node tree = node) (down : component? piece ≠ some .parent)
    (way : Way) :
    Way.step tree (way ++ base) piece = (Way.step node way piece).map (· ++ base) := by
  rw [Way.step, Way.step, node_append here]
  split
  · rfl
  · rcases component?_cases piece with silent | up | named
    · rw [silent]
      rfl
    · exact absurd up down
    · rw [named]
      dsimp only
      cases (way.node node).entries.lookup (String.ofList piece) <;> rfl

theorem foldlM_step_append (here : base.node tree = node)
    (down : ∀ piece ∈ pieces, component? piece ≠ some .parent) (way : Way) :
    pieces.foldlM (Way.step tree) (way ++ base) =
      (pieces.foldlM (Way.step node) way).map (· ++ base) := by
  induction pieces generalizing way with
  | nil => rfl
  | cons piece pieces ih =>
    obtain ⟨first, later⟩ := List.forall_mem_cons.mp down
    rw [List.foldlM_cons, List.foldlM_cons, step_append here first]
    cases Way.step node way piece with
    | error fault => rfl
    | ok way' => exact ih later way'

theorem exists_follow (got : tree.get path = .ok node) :
    ∃ way, tree.follow path = .ok way ∧ way.node tree = node := by
  rw [get] at got
  cases followed : tree.follow path with
  | error fault =>
    rw [followed] at got
    exact absurd got (by simp [bind, Except.bind])
  | ok way =>
    rw [followed] at got
    exact ⟨way, rfl, Except.ok.inj got⟩

/-- Where no piece stands for a component, pieces lead back to where they start. -/
theorem eq_of_silent {way' : Way} (silent : ∀ piece ∈ pieces, component? piece = none)
    (followed : pieces.foldlM (Way.step tree) way = .ok way') : way' = way := by
  induction pieces with
  | nil => exact (Except.ok.inj followed).symm
  | cons piece pieces ih =>
    obtain ⟨first, later⟩ := List.forall_mem_cons.mp silent
    rw [List.foldlM_cons, Way.step, first] at followed
    split at followed
    · exact absurd followed (by simp [bind, Except.bind])
    · exact ih later followed

/-- A separator at the end of the path of a directory makes no difference. -/
theorem foldlM_step_of_silent_end
    (followed : (pieces ++ [[]]).foldlM (Way.step tree) [] = .ok way) :
    pieces.foldlM (Way.step tree) [] = .ok way := by
  rw [List.foldlM_append] at followed
  cases before : pieces.foldlM (Way.step tree) [] with
  | error fault =>
    rw [before] at followed
    exact absurd followed (by simp [bind, Except.bind])
  | ok way' =>
    rw [before] at followed
    have silent : ∀ piece ∈ [([] : List Char)], component? piece = none := by decide
    rw [eq_of_silent silent followed]

/-- Going down from a directory leads to what is in it. -/
theorem get_append (got : tree.get root = .ok node) (relative : rest.isAbsolute = false)
    (straight : rest.IsStraight) :
    tree.get (root ++ rest) =
      ((Path.pieces rest.text).foldlM (Way.step node) []).map (Way.node node) := by
  have absolute := isAbsolute_of_get got
  obtain ⟨base, followed, here⟩ := exists_follow got
  obtain ⟨front, body, parts⟩ := Path.parts_append absolute relative
  rw [follow, piecesOf_eq, if_pos (Path.lead_of_isAbsolute absolute)] at followed
  change root.parts.body.foldlM (Way.step tree) [] = _ at followed
  have before : front.foldlM (Way.step tree) [] = .ok base := by
    rcases body with body | body
    · rwa [body] at followed
    · rw [body] at followed
      exact foldlM_step_of_silent_end followed
  have inside := foldlM_step_append here (fun piece among => straight.pieces among) []
  rw [List.nil_append] at inside
  rw [get, follow, piecesOf_eq, parts, if_pos rfl]
  change (List.foldlM (Way.step tree) [] (front ++ Path.pieces rest.text) >>=
    fun way => pure (way.node tree)) = _
  rw [List.foldlM_append, before]
  change (List.foldlM (Way.step tree) base (Path.pieces rest.text) >>=
    fun way => pure (way.node tree)) = _
  rw [inside]
  cases List.foldlM (Way.step node) [] (Path.pieces rest.text) with
  | error fault => rfl
  | ok way => exact congrArg Except.ok (node_append here way)

/-! ### Directories and their copies -/

theorem Hosts.text_ne_nil (hosts : Hosts tree root entries) : root.text ≠ [] := by
  obtain ⟨s, text⟩ := Path.isAbsolute_iff.mp (isAbsolute_of_get hosts.here)
  rw [text]
  exact List.cons_ne_nil _ _

/-- A file below a directory has a component of its own. -/
theorem Hosts.below_ne_nil (hosts : Hosts tree root entries) {text : Option String}
    (relative : rest.isAbsolute = false) (straight : rest.IsStraight)
    (found : tree.get (root ++ rest) = .ok (.file text)) : rest.below ≠ [] := by
  intro none
  rw [← Path.filterMap_pieces, List.filterMap_eq_nil_iff] at none
  rw [get_append hosts.here relative straight] at found
  cases followed : (Path.pieces rest.text).foldlM (Way.step (.directory entries)) [] with
  | error fault =>
    rw [followed] at found
    exact absurd found (by simp [Except.map])
  | ok way =>
    rw [followed, eq_of_silent none followed] at found
    exact absurd (Except.ok.inj found) (by simp [Way.node])

/-- A directory by itself is a copy of it, at the root. -/
theorem Hosts.alone (hosts : Hosts tree root entries) :
    Hosts (.directory entries) ⟨[Path.separator]⟩ entries where
  proper := hosts.proper.get hosts.here
  here := rfl

theorem Hosts.of_append_empty (hosts : Hosts tree (root ++ Path.empty) entries)
    (absolute : root.isAbsolute = true) : Hosts tree root entries := by
  have inside := ((existsAt_append tree absolute List.not_mem_nil).mp
    (existsAt_of_get hosts.here)).1
  have here := hosts.here
  refine ⟨hosts.proper, ?_⟩
  rw [isDirectoryAt] at inside
  cases got : tree.get root with
  | error fault =>
    rw [got] at inside
    exact absurd inside Bool.false_ne_true
  | ok node =>
    rw [got] at inside
    rw [get_append got rfl (by decide)] at here
    cases node with
    | file text => exact absurd inside Bool.false_ne_true
    | directory entries' => exact here

/-! ### Aligned paths -/

/-- Aligned paths stay aligned when they go down in the same way. -/
theorem Aligned.append (aligned : Aligned root root' path path')
    (relative : rest.isAbsolute = false) (straight : rest.IsStraight) :
    Aligned root root' (path ++ rest) (path' ++ rest) := by
  cases aligned with
  | root => exact .below relative straight
  | below relative' straight' =>
    rw [Path.append_assoc, Path.append_assoc]
    exact .below (Path.not_isAbsolute_append relative' relative)
      (straight'.append straight relative)

theorem isStraight_of_plain (plain : Path.separator ∉ text)
    (down : component? text ≠ some .parent) : (⟨text⟩ : Path).IsStraight := by
  rw [Path.isStraight_iff_below, ← Path.filterMap_pieces, Path.pieces_of_plain plain]
  intro climbs
  obtain ⟨piece, among, up⟩ := List.mem_filterMap.mp climbs
  exact down (List.mem_singleton.mp among ▸ up)

theorem Aligned.onward (aligned : Aligned root root' path path') (plain : Path.separator ∉ text)
    (down : component? text ≠ some .parent) :
    Aligned root root' (path ++ ⟨text⟩) (path' ++ ⟨text⟩) :=
  aligned.append (not_isAbsolute_of_plain plain) (isStraight_of_plain plain down)

theorem Aligned.child (aligned : Aligned root root' path path') (named : IsName name) :
    Aligned root root' (path.child name) (path'.child name) :=
  aligned.onward named.2 (by rw [named.1]; simp)

/-- Aligned paths lead to the same. -/
theorem Aligned.get_eq (aligned : Aligned root root' path path') (hosts : Hosts tree root entries)
    (hosts' : Hosts tree' root' entries) : tree.get path = tree'.get path' := by
  cases aligned with
  | root => rw [hosts.here, hosts'.here]
  | below relative straight =>
    rw [get_append hosts.here relative straight, get_append hosts'.here relative straight]

theorem Aligned.existsAt_eq (aligned : Aligned root root' path path')
    (hosts : Hosts tree root entries) (hosts' : Hosts tree' root' entries) :
    tree.existsAt path = tree'.existsAt path' := by
  rw [existsAt, existsAt, aligned.get_eq hosts hosts']

theorem Aligned.isDirectoryAt_eq (aligned : Aligned root root' path path')
    (hosts : Hosts tree root entries) (hosts' : Hosts tree' root' entries) :
    tree.isDirectoryAt path = tree'.isDirectoryAt path' := by
  rw [isDirectoryAt, isDirectoryAt, aligned.get_eq hosts hosts']

end Relocation

end FileTree

end MessageCatalog
