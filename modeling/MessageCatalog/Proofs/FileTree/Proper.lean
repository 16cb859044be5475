import Mathlib.Data.List.Nodup
import MessageCatalog.Proofs.FileTree.Making

/-!
# Proper trees

In a proper tree, each entry has a name that a path can spell, and no two entries of one
directory share it. Then everything in the tree is found by going down name by name, and
what a path leads to can be told from the path before it.

Putting something proper into a directory keeps a tree proper.
-/

namespace MessageCatalog

namespace FileTree

open MessageCatalog.Path (component? separator)

/-- Whether a text can be the name of an entry. -/
def IsName (name : String) : Prop :=
  component? name.toList = some (.name name.toList) ∧ separator ∉ name.toList

instance (name : String) : Decidable (IsName name) :=
  inferInstanceAs (Decidable (_ ∧ _))

mutual

/-- Whether all entries have names, and different ones if they share a directory. -/
def Proper : FileTree → Prop
  | file _ => True
  | directory entries => (entries.map (·.1)).Nodup ∧ ProperEntries entries

/-- Whether entries have names and are proper themselves. -/
def ProperEntries : List (String × FileTree) → Prop
  | [] => True
  | (name, node) :: entries => IsName name ∧ Proper node ∧ ProperEntries entries

end

mutual

/-- Check whether a tree is proper. -/
def decideProper : (tree : FileTree) → Decidable tree.Proper
  | file _ => .isTrue trivial
  | directory entries =>
    have := decideProperEntries entries
    inferInstanceAs (Decidable (_ ∧ _))

/-- Check whether entries have names and are proper themselves. -/
def decideProperEntries : (entries : List (String × FileTree)) → Decidable (ProperEntries entries)
  | [] => .isTrue trivial
  | (_, node) :: entries =>
    have := decideProper node
    have := decideProperEntries entries
    inferInstanceAs (Decidable (_ ∧ _ ∧ _))

end

instance : DecidablePred Proper := decideProper

section Proper

variable {tree node : FileTree} {entries : List (String × FileTree)}
  {names rest : List String} {name : String} {path : Path} {text : List Char}

/-! ### Entries -/

theorem properEntries_iff :
    ProperEntries entries ↔ ∀ entry ∈ entries, IsName entry.1 ∧ entry.2.Proper := by
  induction entries with
  | nil => simp [ProperEntries]
  | cons entry entries ih => simp [ProperEntries, ih, and_assoc]

theorem proper_directory_iff :
    (directory entries).Proper ↔
      (entries.map (·.1)).Nodup ∧ ∀ entry ∈ entries, IsName entry.1 ∧ entry.2.Proper := by
  rw [Proper, properEntries_iff]

theorem proper_empty : empty.Proper := by
  simp [empty, Proper, ProperEntries]

theorem mem_of_lookup (found : entries.lookup name = some node) : (name, node) ∈ entries := by
  induction entries with
  | nil => exact absurd found (by simp)
  | cons entry entries ih =>
    rw [lookup_cons_eq] at found
    split at found
    · rename_i same
      rw [same, ← Option.some.inj found]
      exact List.mem_cons_self
    · exact List.mem_cons_of_mem _ (ih found)

/-- Among different names, each entry is the one that is found. -/
theorem lookup_of_mem (distinct : (entries.map (·.1)).Nodup) (among : (name, node) ∈ entries) :
    entries.lookup name = some node := by
  induction entries with
  | nil => exact absurd among List.not_mem_nil
  | cons entry entries ih =>
    obtain ⟨new, distinct⟩ := List.nodup_cons.mp distinct
    rw [lookup_cons_eq]
    rcases List.mem_cons.mp among with rfl | among
    · rw [if_pos rfl]
    · rw [if_neg, ih distinct among]
      rintro rfl
      exact new (List.mem_map.mpr ⟨_, among, rfl⟩)

theorem lookup_ne_none_iff : entries.lookup name ≠ none ↔ name ∈ entries.map (·.1) := by
  induction entries with
  | nil => simp
  | cons entry entries ih =>
    rw [lookup_cons_eq, List.map_cons, List.mem_cons, ← ih]
    by_cases same : name = entry.1 <;> simp [same]

theorem map_fst_setEntry (name : String) (node : FileTree)
    (entries : List (String × FileTree)) :
    (setEntry name node entries).map (·.1) =
      if name ∈ entries.map (·.1) then entries.map (·.1) else entries.map (·.1) ++ [name] := by
  induction entries with
  | nil => rfl
  | cons entry entries ih =>
    rw [setEntry]
    by_cases same : entry.1 = name
    · simp [same]
    · rw [if_neg same, List.map_cons, ih, List.map_cons]
      by_cases later : name ∈ entries.map (·.1)
      · rw [if_pos later, if_pos (List.mem_cons_of_mem _ later)]
      · rw [if_neg later, if_neg, List.cons_append]
        exact fun among => (List.mem_cons.mp among).elim (fun first => same first.symm) later

theorem mem_setEntry {entry : String × FileTree} (among : entry ∈ setEntry name node entries) :
    entry = (name, node) ∨ entry ∈ entries := by
  induction entries with
  | nil => exact .inl (List.mem_singleton.mp among)
  | cons first entries ih =>
    rw [setEntry] at among
    split at among
    · exact (List.mem_cons.mp among).imp id (List.mem_cons_of_mem _)
    · rcases List.mem_cons.mp among with rfl | among
      · exact .inr List.mem_cons_self
      · exact (ih among).imp id (List.mem_cons_of_mem _)

/-! ### Proper trees -/

theorem Proper.lookup (proper : (directory entries).Proper)
    (found : entries.lookup name = some node) : IsName name ∧ node.Proper :=
  (proper_directory_iff.mp proper).2 _ (mem_of_lookup found)

theorem Proper.at? (proper : tree.Proper) (there : tree.at? names = some node) :
    node.Proper := by
  induction names generalizing tree with
  | nil =>
    rw [at?_nil, Option.some.injEq] at there
    exact there ▸ proper
  | cons name names ih =>
    rw [at?_cons] at there
    obtain ⟨child, found, below⟩ := Option.bind_eq_some_iff.mp there
    cases tree with
    | file text => exact absurd found (by simp [FileTree.entries])
    | directory entries => exact ih (proper.lookup found).2 below

theorem Proper.get (proper : tree.Proper) (got : tree.get path = .ok node) : node.Proper :=
  proper.at? (get_eq_ok_iff.mp got).2

theorem Proper.setEntry (proper : (directory entries).Proper) (named : IsName name)
    (inner : node.Proper) : (directory (setEntry name node entries)).Proper := by
  rw [proper_directory_iff] at proper ⊢
  obtain ⟨distinct, each⟩ := proper
  refine ⟨?_, fun entry among => ?_⟩
  · rw [map_fst_setEntry]
    split
    · exact distinct
    · rename_i new
      rw [List.nodup_append]
      refine ⟨distinct, List.nodup_singleton name, fun first among last here => ?_⟩
      rw [List.mem_singleton.mp here]
      rintro rfl
      exact new among
  · rcases mem_setEntry among with rfl | among
    · exact ⟨named, inner⟩
    · exact each entry among

theorem Proper.put (proper : tree.Proper) (there : tree.itemAt names = some .directory)
    (named : IsName name) (inner : node.Proper) : (tree.put (names ++ [name]) node).Proper := by
  induction names generalizing tree with
  | nil =>
    obtain ⟨entries, here⟩ := exists_of_itemAt_directory there
    obtain rfl := Option.some.inj ((at?_nil tree).symm.trans here)
    rw [List.nil_append, FileTree.put, FileTree.put]
    exact proper.setEntry named inner
  | cons first names ih =>
    cases tree with
    | file text => exact absurd there (by simp [itemAt, FileTree.entries])
    | directory entries =>
      rw [itemAt, at?_cons, FileTree.entries] at there
      cases found : entries.lookup first with
      | none => exact absurd there (by simp [found])
      | some child =>
        rw [found, Option.bind_some] at there
        obtain ⟨firstNamed, childProper⟩ := proper.lookup found
        rw [List.cons_append, FileTree.put, found, Option.getD_some]
        exact proper.setEntry firstNamed (ih childProper there)

/-! ### Going on by a piece -/

theorem not_isAbsolute_of_plain (plain : separator ∉ text) :
    (⟨text⟩ : Path).isAbsolute = false := by
  rw [← Bool.not_eq_true, Path.isAbsolute_iff]
  rintro ⟨s, same⟩
  apply plain
  rw [show text = separator :: s from same]
  exact List.mem_cons_self

theorem parts_append_plain (absolute : path.isAbsolute = true) (plain : separator ∉ text) :
    ∃ front, (path.parts.body = front ∨ path.parts.body = front ++ [[]]) ∧
      (path ++ (⟨text⟩ : Path)).parts = ⟨some .root, front ++ [text]⟩ := by
  obtain ⟨front, body, parts⟩ := Path.parts_append absolute (not_isAbsolute_of_plain plain)
  rw [Path.pieces_of_plain plain] at parts
  exact ⟨front, body, parts⟩

theorem placeOf_append (absolute : path.isAbsolute = true) (plain : separator ∉ text) :
    placeOf (path ++ (⟨text⟩ : Path)) = stepFrom (placeOf path) text := by
  obtain ⟨front, body, parts⟩ := parts_append_plain absolute plain
  have same : placeFrom [] front = placeOf path := by
    rcases body with body | body
    · rw [placeOf, body]
    · rw [placeOf, body, placeFrom_append, placeFrom_cons, placeFrom_nil,
        stepFrom_silent rfl]
  rw [placeOf, parts, placeFrom_append, same, placeFrom_cons, placeFrom_nil]

/-- A path can be followed by one more piece if it leads to a directory that has it. -/
theorem existsAt_append (tree : FileTree) (absolute : path.isAbsolute = true)
    (plain : separator ∉ text) :
    tree.existsAt (path ++ (⟨text⟩ : Path)) = true ↔
      tree.isDirectoryAt path = true ∧ tree.itemAt (stepFrom (placeOf path) text) ≠ none := by
  have lead := Path.lead_of_isAbsolute absolute
  obtain ⟨front, body, parts⟩ := parts_append_plain absolute plain
  have same : placeFrom [] front = placeOf path ∧
      (tree.isDirectoryAt path = true ↔ tree.obstacle? [] front = none ∧
        tree.itemAt (placeOf path) = some .directory) := by
    rw [isDirectoryAt_iff, obstacleTo?, lead, placeOf]
    rcases body with body | body
    · rw [body]
      exact ⟨rfl, Iff.rfl⟩
    · rw [body, placeFrom_append, placeFrom_cons, placeFrom_nil, stepFrom_silent rfl]
      refine ⟨rfl, ?_⟩
      dsimp only
      rw [obstacle?_append, Option.or_eq_none_iff, obstacle?_single, stepFrom_silent rfl,
        and_assoc]
      refine and_congr_right fun _ => ⟨And.right, fun inside => ⟨?_, inside⟩⟩
      rw [if_neg (Classical.not_not.mpr inside), if_neg (by rw [inside]; simp)]
  rw [existsAt_iff, obstacleTo?, parts]
  dsimp only
  rw [obstacle?_append, Option.or_eq_none_iff, obstacle?_single, same.1, same.2, and_assoc]
  refine and_congr_right fun _ => ?_
  by_cases inside : tree.itemAt (placeOf path) = some .directory
  · rw [if_neg (Classical.not_not.mpr inside)]
    by_cases missing : tree.itemAt (stepFrom (placeOf path) text) = none
    · simp [missing]
    · simp [missing, inside]
  · simp [inside]

theorem isStraight_append (absolute : path.isAbsolute = true) (straight : path.IsStraight)
    (plain : separator ∉ text) (down : component? text ≠ some .parent) :
    (path ++ (⟨text⟩ : Path)).IsStraight := by
  obtain ⟨front, body, parts⟩ := parts_append_plain absolute plain
  rw [Path.IsStraight, Path.components, parts]
  intro climbs
  rcases List.mem_append.mp climbs with lead | climbs
  · exact absurd lead (by simp)
  · obtain ⟨piece, among, up⟩ := List.mem_filterMap.mp climbs
    rcases List.mem_append.mp among with before | last
    · have inside : piece ∈ path.parts.body := by
        rcases body with body | body
        · rw [body]
          exact before
        · rw [body]
          exact List.mem_append_left _ before
      exact straight.component?_ne inside up
    · rw [List.mem_singleton.mp last] at up
      exact down up

theorem isDirectoryAt_of_get (got : tree.get path = .ok (directory entries)) :
    tree.isDirectoryAt path = true := by
  rw [isDirectoryAt, got]
  rfl

/-! ### Entries and their paths -/

theorem placeOf_child (absolute : path.isAbsolute = true) (named : IsName name) :
    placeOf (path.child name) = placeOf path ++ [name] := by
  have place : placeOf (path.child name) = stepFrom (placeOf path) name.toList :=
    placeOf_append absolute named.2
  rw [stepFrom_name named.1, String.ofList_toList] at place
  exact place

theorem isStraight_child (absolute : path.isAbsolute = true) (straight : path.IsStraight)
    (named : IsName name) : (path.child name).IsStraight :=
  isStraight_append absolute straight named.2 (by rw [named.1]; simp)

theorem isAbsolute_of_get (got : tree.get path = .ok node) : path.isAbsolute = true := by
  have clear := (get_eq_ok_iff.mp got).1
  rw [obstacleTo?] at clear
  split at clear
  · exact Path.isAbsolute_of_lead ‹_›
  · exact absurd clear (by simp)

/-- An entry of a directory is at the path of the directory and its own name. -/
theorem get_child (proper : tree.Proper) (got : tree.get path = .ok (directory entries))
    (found : entries.lookup name = some node) : tree.get (path.child name) = .ok node := by
  have absolute := isAbsolute_of_get got
  have named := ((proper.get got).lookup found).1
  have there : tree.at? (placeOf path ++ [name]) = some node := by
    rw [at?_concat, (get_eq_ok_iff.mp got).2]
    exact found
  have place := placeOf_child absolute named
  rw [get_eq_ok_iff]
  refine ⟨existsAt_iff.mp ((existsAt_append tree absolute named.2).mpr ?_), by rw [place, there]⟩
  refine ⟨isDirectoryAt_of_get got, ?_⟩
  rw [stepFrom_name named.1, String.ofList_toList, itemAt, there]
  simp

end Proper

end FileTree

end MessageCatalog
