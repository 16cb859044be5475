import MessageCatalog.Proofs.FileTree.Following

/-!
# Replacing files

Putting a file in the place of another one keeps all directories and the order of their
entries. So what is put twice in one place is what was put last, files in different places
can be put in either order, and putting what is there already changes nothing: files that
are written again, each with what it was last given, leave the tree as it is.
-/

namespace MessageCatalog

namespace FileTree

section Entries

variable {name other : String} {node a b : FileTree} {entries : List (String × FileTree)}

theorem setEntry_setEntry (name : String) (a b : FileTree)
    (entries : List (String × FileTree)) :
    setEntry name b (setEntry name a entries) = setEntry name b entries := by
  induction entries with
  | nil => simp [setEntry]
  | cons entry entries ih =>
    rw [setEntry, setEntry]
    by_cases same : entry.1 = name
    · rw [if_pos same, if_pos same, setEntry, if_pos rfl]
    · rw [if_neg same, if_neg same, setEntry, if_neg same, ih]

/-- Entries can be set in either order if one of them is there already. -/
theorem setEntry_comm (different : name ≠ other) (there : entries.lookup name ≠ none) :
    setEntry other b (setEntry name a entries) = setEntry name a (setEntry other b entries) := by
  induction entries with
  | nil => exact absurd rfl there
  | cons entry entries ih =>
    obtain ⟨first, old⟩ := entry
    rw [lookup_cons_eq] at there
    by_cases here : first = name
    · subst here
      simp [setEntry, different]
    · by_cases here' : first = other
      · subst here'
        simp [setEntry, here]
      · rw [if_neg (Ne.symm here)] at there
        simp [setEntry, here, here', ih there]

theorem setEntry_self (there : entries.lookup name = some node) :
    setEntry name node entries = entries := by
  induction entries with
  | nil => exact absurd there (by simp)
  | cons entry entries ih =>
    obtain ⟨first, old⟩ := entry
    rw [lookup_cons_eq] at there
    by_cases here : first = name
    · rw [if_pos here.symm, Option.some.injEq] at there
      rw [setEntry, if_pos here, ← here, there]
    · rw [if_neg (Ne.symm here)] at there
      rw [setEntry, if_neg here, ih there]

end Entries

section Replacing

variable {tree node a b : FileTree} {names others : List String} {text : Option String}

theorem at?_of_itemAt_file (file : tree.itemAt names = some (.file text)) :
    tree.at? names = some (.file text) := by
  obtain ⟨node, found, same⟩ := Option.map_eq_some_iff.mp file
  cases node with
  | directory entries => exact absurd same (by simp)
  | file other =>
    rw [item_file, Item.file.injEq] at same
    rw [found, same]

theorem put_self (there : tree.at? names = some node) : tree.put names node = tree := by
  induction names generalizing tree with
  | nil =>
    rw [at?_nil, Option.some.injEq] at there
    rw [put, there]
  | cons name names ih =>
    cases tree with
    | file text => rw [put]
    | directory entries =>
      rw [at?_cons, FileTree.entries] at there
      obtain ⟨child, found, below⟩ := Option.bind_eq_some_iff.mp there
      rw [put, found, Option.getD_some, ih below, setEntry_self found]

theorem put_put (tree : FileTree) (names : List String) (a b : FileTree) :
    (tree.put names a).put names b = tree.put names b := by
  induction names generalizing tree with
  | nil => rw [put, put]
  | cons name names ih =>
    cases tree with
    | file text => rw [put, put]
    | directory entries =>
      rw [put, put, put, lookup_setEntry, if_pos rfl, Option.getD_some, ih, setEntry_setEntry]

/-- Files in different places can be replaced in either order. -/
theorem put_comm {text' : Option String} (different : names ≠ others)
    (file : tree.itemAt names = some (.file text))
    (file' : tree.itemAt others = some (.file text')) :
    (tree.put names a).put others b = (tree.put others b).put names a := by
  induction names generalizing tree others with
  | nil =>
    cases others with
    | nil => exact absurd rfl different
    | cons other others =>
      have above : tree.itemAt [] = some .directory :=
        itemAt_of_isPrefix (by rw [file']; simp) List.nil_prefix different
      rw [above] at file
      exact absurd file (by simp)
  | cons name names ih =>
    cases others with
    | nil =>
      have above : tree.itemAt [] = some .directory :=
        itemAt_of_isPrefix (by rw [file]; simp) List.nil_prefix different.symm
      rw [above] at file'
      exact absurd file' (by simp)
    | cons other others =>
      cases tree with
      | file text => exact absurd file (by simp [itemAt, FileTree.entries])
      | directory entries =>
        rw [itemAt, at?_cons, FileTree.entries] at file file'
        cases found : entries.lookup name with
        | none => exact absurd file (by simp [found])
        | some child =>
          cases found' : entries.lookup other with
          | none => exact absurd file' (by simp [found'])
          | some child' =>
            rw [found, Option.bind_some] at file
            rw [found', Option.bind_some] at file'
            rw [put, put, put, put, lookup_setEntry, lookup_setEntry, found, found']
            by_cases same : name = other
            · subst same
              obtain rfl := Option.some.inj (found.symm.trans found')
              have deeper : names ≠ others := fun equal => different (by rw [equal])
              rw [if_pos rfl, if_pos rfl, setEntry_setEntry, setEntry_setEntry]
              simp only [Option.getD_some]
              rw [ih deeper file file']
            · rw [if_neg (Ne.symm same), if_neg same]
              rw [setEntry_comm same (by rw [found]; simp)]

/-- Writing a file again changes nothing else. -/
theorem itemAt_put_of_file (file : tree.itemAt names = some (.file text))
    (text' : Option String) (others : List String) :
    (tree.put names (.file text')).itemAt others =
      if others = names then some (.file text') else tree.itemAt others := by
  rcases List.eq_nil_or_concat names with rfl | ⟨above, name, rfl⟩
  · rw [itemAt, at?_nil, Option.map_some, Option.some.injEq] at file
    cases tree with
    | directory entries => exact absurd file (by simp)
    | file old => cases others <;> simp [put, itemAt, FileTree.entries]
  · rw [List.concat_eq_append] at file ⊢
    have there : tree.itemAt above = some .directory :=
      itemAt_of_below (by rw [file]; simp)
    exact itemAt_put there (by rw [file]; simp) rfl others

/-! ### Writing files again -/

/-- Write files, one after the other. -/
def rewriteFiles (tree : FileTree) (writes : List (List String × String)) : FileTree :=
  writes.foldl (fun tree write => tree.put write.1 (.file (some write.2))) tree

theorem rewriteFiles_cons (tree : FileTree) (write : List String × String)
    (writes : List (List String × String)) :
    tree.rewriteFiles (write :: writes) =
      (tree.put write.1 (.file (some write.2))).rewriteFiles writes := rfl

theorem rewriteFiles_append (tree : FileTree) (writes others : List (List String × String)) :
    tree.rewriteFiles (writes ++ others) = (tree.rewriteFiles writes).rewriteFiles others :=
  List.foldl_append

/-- Each place holds what it was last given. -/
def Settled (tree : FileTree) : List (List String × String) → Prop
  | [] => True
  | write :: writes =>
    ((∀ later ∈ writes, later.1 ≠ write.1) →
      tree.itemAt write.1 = some (.file (some write.2))) ∧ Settled tree writes

/-- Whether each write is to the place of a file. -/
def Rewritable (tree : FileTree) (writes : List (List String × String)) : Prop :=
  ∀ write ∈ writes, ∃ old, tree.itemAt write.1 = some (.file old)

theorem Rewritable.put {write : List String × String} {writes : List (List String × String)}
    (files : tree.Rewritable (write :: writes)) (file : tree.itemAt write.1 = some (.file text)) :
    (tree.put write.1 (.file (some write.2))).Rewritable writes := by
  intro other among
  rw [itemAt_put_of_file file]
  split
  · exact ⟨_, rfl⟩
  · exact files other (List.mem_cons_of_mem write among)

/-- Where nothing is written, nothing changes. -/
theorem itemAt_rewriteFiles {writes : List (List String × String)}
    (files : tree.Rewritable writes) (apart : ∀ write ∈ writes, write.1 ≠ names) :
    (tree.rewriteFiles writes).itemAt names = tree.itemAt names := by
  induction writes generalizing tree with
  | nil => rfl
  | cons write writes ih =>
    obtain ⟨old, here⟩ := files write List.mem_cons_self
    rw [rewriteFiles_cons, ih (files.put here) fun other among =>
      apart other (List.mem_cons_of_mem write among), itemAt_put_of_file here,
      if_neg (Ne.symm (apart write List.mem_cons_self))]

theorem retains_rewriteFiles {writes : List (List String × String)}
    (files : tree.Rewritable writes) : Retains tree (tree.rewriteFiles writes) := by
  induction writes generalizing tree with
  | nil => exact .refl tree
  | cons write writes ih =>
    obtain ⟨old, here⟩ := files write List.mem_cons_self
    refine Retains.trans ⟨fun names directory => ?_, fun names text file => ?_⟩
      (ih (files.put here))
    · rw [itemAt_put_of_file here, if_neg, directory]
      rintro rfl
      rw [here] at directory
      exact absurd directory (by simp)
    · rw [itemAt_put_of_file here]
      split
      · exact ⟨_, rfl⟩
      · exact ⟨text, file⟩

/-- What is written in a place that is written later on does not matter. -/
theorem rewriteFiles_put_of_later {writes : List (List String × String)}
    (file : tree.itemAt names = some (.file text))
    (files : tree.Rewritable writes)
    (later : ∃ write ∈ writes, write.1 = names) (text' : Option String) :
    (tree.put names (.file text')).rewriteFiles writes = tree.rewriteFiles writes := by
  induction writes generalizing tree text with
  | nil =>
    obtain ⟨write, among, -⟩ := later
    exact absurd among List.not_mem_nil
  | cons write writes ih =>
    rw [rewriteFiles_cons, rewriteFiles_cons]
    obtain ⟨old, here⟩ := files write List.mem_cons_self
    by_cases same : write.1 = names
    · rw [same, put_put]
    · rw [put_comm (Ne.symm same) file here]
      have kept : (tree.put write.1 (.file (some write.2))).itemAt names = some (.file text) := by
        rw [itemAt_put_of_file here, if_neg (Ne.symm same), file]
      refine ih kept (files.put here) ?_
      · obtain ⟨other, among, place⟩ := later
        refine ⟨other, (List.mem_cons.mp among).resolve_left ?_, place⟩
        rintro rfl
        exact same place

/-- Writing files again with what they were last given leaves a tree as it is. -/
theorem rewriteFiles_eq_self {writes : List (List String × String)}
    (files : tree.Rewritable writes) (settled : Settled tree writes) :
    tree.rewriteFiles writes = tree := by
  induction writes with
  | nil => rfl
  | cons write writes ih =>
    obtain ⟨last, settled⟩ := settled
    have files' := fun other among => files other (List.mem_cons_of_mem write among)
    obtain ⟨old, here⟩ := files write List.mem_cons_self
    rw [rewriteFiles_cons]
    by_cases later : ∃ other ∈ writes, other.1 = write.1
    · rw [rewriteFiles_put_of_later here files' later, ih files' settled]
    · have there := last fun other among same => later ⟨other, among, same⟩
      rw [put_self (at?_of_itemAt_file there), ih files' settled]

/-- What was given last stays so under later writes, if these leave alone what else is there. -/
theorem Settled.append {tree' : FileTree} {writes later : List (List String × String)}
    (settled : Settled tree writes) (settled' : Settled tree' later)
    (files : tree.Rewritable writes)
    (kept : ∀ names, (∀ write ∈ later, write.1 ≠ names) → tree.itemAt names ≠ none →
      tree'.itemAt names = tree.itemAt names) : Settled tree' (writes ++ later) := by
  induction writes with
  | nil => exact settled'
  | cons write writes ih =>
    obtain ⟨last, settled⟩ := settled
    refine ⟨fun apart => ?_, ih settled fun other among =>
      files other (List.mem_cons_of_mem write among)⟩
    have there := last fun other among => apart other (List.mem_append_left later among)
    rw [kept write.1 (fun other among => apart other (List.mem_append_right writes among))
      (by rw [there]; simp), there]

end Replacing

end FileTree

end MessageCatalog
