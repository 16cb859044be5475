import MessageCatalog.Config.Discovery

/-!
# What the search for a configuration looks at

The search stops at the first file with a configuration and at the first repository. So a
configuration depends on few paths only, and as long as nothing is created or changed at
these, the same configuration is found.
-/

namespace MessageCatalog

namespace Config

/-- The paths that the search looks at along some directories. -/
def consultedIn (tree : FileTree) : List Path → List Path
  | [] => []
  | directory :: directories =>
    directory.child fileName ::
      if tree.existsAt (directory.child fileName) then []
      else directory.child repositoryMark ::
        if tree.existsAt (directory.child repositoryMark) then []
        else consultedIn tree directories

/-- The paths that the search for the configuration of a working directory looks at. -/
def consulted (tree : FileTree) (workingDirectory : Path) : List Path :=
  consultedIn tree (directoriesUp workingDirectory.text.length workingDirectory)

/-- Whether nothing was created or changed where the search looks. -/
def Undisturbed (tree after : FileTree) (workingDirectory : Path) : Prop :=
  ∀ path ∈ consulted tree workingDirectory, after.existsAt path = tree.existsAt path ∧
    (tree.existsAt path = true → after.readText path = tree.readText path)

section Discovery

variable {tree after : FileTree} {workingDirectory path : Path} {directories : List Path}

theorem findIn_congr (same : ∀ path ∈ consultedIn tree directories,
    after.existsAt path = tree.existsAt path) :
    findIn after directories = findIn tree directories := by
  induction directories with
  | nil => rfl
  | cons directory directories ih =>
    rw [consultedIn] at same
    rw [findIn, findIn, same _ List.mem_cons_self]
    split
    · rfl
    · rename_i missing
      rw [if_neg missing] at same
      have later := fun path among => same path (List.mem_cons_of_mem _ among)
      rw [later _ List.mem_cons_self]
      split
      · rfl
      · rename_i unmarked
        rw [if_neg unmarked] at later
        exact ih fun path among => later path (List.mem_cons_of_mem _ among)

/-- The file that is found is one of those that were looked at, and it is there. -/
theorem mem_consultedIn (found : findIn tree directories = some path) :
    path ∈ consultedIn tree directories ∧ tree.existsAt path = true := by
  induction directories with
  | nil => exact absurd found (by simp [findIn])
  | cons directory directories ih =>
    rw [findIn] at found
    rw [consultedIn]
    split at found
    · rename_i here
      obtain rfl := Option.some.inj found
      exact ⟨List.mem_cons_self, here⟩
    · rename_i missing
      split at found
      · exact absurd found (by simp)
      · rename_i unmarked
        rw [if_neg missing, if_neg unmarked]
        exact (ih found).imp (fun among => List.mem_cons_of_mem _ (List.mem_cons_of_mem _ among)) id

/-- The same configuration is loaded where the search sees no difference. -/
theorem load_congr (undisturbed : Undisturbed tree after workingDirectory) :
    load after workingDirectory = load tree workingDirectory := by
  have same : find? after workingDirectory = find? tree workingDirectory :=
    findIn_congr fun path among => (undisturbed path among).1
  rw [load, load, same]
  cases found : find? tree workingDirectory with
  | none => rfl
  | some path =>
    obtain ⟨among, here⟩ := mem_consultedIn found
    change loadFile after path = loadFile tree path
    unfold loadFile
    rw [(undisturbed path among).2 here]

end Discovery

end Config

end MessageCatalog
