import MessageCatalog.Proofs.Unit.Containment

/-!
# The names of units

Reports and the document of a run call a unit by its path relative to the working directory, or
by its path if it lies elsewhere. Relative paths do not start at the root and the others do, so
this much tells units apart. But the name has slashes in place of backslashes, and a backslash
is a character like any other in the name of a file: `a\b` and `a/b` are called alike.
-/

namespace MessageCatalog

namespace Unit

/-- The path that a unit is shown with. -/
def shownPath (path workingDirectory : Path) : Path :=
  (path.relativeTo? workingDirectory).getD path

/-- A text with slashes in place of backslashes. -/
def slashed (text : List Char) : List Char :=
  text.map fun c => if c = '\\' then '/' else c

section Naming

variable {path other workingDirectory : Path} {text : List Char}

theorem displayName_eq (path workingDirectory : Path) :
    displayName path workingDirectory =
      String.ofList (slashed (shownPath path workingDirectory).text) := rfl

theorem displayName_eq_iff :
    displayName path workingDirectory = displayName other workingDirectory ↔
    slashed (shownPath path workingDirectory).text =
      slashed (shownPath other workingDirectory).text := by
  rw [displayName_eq, displayName_eq, String.ofList_inj]

theorem slashed_of_plain (plain : '\\' ∉ text) : slashed text = text := by
  refine (List.map_congr_left fun c among => if_neg ?_).trans (List.map_id text)
  rintro rfl
  exact plain among

/-- A unit is shown with what remains of its path behind the working directory, which does not
start at the root, or with its path. -/
theorem shownPath_cases (absolute : path.isAbsolute = true)
    (absolute' : workingDirectory.isAbsolute = true) :
    (path.components = workingDirectory.components ++
        (shownPath path workingDirectory).components ∧
      (shownPath path workingDirectory).isAbsolute = false) ∨
    shownPath path workingDirectory = path := by
  cases within : path.startsWith workingDirectory with
  | false =>
    refine .inr ?_
    rw [shownPath, Path.relativeTo?, within]
    rfl
  | true =>
    refine .inl ?_
    obtain ⟨relative, remains, found, split, rfl⟩ := exists_relativeTo within
    rw [shownPath, found, Option.getD_some]
    refine ⟨split, ?_⟩
    rw [← Bool.not_eq_true, Path.isAbsolute_iff_head]
    intro root
    -- Only the first component of a path is the root, and the working directory has it.
    rw [Path.components_eq_append, Path.components_eq_append workingDirectory,
      Path.lead_of_isAbsolute absolute, Path.lead_of_isAbsolute absolute'] at split
    have behind : path.below = workingDirectory.below ++ relative.components :=
      (List.cons.inj split).2
    have inside : .root ∈ path.below := by
      rw [behind]
      exact List.mem_append_right _ (List.mem_of_mem_head? root)
    rcases Path.mem_below inside with up | ⟨name, down⟩
    · exact absurd up (by simp)
    · exact absurd down (by simp)

/-- Units that are shown with the same path are at the same place. -/
theorem names_of_shownPath_eq (absolute : path.isAbsolute = true)
    (absolute' : other.isAbsolute = true) (rooted : workingDirectory.isAbsolute = true)
    (same : shownPath path workingDirectory = shownPath other workingDirectory) :
    path.names other = true := by
  rw [Path.names, beq_iff_eq]
  rcases shownPath_cases absolute rooted with ⟨split, relative⟩ | whole <;>
    rcases shownPath_cases absolute' rooted with ⟨split', relative'⟩ | whole'
  · rw [split, split', same]
  · rw [same, whole', absolute'] at relative
    contradiction
  · rw [← same, whole, absolute] at relative'
    contradiction
  · rw [← whole, same, whole']

/-- Units whose shown paths have no backslash are told apart by their names. -/
theorem names_of_displayName_eq (absolute : path.isAbsolute = true)
    (absolute' : other.isAbsolute = true) (rooted : workingDirectory.isAbsolute = true)
    (plain : '\\' ∉ (shownPath path workingDirectory).text)
    (plain' : '\\' ∉ (shownPath other workingDirectory).text)
    (same : displayName path workingDirectory = displayName other workingDirectory) :
    path.names other = true := by
  rw [displayName_eq_iff, slashed_of_plain plain, slashed_of_plain plain'] at same
  exact names_of_shownPath_eq absolute absolute' rooted (congrArg Path.mk same)

end Naming

end Unit

end MessageCatalog
