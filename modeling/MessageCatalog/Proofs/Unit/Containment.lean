import MessageCatalog.Proofs.Path.Components
import MessageCatalog.Proofs.Unit.CatalogPath

/-!
# Catalogs inside of the directory of catalogs

The directory of catalogs is meant to contain them all. A unit outside of the working
directory has only its names to go by, and so its catalog is inside. A unit below the
working directory takes along whatever its path has behind the working directory, parents
too: its catalog is inside exactly if what remains of its path is confined.
-/

namespace MessageCatalog

namespace Unit

open MessageCatalog.Path (Component isSilent separator component? cutExtension)

/-- The path goes on from the directory with names only, and at least one, and it has the
extension of a catalog. -/
def Inside (catalogs path : Path) : Prop :=
  ∃ names, names ≠ [] ∧ path.components = catalogs.components ++ names.map .name ∧
    path.extension? = some "json".toList

/-- What remains of the path of a unit leads to a file without going up. What starts at the
root goes on from the directory of catalogs with names, and what starts at the current
directory is put into a directory that is not empty itself. -/
def Confined (catalogs : Path) (remains : List Component) : Prop :=
  match remains with
  | .root :: rest => ∃ names, names ≠ [] ∧
      .root :: rest = catalogs.components ++ names.map .name
  | .current :: rest => catalogs.components ≠ [] ∧ .parent ∉ rest
  | rest => rest ≠ [] ∧ .parent ∉ rest

/-- The catalog of a unit whose path relative to the directory of catalogs is known. -/
def catalogOf (catalogs relative : Path) : Path :=
  (match relative.parent? with
    | some parent => if parent.text.isEmpty then catalogs else catalogs ++ parent
    | none => catalogs) ++ (⟨relative.stem?.getD relative.text ++ catalogSuffix⟩ : Path)

theorem catalogPath_eq (path workingDirectory catalogs : Path) :
    catalogPath path workingDirectory catalogs =
      catalogOf catalogs (catalogStem path workingDirectory) :=
  rfl

section Containment

variable {path relative parent workingDirectory catalogs : Path} {name extension : List Char}
  {components front : List Component}

/-! ### File names -/

theorem exists_extension (source : isSource path = true) :
    ∃ name extension, path.components.getLast? = some (.name name) ∧
      (cutExtension name).2 = some extension := by
  rw [isSource, extension?, Path.extension?, Path.fileName?] at source
  cases last : path.components.getLast? with
  | none => simp [last] at source
  | some component =>
      cases component with
      | name name =>
          cases behind : (cutExtension name).2 with
          | none => simp [last, behind] at source
          | some extension => exact ⟨name, extension, rfl, behind⟩
      | root | current | parent => simp [last] at source

/-- A name with an extension has something in front of it. -/
theorem stem_ne_nil (behind : (cutExtension name).2 = some extension) :
    (cutExtension name).1 ≠ [] := by
  rw [cutExtension] at behind ⊢
  split at behind
  · exact absurd behind (by simp)
  · exact absurd behind (by simp)
  · rename_i dot stem single cut
    intro none
    exact single (List.reverse_eq_nil_iff.mp none)

/-- Another extension takes the place of one that is there. -/
theorem cutExtension_stem (behind : (cutExtension name).2 = some extension) :
    (cutExtension ((cutExtension name).1 ++ catalogSuffix)).2 = some "json".toList := by
  rw [cutExtension_catalogSuffix, if_neg (stem_ne_nil behind)]

/-- Below a directory, the name of a catalog is one component more. -/
theorem components_append_file (directory : Path) {stem : List Char}
    (plain : separator ∉ stem) :
    (directory ++ (⟨stem ++ catalogSuffix⟩ : Path)).components =
      directory.components ++ [.name (stem ++ catalogSuffix)] := by
  have stands := component?_append_catalogSuffix stem
  have loud : isSilent (stem ++ catalogSuffix) = false := by
    rw [isSilent, stands, Option.isNone_some]
  have plain' : separator ∉ stem ++ catalogSuffix := by
    rw [List.mem_append, not_or]
    exact ⟨plain, by decide⟩
  have parts : (⟨stem ++ catalogSuffix⟩ : Path).parts = ⟨none, [stem ++ catalogSuffix]⟩ :=
    Path.parts_of_pieces (Path.pieces_of_plain plain') loud
  have own : (⟨stem ++ catalogSuffix⟩ : Path).components = [.name (stem ++ catalogSuffix)] := by
    rw [Path.components, parts, List.filterMap_cons_some stands]
    rfl
  rw [Path.components_append_of_low, own] <;> simp [own]

/-! ### Relative paths -/

/-- A path below another one has a path relative to it, with the components that remain. -/
theorem exists_relativeTo (within : path.startsWith workingDirectory = true) :
    ∃ relative remains, path.relativeTo? workingDirectory = some relative ∧
      path.components = workingDirectory.components ++ remains ∧
      relative.components = remains := by
  obtain ⟨remains, split⟩ := List.isPrefixOf_iff_prefix.mp within
  cases form : path.parts with
  | mk lead body =>
  rw [Path.relativeTo?, if_pos within, form]
  cases length : workingDirectory.components.length with
  | zero =>
      refine ⟨_, _, rfl, split.symm, ?_⟩
      rw [List.eq_nil_of_length_eq_zero length, List.nil_append] at split
      refine (Path.components_of_isPrefix form (Path.trimEnd_isPrefix body)).trans ?_
      rw [Path.filterMap_trimEnd, split, Path.components, form]
  | succ n =>
      refine ⟨_, _, rfl, split.symm, ?_⟩
      have plain : ∀ piece ∈ Path.trimEnd ((Path.dropComponents
          (n + 1 - lead.toList.length) body).dropWhile isSilent), separator ∉ piece := by
        intro piece among
        have behind := (List.dropWhile_suffix isSilent).subset (Path.mem_of_mem_trimEnd among)
        have inside : piece ∈ path.parts.body := by
          rw [form]
          exact (Path.dropComponents_suffix _ body).subset behind
        exact Path.separator_not_mem_of_mem_body inside
      refine (components_of_tidy plain (tidy_of_dropWhile _)).trans ?_
      rw [Path.filterMap_trimEnd, Path.filterMap_dropWhile, Path.filterMap_dropComponents]
      have short : lead.toList.length ≤ n + 1 := by cases lead <;> simp
      have whole : path.components = lead.toList ++ body.filterMap component? := by
        rw [Path.components, form]
      have dropped := congrArg (List.drop (n + 1)) (split.trans whole)
      rw [List.drop_left' length, List.drop_append, List.drop_eq_nil_of_le short,
        List.nil_append] at dropped
      exact dropped.symm

/-- The text of a component that is a name. -/
def nameOf? : Component → Option (List Char)
  | .name text => some text
  | _ => none

/-- The names of a path are a path. -/
theorem exists_onlyNames (last : path.components.getLast? = some (.name name)) :
    ∃ names : List (List Char), names.getLast? = some name ∧
      path.onlyNames.components = names.map .name := by
  obtain ⟨init, ends⟩ := List.getLast?_eq_some_iff.mp last
  have names : ∀ piece ∈ path.components.filterMap nameOf?, .name piece ∈ path.components := by
    intro piece among
    obtain ⟨component, inside, named⟩ := List.mem_filterMap.mp among
    cases component with
    | name text => exact Option.some.inj named ▸ inside
    | root | current | parent => exact absurd named (by simp [nameOf?])
  have stands : ∀ piece ∈ path.components.filterMap nameOf?,
      component? piece = some (.name piece) :=
    fun piece among => (Path.component?_of_name_mem (names piece among)).1
  refine ⟨path.components.filterMap nameOf?, ?_, ?_⟩
  · have named : nameOf? (.name name) = some name := rfl
    rw [ends, List.filterMap_append, List.filterMap_cons_some named, List.filterMap_nil,
      List.getLast?_concat]
  · have tidy : Tidy (path.components.filterMap nameOf?) :=
      tidy_of_forall fun piece among => by rw [isSilent, stands piece among, Option.isNone_some]
    have plain : ∀ piece ∈ path.components.filterMap nameOf?, separator ∉ piece :=
      fun piece among => (Path.component?_of_name_mem (names piece among)).2
    exact (components_of_tidy plain tidy).trans (Path.filterMap_component?_names stands)

/-! ### Containment -/

theorem exists_names_iff
    (only : ∀ component ∈ components, component = .parent ∨ ∃ name, component = .name name) :
    (∃ names : List (List Char), components = names.map .name) ↔ .parent ∉ components := by
  induction components with
  | nil => exact iff_of_true ⟨[], rfl⟩ List.not_mem_nil
  | cons component components ih =>
      have others := ih fun other among => only other (List.mem_cons_of_mem _ among)
      rcases only component List.mem_cons_self with rfl | ⟨name, rfl⟩
      · refine iff_of_false ?_ (fun absent => absent List.mem_cons_self)
        rintro ⟨names, same⟩
        cases names with
        | nil => exact absurd same (List.cons_ne_nil _ _)
        | cons name names => exact absurd (List.cons.inj same).1 (by simp)
      · rw [List.mem_cons, not_or, ← others]
        constructor
        · rintro ⟨names, same⟩
          cases names with
          | nil => exact absurd same (List.cons_ne_nil _ _)
          | cons name' names => exact ⟨by simp, names, (List.cons.inj same).2⟩
        · rintro ⟨-, names, rfl⟩
          exact ⟨name :: names, rfl⟩

/-- The catalog is put under its name below the directory in which its unit is, relative to
the directory of catalogs. -/
theorem exists_catalogOf (catalogs : Path)
    (last : relative.components.getLast? = some (.name name)) :
    ∃ parent : Path, parent.components = relative.components.dropLast ∧
      (catalogOf catalogs relative).components =
        (catalogs ++ parent).components ++ [.name ((cutExtension name).1 ++ catalogSuffix)] := by
  obtain ⟨parent, above, components⟩ := Path.exists_parent last
  refine ⟨parent, components, ?_⟩
  have plain : separator ∉ (cutExtension name).1 := by
    intro inside
    exact (Path.component?_of_name_mem (List.mem_of_getLast? last)).2
      ((cutExtension_isPrefix name).subset inside)
  have stem : relative.stem?.getD relative.text = (cutExtension name).1 := by
    rw [Path.stem?, Path.fileName?, last]
    rfl
  rw [catalogOf, above, stem]
  simp only
  rw [components_append_file _ plain]
  split
  · rename_i empty
    have none : parent.components = [] :=
      Path.components_of_text_eq_nil (List.isEmpty_iff.mp empty)
    rw [Path.components_append_of_low, none, List.append_nil] <;> simp [none]
  · rfl

/-- A last name may be left out on both sides. -/
theorem exists_names_concat_iff :
    (∃ names : List (List Char), names ≠ [] ∧
        components ++ [.name name] = catalogs.components ++ names.map .name) ↔
      ∃ names : List (List Char), components = catalogs.components ++ names.map .name := by
  constructor
  · rintro ⟨names, some, same⟩
    obtain rfl | ⟨front, last, rfl⟩ := List.eq_nil_or_concat names
    · exact absurd rfl some
    · rw [List.concat_eq_append, List.map_append, ← List.append_assoc] at same
      exact ⟨front, (List.append_inj' same rfl).1⟩
  · rintro ⟨names, rfl⟩
    exact ⟨names ++ [name], by simp, by simp⟩

/-- For a unit that is the working directory itself, nothing remains that could be called
like a catalog. -/
theorem not_inside_of_nil (none : relative.components = []) :
    ¬ Inside catalogs (catalogOf catalogs relative) := by
  obtain ⟨text⟩ := relative
  obtain rfl : text = [] := Path.components_eq_nil_iff.mp none
  have own : catalogOf catalogs ⟨[]⟩ = catalogs ++ (⟨[] ++ catalogSuffix⟩ : Path) := rfl
  rintro ⟨-, -, -, extended⟩
  rw [own, Path.extension?, Path.fileName?, components_append_file catalogs List.not_mem_nil,
    List.getLast?_concat] at extended
  exact absurd ((cutExtension_catalogSuffix []).symm.trans extended) (by simp)

/-- The last component is a name before and after, so the directory in front of it decides. -/
theorem exists_inside_iff (catalogs : Path) (ends : relative.components = front ++ [.name name])
    (behind : (cutExtension name).2 = some extension) :
    ∃ parent : Path, parent.components = front ∧
      (Inside catalogs (catalogOf catalogs relative) ↔ ∃ names : List (List Char),
        (catalogs ++ parent).components = catalogs.components ++ names.map .name) := by
  have last : relative.components.getLast? = some (.name name) := by
    rw [ends, List.getLast?_concat]
  obtain ⟨parent, above, whole⟩ := exists_catalogOf catalogs last
  rw [ends, List.dropLast_concat] at above
  refine ⟨parent, above, ?_⟩
  have extended : (catalogOf catalogs relative).extension? = some "json".toList := by
    rw [Path.extension?, Path.fileName?, whole, List.getLast?_concat]
    exact cutExtension_stem behind
  rw [← exists_names_concat_iff, ← whole, Inside]
  simp only [extended, and_true]

/-- A directory that is put below the directory of catalogs with all its components. -/
theorem exists_names_low (root : parent.components.head? ≠ some .root)
    (current : parent.components.head? ≠ some .current) :
    (∃ names : List (List Char),
        (catalogs ++ parent).components = catalogs.components ++ names.map .name) ↔
      .parent ∉ parent.components := by
  rw [Path.components_append_of_low root current]
  simp only [List.append_cancel_left_eq]
  exact exists_names_iff (Path.below_eq_components root current ▸ fun _ => Path.mem_below)

/-- Below the empty path, the current directory would stay in front. -/
theorem exists_names_current (start : parent.components = .current :: front) :
    (∃ names : List (List Char),
        (catalogs ++ parent).components = catalogs.components ++ names.map .name) ↔
      catalogs.components ≠ [] ∧ .parent ∉ front := by
  rcases eq_or_ne catalogs.text [] with empty | inhabited
  · have none : catalogs.components = [] := Path.components_of_text_eq_nil empty
    refine iff_of_false ?_ (fun confined => confined.1 none)
    rintro ⟨names, same⟩
    rw [Path.append_of_text_eq_nil empty, start, none, List.nil_append] at same
    cases names with
    | nil => exact absurd same (List.cons_ne_nil _ _)
    | cons first names => exact absurd (List.cons.inj same).1 (by simp)
  · have loose : parent.isAbsolute = false := by
      rw [← Bool.not_eq_true, Path.isAbsolute_iff_head, start]
      simp
    have behind : parent.below = front := Path.below_of_components start (.inr rfl)
    rw [Path.components_append loose inhabited, behind]
    simp only [List.append_cancel_left_eq]
    rw [exists_names_iff (behind ▸ fun _ => Path.mem_below)]
    exact (and_iff_right (mt Path.components_eq_nil_iff.mp inhabited)).symm

theorem inside_iff_confined (last : relative.components.getLast? = some (.name name))
    (behind : (cutExtension name).2 = some extension) :
    Inside catalogs (catalogOf catalogs relative) ↔ Confined catalogs relative.components := by
  obtain ⟨front, ends⟩ := List.getLast?_eq_some_iff.mp last
  obtain ⟨parent, above, inside⟩ := exists_inside_iff catalogs ends behind
  rw [inside, ends]
  have low (root : front.head? ≠ some .root) (current : front.head? ≠ some .current) :
      (∃ names : List (List Char),
          (catalogs ++ parent).components = catalogs.components ++ names.map .name) ↔
        front ++ [.name name] ≠ [] ∧ .parent ∉ front ++ [.name name] := by
    rw [exists_names_low (above ▸ root) (above ▸ current), above]
    simp
  cases front with
  | nil => exact low (by simp) (by simp)
  | cons first front =>
      cases first with
      | root =>
          have absolute : parent.isAbsolute = true :=
            Path.isAbsolute_iff_head.mpr (by rw [above]; rfl)
          rw [Path.append_of_isAbsolute absolute, above]
          exact exists_names_concat_iff.symm
      | current =>
          rw [exists_names_current above]
          show _ ↔ catalogs.components ≠ [] ∧ .parent ∉ front ++ [.name name]
          simp
      | parent | name => exact low (by simp) (by simp)

/-- A unit below the working directory takes along what remains of its path. -/
theorem inside_below (source : isSource path = true)
    (split : path.components = workingDirectory.components ++ components) :
    Inside catalogs (catalogPath path workingDirectory catalogs) ↔
      Confined catalogs components := by
  obtain ⟨name, extension, last, behind⟩ := exists_extension source
  have within : path.startsWith workingDirectory = true :=
    List.isPrefixOf_iff_prefix.mpr ⟨components, split.symm⟩
  obtain ⟨relative, remains, found, split', same⟩ := exists_relativeTo within
  obtain rfl : components = remains := List.append_cancel_left (split.symm.trans split')
  rw [catalogPath_eq, catalogStem, found, Option.getD_some]
  obtain rfl | ⟨front, component, rfl⟩ := List.eq_nil_or_concat components
  · exact iff_of_false (not_inside_of_nil same) (fun confined => confined.1 rfl)
  · have last' : relative.components.getLast? = some (.name name) := by
      rw [split, List.concat_eq_append, ← List.append_assoc, List.getLast?_concat] at last
      rw [same, List.concat_eq_append, List.getLast?_concat, last]
    rw [inside_iff_confined last' behind, same]

/-- The catalog of a unit outside of the working directory is put below the directory of
catalogs by the names of its path. -/
theorem inside_elsewhere (source : isSource path = true)
    (within : path.startsWith workingDirectory = false) :
    Inside catalogs (catalogPath path workingDirectory catalogs) := by
  obtain ⟨name, extension, last, behind⟩ := exists_extension source
  obtain ⟨names, final, named⟩ := exists_onlyNames last
  have elsewhere : path.relativeTo? workingDirectory = none := by
    rw [Path.relativeTo?, within]
    rfl
  have last' : path.onlyNames.components.getLast? = some (.name name) := by
    rw [named, List.getLast?_map, final]
    rfl
  rw [catalogPath_eq, catalogStem, elsewhere, Option.getD_none, inside_iff_confined last' behind,
    named]
  cases names with
  | nil => exact absurd final (by simp)
  | cons first names => exact ⟨List.cons_ne_nil _ _, by simp⟩

/-- The catalog of a unit is inside of the directory of catalogs exactly if what remains of
the path of the unit below the working directory is confined. If the unit is somewhere else,
then nothing remains and its catalog is always inside. -/
theorem catalogPath_inside_iff (source : isSource path = true)
    (workingDirectory catalogs : Path) :
    Inside catalogs (catalogPath path workingDirectory catalogs) ↔
      ∀ remains, path.components = workingDirectory.components ++ remains →
        Confined catalogs remains := by
  cases within : path.startsWith workingDirectory with
  | true =>
      obtain ⟨remains, split⟩ := List.isPrefixOf_iff_prefix.mp within
      constructor
      · intro inside others split'
        exact (inside_below source split').mp inside
      · intro confined
        exact (inside_below source split.symm).mpr (confined remains split.symm)
  | false =>
      refine iff_of_true (inside_elsewhere source within) ?_
      intro remains split
      have start : path.startsWith workingDirectory = true :=
        List.isPrefixOf_iff_prefix.mpr ⟨remains, split.symm⟩
      exact absurd start (by simp [within])

end Containment

/-- A unit in a directory below the working directory. -/
theorem catalogPath_inside_iff_directory :
    isSource (.ofString "/project/src/App.tsx") = true ∧
      Inside (.ofString "out") (catalogPath (.ofString "/project/src/App.tsx")
        (.ofString "/project") (.ofString "out")) := by
  have source : isSource (.ofString "/project/src/App.tsx") = true := by decide
  refine ⟨source, (catalogPath_inside_iff source _ _).mpr ?_⟩
  intro remains split
  have front : (Path.ofString "/project/src/App.tsx").components =
      (Path.ofString "/project").components ++
        [.name "src".toList, .name "App.tsx".toList] := by decide
  rw [← List.append_cancel_left (front.symm.trans split)]
  exact ⟨List.cons_ne_nil _ _, by decide⟩

/-- A path below the working directory that goes up takes its catalog out of the directory
of catalogs. -/
theorem catalogPath_leaves :
    isSource (.ofString "/project/../lib/util.tsx") = true ∧
      catalogPath (.ofString "/project/../lib/util.tsx") (.ofString "/project")
        (.ofString "out") = .ofString "out/../lib/util.json" ∧
      ¬ Inside (.ofString "out") (catalogPath (.ofString "/project/../lib/util.tsx")
        (.ofString "/project") (.ofString "out")) := by
  refine ⟨by decide, by decide, ?_⟩
  rintro ⟨names, -, same, -⟩
  have up : Component.parent ∈ (Path.ofString "out").components ++ names.map .name :=
    same ▸ by decide
  rcases List.mem_append.mp up with here | here
  · exact absurd here (by decide)
  · obtain ⟨name, -, wrong⟩ := List.mem_map.mp here
    exact absurd wrong (by simp)

end Unit

end MessageCatalog
