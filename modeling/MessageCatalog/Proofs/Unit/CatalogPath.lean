import MessageCatalog.Proofs.Path.Steps
import MessageCatalog.Unit.Paths

/-!
# The steps of a catalog's path

The path of a catalog goes on from the directory of all catalogs with the steps of the unit
relative to the working directory, and gives the last one another extension. Units outside
of the working directory take all their steps along.

So whether the catalogs of two units are the same, or one lies below the other, depends on
these steps only, and not on where the catalogs are kept.
-/

namespace MessageCatalog

namespace Unit

open MessageCatalog.Path (isSilent spoken separator component?)

/-- The steps of a unit that its catalog repeats. -/
def relativeSteps (path workingDirectory : Path) : List (List Char) :=
  if path.startsWith workingDirectory then path.steps.drop workingDirectory.steps.length
  else path.steps

/-- What a catalog is called, for the steps of its unit. -/
def catalogName (steps : List (List Char)) : List Char :=
  ((steps.getLast?.map fun name => (Path.cutExtension name).1).getD []) ++ catalogSuffix

/-- The steps of a catalog below the directory of all catalogs. -/
def catalogSteps (path workingDirectory : Path) : List (List Char) :=
  (relativeSteps path workingDirectory).dropLast ++
    [catalogName (relativeSteps path workingDirectory)]

section CatalogPath

variable {path workingDirectory catalogs : Path} {body : List (List Char)} {name : List Char}

/-! ### Names of catalogs -/

theorem cutExtension_isPrefix (name : List Char) : (Path.cutExtension name).1 <+: name := by
  rw [Path.cutExtension]
  split
  · exact List.prefix_refl name
  · exact List.prefix_refl name
  · rename_i dot stem _ cut
    have behind := List.drop_suffix
      (name.reverse.takeWhile (· != '.')).length name.reverse
    rw [cut] at behind
    have shorter := (List.suffix_cons dot stem).trans behind
    rw [← List.reverse_prefix, List.reverse_reverse] at shorter
    exact shorter

/-- A catalog has its own extension, unless its file name consists of the extension. -/
theorem cutExtension_catalogSuffix (stem : List Char) :
    (Path.cutExtension (stem ++ catalogSuffix)).2 =
      if stem = [] then none else some "json".toList := by
  have spelled : (stem ++ catalogSuffix).reverse = "nosj.".toList ++ stem.reverse := by
    rw [List.reverse_append]
    rfl
  have behind : (stem ++ catalogSuffix).reverse.takeWhile (· != '.') = "nosj".toList := by
    rw [spelled]
    rfl
  have front : (stem ++ catalogSuffix).reverse.drop "nosj".toList.length = '.' :: stem.reverse := by
    rw [spelled]
    rfl
  rw [Path.cutExtension, behind, front]
  cases reversed : stem.reverse with
  | nil => rw [if_pos (List.reverse_eq_nil_iff.mp reversed)]
  | cons c s =>
    have inhabited : stem ≠ [] := fun none => by simp [none] at reversed
    rw [if_neg inhabited]
    rfl

theorem component?_append_catalogSuffix (stem : List Char) :
    component? (stem ++ catalogSuffix) = some (.name (stem ++ catalogSuffix)) := by
  have long : 5 ≤ (stem ++ catalogSuffix).length := by
    rw [List.length_append, show catalogSuffix.length = 5 from rfl]
    omega
  generalize stem ++ catalogSuffix = name at long ⊢
  unfold component?
  split
  · simp at long
  · simp at long
  · simp at long
  · rfl

theorem component?_catalogName (steps : List (List Char)) :
    component? (catalogName steps) = some (.name (catalogName steps)) :=
  component?_append_catalogSuffix _

theorem separator_not_mem_catalogName {steps : List (List Char)}
    (plain : ∀ name ∈ steps, separator ∉ name) : separator ∉ catalogName steps := by
  rw [catalogName, List.mem_append, not_or]
  refine ⟨?_, by decide⟩
  cases last : steps.getLast? with
  | none => exact List.not_mem_nil
  | some name =>
    intro among
    exact plain name (List.mem_of_getLast? last) ((cutExtension_isPrefix name).subset among)

/-! ### Relative paths -/

/-- Pieces that begin and end with spoken ones, if there are any. -/
def Tidy (body : List (List Char)) : Prop :=
  body.dropWhile isSilent = body ∧ Path.trimEnd body = body

theorem Tidy.cases (tidy : Tidy body) :
    body = [] ∨ ∃ first rest front last, body = first :: rest ∧ isSilent first = false ∧
      body = front ++ [last] ∧ isSilent last = false := by
  rcases Path.trimEnd_cases body with empty | ⟨front, last, ends, loud⟩
  · exact .inl (tidy.2.symm.trans empty)
  · cases body with
    | nil => exact .inl rfl
    | cons first rest =>
      refine .inr ⟨first, rest, front, last, rfl, ?_, tidy.2.symm.trans ends, loud⟩
      rw [← Bool.not_eq_true]
      intro silent
      have shorter := (List.dropWhile_suffix (l := rest) isSilent).length_le
      have same := congrArg List.length tidy.1
      rw [List.dropWhile_cons_of_pos silent, List.length_cons] at same
      omega

theorem trimEnd_trimEnd (body : List (List Char)) :
    Path.trimEnd (Path.trimEnd body) = Path.trimEnd body := by
  rcases Path.trimEnd_cases body with empty | ⟨front, last, ends, loud⟩
  · rw [empty]
    rfl
  · rw [ends, Path.trimEnd_concat_spoken loud]

theorem tidy_of_dropWhile (body : List (List Char)) :
    Tidy (Path.trimEnd (body.dropWhile isSilent)) := by
  refine ⟨?_, trimEnd_trimEnd _⟩
  have start := Path.trimEnd_isPrefix (body.dropWhile isSilent)
  cases trimmed : Path.trimEnd (body.dropWhile isSilent) with
  | nil => rfl
  | cons first rest =>
    rw [trimmed] at start
    obtain ⟨dropped, whole⟩ := start
    have loud := List.head?_dropWhile_not isSilent body
    rw [← whole, List.cons_append, List.head?_cons] at loud
    rw [List.dropWhile_cons_of_neg (by simpa using loud)]

theorem tidy_of_forall (loud : ∀ piece ∈ body, isSilent piece = false) : Tidy body := by
  constructor
  · cases body with
    | nil => rfl
    | cons first rest =>
      rw [List.dropWhile_cons_of_neg (by simp [loud first List.mem_cons_self])]
  · rcases List.eq_nil_or_concat body with rfl | ⟨front, last, rfl⟩
    · rfl
    · rw [List.concat_eq_append] at loud ⊢
      exact Path.trimEnd_concat_spoken (loud last (by simp)) front

theorem onlyNames_eq (absolute : path.isAbsolute = true) (straight : path.IsStraight) :
    path.onlyNames = .ofNames path.steps := by
  rw [Path.onlyNames, Path.components_of_isAbsolute absolute, List.filterMap_cons_none rfl,
    Path.filterMap_component?_names ((Path.isStraight_iff absolute).mp straight),
    List.filterMap_map]
  exact congrArg Path.ofNames (List.filterMap_some)

/-- The path of a unit relative to the working directory spells its relative steps. -/
theorem catalogStem_eq (absolute : path.isAbsolute = true) (straight : path.IsStraight)
    (absolute' : workingDirectory.isAbsolute = true) :
    ∃ body, catalogStem path workingDirectory = ⟨Path.join body⟩ ∧
      (∀ piece ∈ body, separator ∉ piece) ∧ Tidy body ∧
      spoken body = relativeSteps path workingDirectory := by
  rw [catalogStem, Path.relativeTo?, relativeSteps]
  split
  · obtain ⟨n, length⟩ : ∃ n, workingDirectory.components.length = n + 1 := by
      rw [Path.components_of_isAbsolute absolute']
      exact ⟨_, rfl⟩
    have count : n = workingDirectory.steps.length := by
      rw [Path.steps_eq_map_pieceOf, List.length_map]
      rw [Path.components, Path.lead_of_isAbsolute absolute', List.length_append] at length
      simp at length
      omega
    refine ⟨Path.trimEnd ((Path.dropComponents n path.parts.body).dropWhile isSilent),
      ?_, ?_, tidy_of_dropWhile _, ?_⟩
    · obtain ⟨s, text⟩ := Path.isAbsolute_iff.mp absolute
      rw [length, Path.parts_of_text text]
      rfl
    · intro piece among
      have inside := (List.dropWhile_suffix isSilent).subset (Path.mem_of_mem_trimEnd among)
      exact Path.separator_not_mem_of_mem_body
        ((Path.dropComponents_suffix n path.parts.body).subset inside)
    · rw [Path.spoken_trimEnd, Path.spoken_dropWhile, Path.spoken_dropComponents, count]
      rfl
  · refine ⟨path.steps, ?_, fun piece => Path.separator_not_mem_of_mem_steps,
      tidy_of_forall fun piece => Path.isSilent_of_mem_spoken,
      Path.spoken_of_forall fun piece => Path.isSilent_of_mem_spoken⟩
    rw [Option.getD_none, onlyNames_eq absolute straight, Path.ofNames]

theorem component?_of_mem_relativeSteps (absolute : path.isAbsolute = true)
    (straight : path.IsStraight) (among : name ∈ relativeSteps path workingDirectory) :
    component? name = some (.name name) := by
  refine (Path.isStraight_iff absolute).mp straight name ?_
  rw [relativeSteps] at among
  split at among
  · exact List.mem_of_mem_drop among
  · exact among

/-! ### The name and the directory -/

theorem components_of_tidy (plain : ∀ piece ∈ body, separator ∉ piece) (tidy : Tidy body) :
    (⟨Path.join body⟩ : Path).components = body.filterMap component? := by
  rcases tidy.cases with rfl | ⟨first, rest, -, -, rfl, loud, -, -⟩
  · rfl
  · rw [Path.components, Path.parts_join plain loud]
    rfl

theorem components_join (plain : ∀ piece ∈ body, separator ∉ piece) (tidy : Tidy body)
    (names : ∀ name ∈ spoken body, component? name = some (.name name)) :
    (⟨Path.join body⟩ : Path).components = (spoken body).map .name := by
  rw [components_of_tidy plain tidy, ← Path.filterMap_component?_spoken,
    Path.filterMap_component?_names names]

/-- The file name of a catalog, from the path of its unit. -/
theorem stem_eq (plain : ∀ piece ∈ body, separator ∉ piece) (tidy : Tidy body)
    (names : ∀ name ∈ spoken body, component? name = some (.name name)) :
    (⟨Path.join body⟩ : Path).stem?.getD (Path.join body) ++ catalogSuffix =
      catalogName (spoken body) := by
  rw [catalogName, Path.stem?, Path.fileName?, components_join plain tidy names,
    List.getLast?_map]
  cases last : (spoken body).getLast? with
  | some name => rfl
  | none =>
    rcases tidy.cases with rfl | ⟨-, -, front, last', -, -, rfl, loud⟩
    · rfl
    · rw [Path.spoken_append, Path.spoken_cons_spoken loud, Path.spoken_nil,
        List.getLast?_concat] at last
      exact absurd last (by simp)

/-- The directory of a catalog, from the path of its unit. -/
theorem directory_steps (plain : ∀ piece ∈ body, separator ∉ piece) (tidy : Tidy body)
    (kept : catalogs.isAbsolute = true) :
    ∃ directory : Path,
      (match (⟨Path.join body⟩ : Path).parent? with
        | some parent => if parent.text.isEmpty then catalogs else catalogs ++ parent
        | none => catalogs) = directory ∧
      directory.isAbsolute = true ∧
      directory.steps = catalogs.steps ++ (spoken body).dropLast := by
  rcases tidy.cases with rfl | ⟨first, rest, front, last, starts, loud, ends, loud'⟩
  · exact ⟨catalogs, rfl, kept, (List.append_nil _).symm⟩
  · have trimmed : Path.trimEnd (first :: rest) = first :: rest := by rw [← starts, tidy.2]
    have parent : (⟨Path.join body⟩ : Path).parent? = some ⟨Path.join (Path.trimEnd front)⟩ := by
      rw [starts] at plain ⊢
      rw [Path.parent?_join plain loud trimmed, ← starts, ends, List.dropLast_concat]
    have relative : (spoken body).dropLast = spoken front := by
      rw [ends, Path.spoken_append, Path.spoken_cons_spoken loud', Path.spoken_nil,
        List.dropLast_concat]
    rw [parent, relative, ← Path.spoken_trimEnd front]
    have start := (Path.trimEnd_isPrefix front).trans (List.prefix_append front [last])
    rw [← ends, starts] at start
    cases trimmed : Path.trimEnd front with
    | nil => exact ⟨catalogs, rfl, kept, (List.append_nil _).symm⟩
    | cons first' rest' =>
      rw [trimmed, List.cons_prefix_cons] at start
      obtain ⟨rfl, start⟩ := start
      have plain' : ∀ piece ∈ first' :: rest', separator ∉ piece := by
        intro piece among
        apply plain
        rw [starts]
        exact ((List.prefix_cons_inj first').mpr start).subset among
      refine ⟨catalogs ++ ⟨Path.join (first' :: rest')⟩, ?_, Path.isAbsolute_append kept _, ?_⟩
      · simp only [Path.isEmpty_join plain' loud]
        rfl
      · rw [Path.steps_append kept (Path.not_isAbsolute_join plain' loud),
          Path.pieces_join plain' (List.cons_ne_nil _ _)]

/-- The path of a catalog ends in its name, and its steps are those of the directory of all
catalogs followed by those of the catalog. -/
theorem catalogPath_parts (absolute : path.isAbsolute = true) (straight : path.IsStraight)
    (absolute' : workingDirectory.isAbsolute = true) (kept : catalogs.isAbsolute = true) :
    ∃ front, (catalogPath path workingDirectory catalogs).parts =
        ⟨some .root, front ++ [catalogName (relativeSteps path workingDirectory)]⟩ ∧
      spoken front = catalogs.steps ++ (relativeSteps path workingDirectory).dropLast := by
  obtain ⟨body, stem, plain, tidy, steps⟩ := catalogStem_eq absolute straight absolute'
  have names : ∀ name ∈ spoken body, component? name = some (.name name) := by
    rw [steps]
    exact fun name => component?_of_mem_relativeSteps absolute straight
  obtain ⟨directory, same, above, steps'⟩ := directory_steps plain tidy kept
  have plain' : separator ∉ catalogName (spoken body) :=
    separator_not_mem_catalogName fun name among => plain name (Path.mem_of_mem_spoken among)
  have relative : (⟨catalogName (spoken body)⟩ : Path).isAbsolute = false := by
    rw [← Bool.not_eq_true, Path.isAbsolute_iff]
    rintro ⟨s, text⟩
    exact plain' (by rw [show catalogName (spoken body) = _ from text]; exact List.mem_cons_self)
  have unfolded : catalogPath path workingDirectory catalogs =
      directory ++ (⟨catalogName (spoken body)⟩ : Path) := by
    rewrite [catalogPath, stem, ← stem_eq plain tidy names, ← same]
    rfl
  obtain ⟨front, ends, parts⟩ := Path.parts_append above relative
  rw [← unfolded, Path.pieces_of_plain plain', steps] at parts
  refine ⟨front, parts, ?_⟩
  rw [← steps, ← steps', Path.steps]
  rcases ends with same | same
  · rw [same]
  · rw [same, Path.spoken_append, Path.spoken_cons_silent Path.isSilent_nil, Path.spoken_nil,
      List.append_nil]

theorem isAbsolute_catalogPath (absolute : path.isAbsolute = true) (straight : path.IsStraight)
    (absolute' : workingDirectory.isAbsolute = true) (kept : catalogs.isAbsolute = true) :
    (catalogPath path workingDirectory catalogs).isAbsolute = true := by
  obtain ⟨front, parts, -⟩ := catalogPath_parts absolute straight absolute' kept
  exact Path.isAbsolute_of_lead (by rw [parts])

theorem steps_catalogPath (absolute : path.isAbsolute = true) (straight : path.IsStraight)
    (absolute' : workingDirectory.isAbsolute = true) (kept : catalogs.isAbsolute = true) :
    (catalogPath path workingDirectory catalogs).steps =
      catalogs.steps ++ catalogSteps path workingDirectory := by
  obtain ⟨front, parts, steps⟩ := catalogPath_parts absolute straight absolute' kept
  have loud : isSilent (catalogName (relativeSteps path workingDirectory)) = false := by
    rw [Path.isSilent, component?_catalogName, Option.isNone_some]
  rw [Path.steps, parts, Path.spoken_append, steps, Path.spoken_cons_spoken loud,
    Path.spoken_nil, catalogSteps, List.append_assoc]

end CatalogPath

end Unit

end MessageCatalog
