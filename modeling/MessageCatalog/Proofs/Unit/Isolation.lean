import MessageCatalog.Proofs.FileTree.Making
import MessageCatalog.Proofs.Unit.CatalogPath

/-!
# Where catalogs are kept

Below the directory of all catalogs, paths of catalogs go down only. So the place of a
catalog tells which steps it has there, and a catalog that is on the way to another one is
either above it or on the way to the directory of all catalogs, where it is on its own way as
well. The place of a unit is never that of a catalog: their file names end differently.
-/

namespace MessageCatalog

namespace Unit

open FileTree (placeFrom placeOf visited wayTo)
open MessageCatalog.Path (component? separator spoken)

/-- Whether no path that goes down to a place is that of a unit. -/
def Barren (place : List String) : Prop :=
  ∀ path : Path, path.isAbsolute = true → path.IsStraight → placeOf path = place →
    isSource path = false

section Isolation

variable {path other workingDirectory catalogs : Path} {place : List String}

/-! ### Places of catalogs -/

theorem isNamed_of_straight (absolute : path.isAbsolute = true) (straight : path.IsStraight)
    (absolute' : workingDirectory.isAbsolute = true) (kept : catalogs.isAbsolute = true) :
    (catalogPath path workingDirectory catalogs).IsNamed := by
  obtain ⟨front, parts, -⟩ := catalogPath_parts absolute straight absolute' kept
  exact ⟨front, _, parts, component?_catalogName _⟩

theorem component?_of_mem_catalogSteps {name : List Char} (absolute : path.isAbsolute = true)
    (straight : path.IsStraight) (among : name ∈ catalogSteps path workingDirectory) :
    component? name = some (.name name) := by
  rcases List.mem_append.mp among with above | last
  · exact component?_of_mem_relativeSteps absolute straight (List.dropLast_subset _ above)
  · rw [List.mem_singleton.mp last]
    exact component?_catalogName _

theorem placeOf_catalogPath (absolute : path.isAbsolute = true) (straight : path.IsStraight)
    (absolute' : workingDirectory.isAbsolute = true) (kept : catalogs.isAbsolute = true) :
    placeOf (catalogPath path workingDirectory catalogs) =
      placeOf catalogs ++ (catalogSteps path workingDirectory).map String.ofList := by
  rw [FileTree.placeOf_eq, steps_catalogPath absolute straight absolute' kept,
    FileTree.placeFrom_append, ← FileTree.placeOf_eq, FileTree.placeFrom_of_names]
  exact fun name => component?_of_mem_catalogSteps absolute straight

/-- The way to a catalog leads to the directory of all catalogs, and then down. -/
theorem mem_wayTo_catalogPath (absolute : path.isAbsolute = true) (straight : path.IsStraight)
    (absolute' : workingDirectory.isAbsolute = true) (kept : catalogs.isAbsolute = true) :
    place ∈ wayTo (catalogPath path workingDirectory catalogs) ↔
      place ∈ visited [] catalogs.steps ∨
        ∃ front, front <+: (relativeSteps path workingDirectory).dropLast ∧
          place = placeOf catalogs ++ front.map String.ofList := by
  obtain ⟨front, parts, steps⟩ := catalogPath_parts absolute straight absolute' kept
  have down : ∀ name ∈ (relativeSteps path workingDirectory).dropLast,
      component? name = some (.name name) := fun name among =>
    component?_of_mem_relativeSteps absolute straight (List.dropLast_subset _ among)
  rw [wayTo, parts, List.dropLast_concat, ← FileTree.mem_visited_spoken, steps,
    FileTree.mem_visited_append, ← FileTree.placeOf_eq, FileTree.mem_visited_of_names down]

/-- Catalogs with the same place have the same path. -/
theorem names_of_placeOf_eq (absolute : path.isAbsolute = true) (straight : path.IsStraight)
    (absolute₂ : other.isAbsolute = true) (straight₂ : other.IsStraight)
    (absolute' : workingDirectory.isAbsolute = true) (kept : catalogs.isAbsolute = true)
    (same : placeOf (catalogPath path workingDirectory catalogs) =
      placeOf (catalogPath other workingDirectory catalogs)) :
    (catalogPath path workingDirectory catalogs).names
      (catalogPath other workingDirectory catalogs) = true := by
  rw [placeOf_catalogPath absolute straight absolute' kept,
    placeOf_catalogPath absolute₂ straight₂ absolute' kept, List.append_cancel_left_eq,
    List.map_inj_right fun s t => String.ofList_inj.mp] at same
  rw [Path.names, beq_iff_eq, Path.components_eq_iff
    (isAbsolute_catalogPath absolute straight absolute' kept)
    (isAbsolute_catalogPath absolute₂ straight₂ absolute' kept),
    steps_catalogPath absolute straight absolute' kept,
    steps_catalogPath absolute₂ straight₂ absolute' kept, same]

/-- A catalog on the way to another one is on its own way, unless the other one lies
below it. -/
theorem mem_wayTo_self (absolute : path.isAbsolute = true) (straight : path.IsStraight)
    (absolute₂ : other.isAbsolute = true) (straight₂ : other.IsStraight)
    (absolute' : workingDirectory.isAbsolute = true) (kept : catalogs.isAbsolute = true)
    (apart : (catalogPath other workingDirectory catalogs).startsWith
        (catalogPath path workingDirectory catalogs) = true →
      (catalogPath other workingDirectory catalogs).names
        (catalogPath path workingDirectory catalogs) = true)
    (among : placeOf (catalogPath path workingDirectory catalogs) ∈
      wayTo (catalogPath other workingDirectory catalogs)) :
    placeOf (catalogPath path workingDirectory catalogs) ∈
      wayTo (catalogPath path workingDirectory catalogs) := by
  rw [mem_wayTo_catalogPath absolute₂ straight₂ absolute' kept] at among
  rw [mem_wayTo_catalogPath absolute straight absolute' kept]
  refine among.imp id ?_
  rintro ⟨front, start, same⟩
  exfalso
  rw [placeOf_catalogPath absolute straight absolute' kept, List.append_cancel_left_eq,
    List.map_inj_right fun s t => String.ofList_inj.mp] at same
  rw [← same] at start
  have longer := start.length_le
  rw [Path.startsWith_iff (isAbsolute_catalogPath absolute₂ straight₂ absolute' kept)
      (isAbsolute_catalogPath absolute straight absolute' kept), Path.names, beq_iff_eq,
    Path.components_eq_iff (isAbsolute_catalogPath absolute₂ straight₂ absolute' kept)
      (isAbsolute_catalogPath absolute straight absolute' kept),
    steps_catalogPath absolute straight absolute' kept,
    steps_catalogPath absolute₂ straight₂ absolute' kept, List.prefix_append_right_inj,
    List.append_cancel_left_eq] at apart
  have steps := apart (start.trans (List.prefix_append _ _))
  rw [← steps, catalogSteps, List.length_append, List.length_singleton] at longer
  omega

/-! ### Places of units -/

theorem placeOf_of_straight (absolute : path.isAbsolute = true) (straight : path.IsStraight) :
    placeOf path = path.steps.map String.ofList := by
  rw [FileTree.placeOf_eq, FileTree.placeFrom_of_names ((Path.isStraight_iff absolute).mp straight),
    List.nil_append]

/-- Where a unit is, there is no catalog. -/
theorem placeOf_ne_catalogPath (source : isSource path = true)
    (absolute : path.isAbsolute = true) (straight : path.IsStraight)
    (absolute₂ : other.isAbsolute = true) (straight₂ : other.IsStraight)
    (absolute' : workingDirectory.isAbsolute = true) (kept : catalogs.isAbsolute = true) :
    placeOf path ≠ placeOf (catalogPath other workingDirectory catalogs) := by
  intro same
  have last : path.steps.getLast? =
      some (catalogName (relativeSteps other workingDirectory)) := by
    rw [placeOf_of_straight absolute straight,
      placeOf_catalogPath absolute₂ straight₂ absolute' kept] at same
    have ends := congrArg List.getLast? same
    rw [catalogSteps, List.map_append, ← List.append_assoc, List.map_singleton,
      List.getLast?_concat, List.getLast?_map] at ends
    obtain ⟨name, found, named⟩ := Option.map_eq_some_iff.mp ends
    rw [found, String.ofList_injective named]
  have name : path.fileName? = some (catalogName (relativeSteps other workingDirectory)) := by
    have names := (Path.isStraight_iff absolute).mp straight
    rw [Path.fileName?, Path.components_of_isAbsolute absolute,
      Path.filterMap_component?_names names]
    obtain ⟨front, steps⟩ := List.getLast?_eq_some_iff.mp last
    rw [steps, List.map_append, ← List.cons_append, List.map_singleton, List.getLast?_concat]
  rw [isSource, extension?, Path.extension?, name, Option.bind_some, catalogName,
    cutExtension_catalogSuffix] at source
  split at source
  · rename_i extension json
    split at json
    · exact absurd json (by simp)
    · obtain rfl := Option.some.inj json
      revert source
      decide
  · exact Bool.noConfusion source

theorem barren_catalogPath (absolute : path.isAbsolute = true) (straight : path.IsStraight)
    (absolute' : workingDirectory.isAbsolute = true) (kept : catalogs.isAbsolute = true) :
    Barren (placeOf (catalogPath path workingDirectory catalogs)) := by
  intro other absolute₂ straight₂ same
  rw [← Bool.not_eq_true]
  intro source
  exact placeOf_ne_catalogPath source absolute₂ straight₂ absolute straight absolute' kept same

end Isolation

end Unit

end MessageCatalog
