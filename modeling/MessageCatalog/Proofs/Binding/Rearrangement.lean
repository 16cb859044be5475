import Mathlib.Data.List.Perm.Basic
import Mathlib.Data.List.Nodup
import MessageCatalog.Binding.Imports
import MessageCatalog.Proofs.Binding.Usable
import MessageCatalog.Proofs.Constant.Ambiguity

/-!
# Units in another order

Imports and constants are collected in one pass over the items of a unit, and a binding can
make a constant ambiguous before, after or inside the statement that declares it. What is
collected from one item does not depend on the others, so another order of the items only
rearranges the imports and occurrences that are found.

A look-up takes the first import, or the last initial value, of a name. Where a name is recorded
once there is no choice, and whether it is bound in some other way is not a matter of order. So
all look-ups are answered in the same way, and the value of an expression rests on nothing else.
-/

namespace MessageCatalog

namespace Constant

open Syntax Binding

/-- The value of an expression depends on what constants are looked up to, and on nothing else
that the table holds. -/
theorem evaluate_congr {constants constants' : Constants}
    (same : ∀ name, constants'.get? name = constants.get? name) (e : Node) :
    evaluate constants' e = evaluate constants e := by
  have half {fewer more : Constants} (alike : ∀ name, fewer.get? name = more.get? name)
      {value : Value} (known : evaluate fewer e = some value) : evaluate more e = some value := by
    have remains : Remains fewer more fun _ => True := by
      constructor
      · intro name initial usable
        exact ⟨alike name ▸ usable, trivial⟩
      · intro missing
        exact alike undefinedName ▸ missing
    obtain ⟨used, derivation, -⟩ := (evaluate_eq_some_iff.mp known).exists_derives remains
    exact evaluate_eq_some_iff.mpr derivation.denotes
  apply Option.ext
  intro value
  constructor
  · intro known
    exact half same known
  · intro known
    exact half (fun name => (same name).symm) known

end Constant

namespace Binding

open Syntax

/-! ### Imports -/

section Imports

variable {unit unit' : List Node} {imports imports' : List Import}
  {localName source imported : String}

theorem importsOf_perm (rearranged : unit.Perm unit') :
    (importsOf unit).Perm (importsOf unit') :=
  rearranged.flatMap_right _

/-- If no two imports introduce the same name, then a name stands for what its import says,
wherever the import is. -/
theorem importedName?_eq_some_iff (distinct : (imports.map Import.localName).Nodup) :
    importedName? imports localName source = some imported ↔
      ⟨localName, imported, source⟩ ∈ imports ∧ imported ≠ wholeModule := by
  rw [importedName?, Option.map_eq_some_iff]
  constructor
  · rintro ⟨found, first, rfl⟩
    have here := List.mem_of_find?_eq_some first
    have fits := List.find?_some first
    simp only [Bool.and_eq_true, beq_iff_eq, bne_iff_ne] at fits
    obtain ⟨⟨rfl, rfl⟩, specific⟩ := fits
    exact ⟨here, specific⟩
  · rintro ⟨here, specific⟩
    -- Some import is found, and it introduces the same name.
    have some : (imports.find? fun i => i.localName == localName && i.source == source &&
        i.imported != wholeModule).isSome := by
      rw [List.find?_isSome]
      exact ⟨_, here, by simpa using specific⟩
    obtain ⟨found, first⟩ := Option.isSome_iff_exists.mp some
    have fits := List.find?_some first
    simp only [Bool.and_eq_true, beq_iff_eq] at fits
    have same : found = ⟨localName, imported, source⟩ :=
      List.inj_on_of_nodup_map distinct (List.mem_of_find?_eq_some first) here fits.1.1
    exact ⟨found, first, congrArg Import.imported same⟩

theorem importedName?_perm (distinct : (imports.map Import.localName).Nodup)
    (rearranged : imports.Perm imports') :
    importedName? imports' localName source = importedName? imports localName source := by
  have distinct' := (rearranged.map Import.localName).nodup_iff.mp distinct
  apply Option.ext
  intro imported
  rw [importedName?_eq_some_iff distinct, importedName?_eq_some_iff distinct',
    rearranged.mem_iff]

theorem isWholeModule_perm (rearranged : imports.Perm imports') :
    isWholeModule imports' localName source = isWholeModule imports localName source :=
  (rearranged.any_eq).symm

end Imports

/-! ### Constants -/

section Constants

variable {found found' : List Occurrence} {name : String}

theorem length_initialsOf (name : String) (found : List Occurrence) :
    (initialsOf name found).length = (constantNames found).count name := by
  induction found with
  | nil => rfl
  | cons occurrence found ih =>
      cases occurrence with
      | other bound => exact ih
      | constant bound value =>
          rw [constantNames_constant, List.count_cons, ← ih]
          by_cases same : bound = name
          · simp [initialsOf, Occurrence.initial?, same]
          · simp [initialsOf, Occurrence.initial?, same]

/-- A name that is recorded once has the same initial value in any order. -/
theorem initialsOf_perm (distinct : (constantNames found).Nodup)
    (rearranged : found.Perm found') : initialsOf name found' = initialsOf name found := by
  have few : (initialsOf name found).length ≤ 1 := by
    rw [length_initialsOf]
    exact List.nodup_iff_count_le_one.mp distinct name
  have values : (initialsOf name found').Perm (initialsOf name found) :=
    (rearranged.filterMap _).symm
  cases whole : initialsOf name found with
  | nil =>
      rw [whole] at values
      exact values.eq_nil
  | cons value rest =>
      rw [whole, List.length_cons] at few
      obtain rfl : rest = [] := List.length_eq_zero_iff.mp (by omega)
      rw [whole] at values
      exact List.perm_singleton.mp values

theorem get?_perm (distinct : (constantNames found).Nodup) (rearranged : found.Perm found')
    (name : String) :
    (Constants.ofOccurrences found').get? name = (Constants.ofOccurrences found).get? name := by
  have others : name ∈ otherNames found' ↔ name ∈ otherNames found :=
    (rearranged.filterMap _).symm.mem_iff
  simp only [get?_ofOccurrences, others, initialsOf_perm distinct rearranged]

end Constants

/-! ### Units -/

/-- The names under which a unit records constants, one for each declarator that is recorded. -/
def recordedNames (unit : List Node) : List String :=
  constantNames (unit.flatMap itemOccurrences)

/-- No local name is recorded by two import specifiers, and none by two declarators of
constants. It may be recorded by one of each, and bound in any other way. -/
structure RecordedOnce (unit : List Node) : Prop where
  imports : ((importsOf unit).map Import.localName).Nodup
  constants : (recordedNames unit).Nodup

/-- What is collected from two units answers every question in the same way. -/
structure SameAnswers (unit unit' : List Node) : Prop where
  importedName? : ∀ localName source,
    Binding.importedName? (importsOf unit') localName source =
      Binding.importedName? (importsOf unit) localName source
  isWholeModule : ∀ localName source,
    Binding.isWholeModule (importsOf unit') localName source =
      Binding.isWholeModule (importsOf unit) localName source
  refersTo : ∀ localName source imported,
    Binding.refersTo (importsOf unit') localName source imported =
      Binding.refersTo (importsOf unit) localName source imported
  get? : ∀ name, (Constants.ofUnit unit').get? name = (Constants.ofUnit unit).get? name
  evaluate : ∀ e, Constant.evaluate (Constants.ofUnit unit') e =
    Constant.evaluate (Constants.ofUnit unit) e

/-- The order of its items does not matter to what is collected from a unit, if it records each
local name once: every permutation of the items resolves names to the same exports and constants,
and gives every expression the same value. -/
theorem order_irrelevant {unit unit' : List Node} (once : RecordedOnce unit)
    (rearranged : unit.Perm unit') : SameAnswers unit unit' := by
  have imports := importsOf_perm rearranged
  have occurrences := rearranged.flatMap_right itemOccurrences
  have names (localName source : String) :
      importedName? (importsOf unit') localName source =
        importedName? (importsOf unit) localName source :=
    importedName?_perm once.imports imports
  have values (name : String) :
      (Constants.ofUnit unit').get? name = (Constants.ofUnit unit).get? name :=
    get?_perm once.constants occurrences name
  refine ⟨names, fun _ _ => isWholeModule_perm imports, ?_, values, ?_⟩
  · intro localName source imported
    rw [refersTo, refersTo, names]
  · exact Constant.evaluate_congr values

/-- An import, two constants, and a function with a parameter that makes one of them ambiguous. -/
def sampleUnit : List Node :=
  [.mk (.imports [⟨"FM", "FormattedMessage", "react-intl"⟩]) ⟨0, 0⟩ [],
    declarationOf "title" (.mk (.string "a") ⟨0, 0⟩ []),
    declarationOf "label" (.mk (.string "b") ⟨0, 0⟩ []),
    loopFunction "label" "inner"]

/-- Where the function comes first, the constant is ambiguous before it is declared. -/
theorem order_irrelevant_reversed :
    RecordedOnce sampleUnit ∧ SameAnswers sampleUnit sampleUnit.reverse ∧
      (Constants.ofUnit sampleUnit.reverse).get? "label" = none ∧
      (Constants.ofUnit sampleUnit.reverse).get? "title" = some (.mk (.string "a") ⟨0, 0⟩ []) := by
  have once : RecordedOnce sampleUnit := ⟨by decide, by decide⟩
  have same := order_irrelevant once sampleUnit.reverse_perm.symm
  exact ⟨once, same, (same.get? "label").trans rfl, (same.get? "title").trans rfl⟩

end Binding

end MessageCatalog
