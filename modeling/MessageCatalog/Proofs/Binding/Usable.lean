import Mathlib.Data.List.Induction
import MessageCatalog.Proofs.Binding.Overlooked

/-!
# Constants that stay usable

The table of constants remembers two things about a name: the last initial value that it occurs
with, and whether it also occurs otherwise. So what is looked up can be told from the
occurrences of a unit, without going through the table.

A name that is bound once in the whole unit, by the declaration of a constant, occurs with one
initial value and never otherwise. However deep the functions, classes and loops of the unit are
nested, nothing in them takes the constant away.
-/

namespace MessageCatalog

namespace Binding

open Syntax

/-! ### Tables and occurrences -/

/-- The initial value of an occurrence that is a constant of a certain name. -/
def Occurrence.initial? (name : String) : Occurrence → Option Node
  | .constant bound value => if bound = name then some value else none
  | .other _ => none

/-- The initial values that a name occurs with. -/
def initialsOf (name : String) (found : List Occurrence) : List Node :=
  found.filterMap (Occurrence.initial? name)

section Tables

variable {found : List Occurrence} {name : String} {value : Node}

theorem mem_initialsOf_iff : value ∈ initialsOf name found ↔ .constant name value ∈ found := by
  rw [initialsOf, List.mem_filterMap]
  constructor
  · rintro ⟨occurrence, here, initial⟩
    cases occurrence with
    | other bound => contradiction
    | constant bound initial' =>
      rw [Occurrence.initial?] at initial
      split at initial
      · rename_i same
        rwa [← same, ← Option.some.inj initial]
      · contradiction
  · intro here
    exact ⟨_, here, if_pos rfl⟩

theorem initialsOf_ne_nil (here : name ∈ constantNames found) : initialsOf name found ≠ [] := by
  obtain ⟨occurrence, inside, named⟩ := List.mem_filterMap.mp here
  cases occurrence with
  | other bound => contradiction
  | constant bound value =>
    obtain rfl := Option.some.inj named
    exact List.ne_nil_of_mem (mem_initialsOf_iff.mpr inside)

theorem mem_ambiguous_ofOccurrences (found : List Occurrence) (name : String) :
    name ∈ (Constants.ofOccurrences found).ambiguous ↔ name ∈ otherNames found := by
  induction found using List.reverseRecOn with
  | nil => exact Iff.rfl
  | append_singleton found occurrence ih =>
    rw [Constants.ofOccurrences_append, List.foldl_cons, List.foldl_nil, otherNames_append,
      List.mem_append, ← ih]
    cases occurrence with
    | constant bound value => simp [Constants.add]
    | other bound => simp [Constants.add, or_comm]

/-- A look-up finds the last initial value of a name, if the name does not occur otherwise. -/
theorem get?_ofOccurrences (found : List Occurrence) (name : String) :
    (Constants.ofOccurrences found).get? name =
      if name ∈ otherNames found then none else (initialsOf name found).getLast? := by
  induction found using List.reverseRecOn with
  | nil => rfl
  | append_singleton found occurrence ih =>
    rw [Constants.ofOccurrences_append, List.foldl_cons, List.foldl_nil, otherNames_append,
      initialsOf, List.filterMap_append, ← initialsOf]
    cases occurrence with
    | constant bound value =>
      rw [Constants.add, Constants.get?_insert, ih, otherNames_constant, otherNames_nil,
        List.append_nil]
      by_cases same : bound = name
      · subst same
        simp [Occurrence.initial?, mem_ambiguous_ofOccurrences]
      · simp [Occurrence.initial?, same, Ne.symm same]
    | other bound =>
      rw [Constants.add, Constants.get?_obscure, ih, otherNames_other, otherNames_nil]
      by_cases same : name = bound
      · simp [same]
      · simp [Occurrence.initial?, same]

/-- A name that only occurs with one initial value is looked up to it. -/
theorem get?_of_occurs_only (plain : name ∉ otherNames found) (some : name ∈ constantNames found)
    (only : ∀ initial, .constant name initial ∈ found → initial = value) :
    (Constants.ofOccurrences found).get? name = .some value := by
  rw [get?_ofOccurrences, if_neg plain, List.getLast?_eq_some_getLast (initialsOf_ne_nil some)]
  exact congrArg _ (only _ (mem_initialsOf_iff.mp (List.getLast_mem _)))

end Tables

/-! ### Units -/

section Units

variable {unit : List Node} {item : Node} {name : String} {value : Node}

/-- A constant that an item declares occurs in it. -/
theorem mem_constantNames_item (declared : (name, value) ∈ itemConstants item) :
    name ∈ constantNames (itemOccurrences item) := by
  rcases item_cases item with ⟨kind, declarators, found, constants, -, -⟩ | ⟨-, none, -⟩ |
    ⟨-, none, -⟩
  · rw [found, variableOccurrences, constantNames_append, constantNames_outermost, ← constants]
    exact List.mem_append_left _ (List.mem_map.mpr ⟨_, declared, rfl⟩)
  · exact absurd declared (none ▸ List.not_mem_nil)
  · exact absurd declared (none ▸ List.not_mem_nil)

theorem mem_constantNames_unit (declared : (name, value) ∈ unitConstants unit) :
    name ∈ constantNames (unit.flatMap itemOccurrences) := by
  obtain ⟨item, here, declared⟩ := List.mem_flatMap.mp declared
  rw [constantNames, List.filterMap_flatMap]
  exact List.mem_flatMap.mpr ⟨item, here, mem_constantNames_item declared⟩

/-- What is declared once under a name is declared with one value. -/
theorem value_unique {entries : List (String × Node)} {value' : Node}
    (once : (entries.map Prod.fst).count name ≤ 1) (first : (name, value) ∈ entries)
    (second : (name, value') ∈ entries) : value = value' := by
  obtain ⟨before, behind, rfl⟩ := List.append_of_mem first
  rw [List.map_append, List.map_cons, List.count_append, List.count_cons_self] at once
  have ahead : name ∉ before.map Prod.fst := List.count_eq_zero.mp (by omega)
  have later : name ∉ behind.map Prod.fst := List.count_eq_zero.mp (by omega)
  rcases List.mem_append.mp second with here | here
  · exact absurd (List.mem_map.mpr ⟨_, here, rfl⟩) ahead
  · rcases List.mem_cons.mp here with same | here
    · exact (Prod.mk.inj same).2.symm
    · exact absurd (List.mem_map.mpr ⟨_, here, rfl⟩) later

/-- A name that is bound once in a unit, by a constant that an item declares, is bound in none of
the places where the collector records something else or does not look. -/
theorem bound_once (declared : (name, value) ∈ unitConstants unit)
    (sole : (bindingsOf unit).count name = 1) :
    ((unitConstants unit).map Prod.fst).count name ≤ 1 ∧
      name ∉ otherNames (unit.flatMap itemOccurrences) ∧ name ∉ unitOverlooked unit := by
  have total := count_unit unit name
  have positive := count_declared_pos declared
  exact ⟨by omega, List.count_eq_zero.mp (by omega), List.count_eq_zero.mp (by omega)⟩

end Units

/-- A constant is usable if its declaration is the only binding of its name in the unit: the
declaration is an item of the unit, exported or not, and what is looked up is the initial value
that stands in it. -/
theorem sole_constant_usable {unit : List Node} {name : String} {value : Node}
    (declared : (name, value) ∈ unitConstants unit) (sole : (bindingsOf unit).count name = 1) :
    (Constants.ofUnit unit).get? name = some value := by
  obtain ⟨once, plain, seen⟩ := bound_once declared sole
  refine get?_of_occurs_only plain (mem_constantNames_unit declared) fun initial here => ?_
  obtain ⟨item, inside, found⟩ := List.mem_flatMap.mp here
  rcases item_constants found with declared' | missed
  · exact value_unique once (List.mem_flatMap.mpr ⟨item, inside, declared'⟩) declared
  · exact absurd (List.mem_flatMap.mpr ⟨item, inside, missed⟩) seen

/-- The declaration of a constant with an initial value. -/
def declarationOf (name : String) (initial : Node) : Node :=
  .mk (.variables .const) ⟨0, 0⟩
    [.mk .declarator ⟨0, 0⟩ [.mk (.binding name) ⟨0, 0⟩ [], initial]]

/-- A function with a parameter that declares a constant inside a loop. -/
def loopFunction (parameter inner : String) : Node :=
  .mk (.function (some "f")) ⟨0, 0⟩
    [.mk .parameter ⟨0, 0⟩ [.mk (.binding parameter) ⟨0, 0⟩ []],
      .mk .scope ⟨0, 0⟩ [.mk .scope ⟨0, 0⟩
        [declarationOf inner (.mk (.string "b") ⟨0, 0⟩ [])]]]

/-- An exported constant that is initialized with a call, behind a function with a constant of
its own. -/
theorem sole_constant_usable_exported :
    let initial : Node := .mk .call ⟨0, 0⟩ [.mk (.identifier "f") ⟨0, 0⟩ []]
    let unit := [loopFunction "title" "other",
      .mk .exported ⟨0, 0⟩ [declarationOf "label" initial]]
    ("label", initial) ∈ unitConstants unit ∧ (bindingsOf unit).count "label" = 1 ∧
      (Constants.ofUnit unit).get? "label" = some initial := by
  intro initial unit
  have declared : ("label", initial) ∈ unitConstants unit := List.mem_singleton_self _
  exact ⟨declared, rfl, sole_constant_usable declared rfl⟩

end Binding

end MessageCatalog
