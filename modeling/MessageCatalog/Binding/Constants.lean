import MessageCatalog.Binding.Pattern

/-!
# Constants of a unit

A name is a usable constant if it is declared by `const` with an initial value where
the whole unit sees it, and if nothing else in the unit binds the name: lexical scope is
not tracked, so a name that is bound in two places is ambiguous and left alone.

The tree is turned into a list of occurrences first, each a constant or some other
binding. The table of constants is what remains of that list: the last constant under
each name, and the set of names that occur otherwise.
-/

namespace MessageCatalog

namespace Binding

open Syntax

/-- A place where a name is bound: as a constant, with its initial value, or in any other way,
which makes the name ambiguous if it is a constant elsewhere. -/
inductive Occurrence where
  | constant (name : String) (value : Node)
  | other (name : String)

/-- What the declarators of one declaration bind. Only a plain name with an initial value is a
constant, and only if the declaration is outermost; every other name, those of patterns
included, is bound otherwise. -/
def declaratorOccurrences (outermost : Bool) (kind : DeclarationKind) :
    List Node → List Occurrence
  | [] => []
  | .mk .declarator _ [.mk (.binding name) _ _, value] :: rest =>
    (if outermost && kind = .const then .constant name value else .other name) ::
      declaratorOccurrences outermost kind rest
  | .mk .declarator _ (pattern :: _) :: rest =>
    pattern.boundNames.map .other ++ declaratorOccurrences outermost kind rest
  | _ :: rest => declaratorOccurrences outermost kind rest

def parametersOf (children : List Node) : List Node :=
  children.filter fun node => node.form matches .parameter

def parameterOccurrences (children : List Node) : List Occurrence :=
  (Node.boundNamesOf (parametersOf children)).map .other

mutual

/-- What is bound in a tree. `outermost` says that no function, class, block or loop is
around it. -/
def occurrences (outermost : Bool) : Node → List Occurrence
  | .mk (.variables kind) _ declarators =>
    declaratorOccurrences outermost kind declarators ++ occurrencesOf outermost declarators
  | .mk (.function name) _ children =>
    (name.toList.map .other ++ parameterOccurrences children) ++ occurrencesOf false children
  | .mk (.class name) _ children => name.toList.map .other ++ occurrencesOf false children
  | .mk .setter _ children => parameterOccurrences children ++ occurrencesOf false children
  | .mk .scope _ children => occurrencesOf false children
  | .mk .handler _ [caught, body] => caught.boundNames.map .other ++ occurrences false body
  | .mk .handler _ [body] => occurrences false body
  | .mk _ _ children => occurrencesOf outermost children

def occurrencesOf (outermost : Bool) : List Node → List Occurrence
  | [] => []
  | node :: nodes => occurrences outermost node ++ occurrencesOf outermost nodes

end

def initialValues (declarators : List Node) : List Node :=
  declarators.filterMap fun
    | .mk .declarator _ [_, value] => some value
    | _ => none

/-- What an outermost declaration of variables binds. Default values inside its patterns
are not looked at. -/
def variableOccurrences (kind : DeclarationKind) (declarators : List Node) :
    List Occurrence :=
  declaratorOccurrences true kind declarators ++
    occurrencesOf true (initialValues declarators)

/-- What an item of a unit binds. Imports are kept apart. -/
def itemOccurrences : Node → List Occurrence
  | .mk (.variables kind) _ declarators => variableOccurrences kind declarators
  | .mk .exported _ [.mk (.variables kind) _ declarators] =>
    variableOccurrences kind declarators
  | .mk (.imports _) _ _ => []
  | node => occurrences true node

/-- The constants of a unit: initial values by name, and the names that are ambiguous. -/
structure Constants where
  values : List (String × Node)
  ambiguous : List String

namespace Constants

def empty : Constants := ⟨[], []⟩

def insert (constants : Constants) (name : String) (value : Node) : Constants :=
  { constants with values := (name, value) :: constants.values.filter (·.1 != name) }

def obscure (constants : Constants) (name : String) : Constants :=
  { constants with ambiguous := name :: constants.ambiguous }

/-- The initial value of a name, unless the name is ambiguous. The value stays in the table
then, but nothing leads to it. -/
def get? (constants : Constants) (name : String) : Option Node :=
  if constants.ambiguous.contains name then none else constants.values.lookup name

/-- The number of names with an initial value, ambiguous ones included. It bounds how long a
chain of constants can be that are defined by each other. -/
def size (constants : Constants) : Nat :=
  constants.values.length

def add (constants : Constants) : Occurrence → Constants
  | .constant name value => constants.insert name value
  | .other name => constants.obscure name

def ofOccurrences (found : List Occurrence) : Constants :=
  found.foldl add empty

/-- The constants of a unit: what remains of the occurrences in its items, which are taken in
the order in which they stand. -/
def ofUnit (unit : List Node) : Constants :=
  ofOccurrences (unit.flatMap itemOccurrences)

@[simp] theorem values_insert (constants : Constants) (name : String) (value : Node) :
    (constants.insert name value).values =
      (name, value) :: constants.values.filter (·.1 != name) := rfl

@[simp] theorem ambiguous_insert (constants : Constants) (name : String) (value : Node) :
    (constants.insert name value).ambiguous = constants.ambiguous := rfl

@[simp] theorem values_obscure (constants : Constants) (name : String) :
    (constants.obscure name).values = constants.values := rfl

@[simp] theorem ambiguous_obscure (constants : Constants) (name : String) :
    (constants.obscure name).ambiguous = name :: constants.ambiguous := rfl

@[simp] theorem get?_empty (name : String) : empty.get? name = none := rfl

@[simp] theorem get?_obscure (constants : Constants) (name other : String) :
    (constants.obscure name).get? other =
      if other = name then none else constants.get? other := by
  by_cases h : other = name <;> simp [get?, h]

/-- Outside the ambiguous names, the last initial value counts. -/
theorem get?_insert (constants : Constants) (name other : String) (value : Node) :
    (constants.insert name value).get? other =
      if other = name then
        if constants.ambiguous.contains name then none else some value
      else constants.get? other := by
  by_cases h : other = name
  · simp [get?, h]
  · have distinct : (other == name) = false := by simpa using h
    have later : (constants.values.filter (·.1 != name)).lookup other =
        constants.values.lookup other := by
      induction constants.values with
      | nil => rfl
      | cons entry entries ih =>
        obtain ⟨key, found⟩ := entry
        by_cases hk : key = name
        · simp [List.lookup_cons, hk, distinct, ih]
        · simp [List.lookup_cons, hk, ih]
    simp [get?, h, distinct, List.lookup_cons, later]

@[simp] theorem ofOccurrences_nil : ofOccurrences [] = empty := rfl

/-- A later occurrence is added to what the earlier ones make. -/
theorem ofOccurrences_append (found later : List Occurrence) :
    ofOccurrences (found ++ later) = later.foldl add (ofOccurrences found) := by
  rw [ofOccurrences, ofOccurrences, List.foldl_append]

end Constants

end Binding

end MessageCatalog
