import MessageCatalog.Binding.Constants

/-!
# The names that a tree binds

The inventory lists a name once for each place that binds it, wherever the place is. It
is made without regard to scopes and order: every node adds the names that it introduces
itself to those of its parts.

The collector of constants walks over the same trees, but it leaves some parts out and
keeps track of how deep it is. What it finds is brought into the same form here: the
occurrences that a node makes itself, followed by those in the parts that are visited.
-/

namespace MessageCatalog

namespace Binding

open Syntax

/-! ### Trees -/

section Induction

variable {motive : Node → Prop}

mutual

/-- What a node inherits from its parts holds of every tree. -/
theorem node_induction (step : ∀ node : Node, (∀ part ∈ node.children, motive part) →
    motive node) : ∀ node, motive node
  | .mk form span children => step (.mk form span children) (parts_induction step children)

theorem parts_induction (step : ∀ node : Node, (∀ part ∈ node.children, motive part) →
    motive node) : ∀ nodes : List Node, ∀ part ∈ nodes, motive part
  | [], _, here => absurd here List.not_mem_nil
  | node :: nodes, part, here => by
      have first := node_induction step node
      rcases List.mem_cons.mp here with rfl | here
      · exact first
      · exact parts_induction step nodes part here

end

end Induction

/-! ### The inventory -/

/-- The names in the pattern of a declarator. -/
def declared : Node → List String
  | .mk .declarator _ (pattern :: _) => pattern.boundNames
  | _ => []

/-- The names in the patterns of declarators. -/
def declaredNames (declarators : List Node) : List String :=
  declarators.flatMap declared

/-- The names that a node introduces itself. -/
def introduced : Node → List String
  | .mk (.variables _) _ declarators => declaredNames declarators
  | .mk (.function name) _ children =>
    name.toList ++ Node.boundNamesOf (parametersOf children)
  | .mk (.class name) _ _ => name.toList
  | .mk .setter _ children => Node.boundNamesOf (parametersOf children)
  | .mk .handler _ [caught, _] => caught.boundNames
  | .mk (.enumeration name) _ _ => [name]
  | .mk (.space name) _ _ => name.toList
  | .mk (.imports names) _ _ => names.map Import.localName
  | .mk (.alias name) _ _ => [name]
  | .mk .resources _ declarators => declaredNames declarators
  | _ => []

mutual

/-- The names that are bound in a tree, at every depth. -/
def bindings : Node → List String
  | .mk form span children => introduced (.mk form span children) ++ bindingsOf children

/-- The names that are bound in several trees. -/
def bindingsOf : List Node → List String
  | [] => []
  | node :: nodes => bindings node ++ bindingsOf nodes

end

@[simp] theorem bindingsOf_nil : bindingsOf [] = [] := by
  rw [bindingsOf]

@[simp] theorem bindingsOf_cons (node : Node) (nodes : List Node) :
    bindingsOf (node :: nodes) = bindings node ++ bindingsOf nodes := by
  rw [bindingsOf]

theorem bindings_eq (node : Node) :
    bindings node = introduced node ++ bindingsOf node.children := by
  cases node
  rw [bindings, Node.children_mk]

/-! ### Occurrences -/

/-- The name of an occurrence that is a constant. -/
def Occurrence.constantName? : Occurrence → Option String
  | .constant name _ => some name
  | .other _ => none

/-- The name of an occurrence that is no constant. -/
def Occurrence.otherName? : Occurrence → Option String
  | .constant _ _ => none
  | .other name => some name

/-- The names of the constants among occurrences. -/
def constantNames (found : List Occurrence) : List String :=
  found.filterMap Occurrence.constantName?

/-- The names of all other occurrences. -/
def otherNames (found : List Occurrence) : List String :=
  found.filterMap Occurrence.otherName?

section Occurrences

variable {found later : List Occurrence} {name : String} {value : Node}

@[simp] theorem constantNames_append :
    constantNames (found ++ later) = constantNames found ++ constantNames later :=
  List.filterMap_append

@[simp] theorem otherNames_append :
    otherNames (found ++ later) = otherNames found ++ otherNames later :=
  List.filterMap_append

@[simp] theorem constantNames_map_other (names : List String) :
    constantNames (names.map .other) = [] := by
  rw [constantNames, List.filterMap_map, List.filterMap_eq_nil_iff]
  intro name _
  rfl

@[simp] theorem otherNames_map_other (names : List String) :
    otherNames (names.map .other) = names := by
  rw [otherNames, List.filterMap_map]
  exact List.filterMap_some

@[simp] theorem constantNames_nil : constantNames [] = [] := rfl

@[simp] theorem otherNames_nil : otherNames [] = [] := rfl

@[simp] theorem constantNames_constant :
    constantNames (.constant name value :: found) = name :: constantNames found := rfl

@[simp] theorem constantNames_other :
    constantNames (.other name :: found) = constantNames found := rfl

@[simp] theorem otherNames_constant :
    otherNames (.constant name value :: found) = otherNames found := rfl

@[simp] theorem otherNames_other :
    otherNames (.other name :: found) = name :: otherNames found := rfl

theorem mem_constantNames (here : .constant name value ∈ found) :
    name ∈ constantNames found :=
  List.mem_filterMap.mpr ⟨_, here, rfl⟩

theorem mem_otherNames : name ∈ otherNames found ↔ .other name ∈ found := by
  rw [otherNames, List.mem_filterMap]
  constructor
  · rintro ⟨occurrence, here, same⟩
    cases occurrence with
    | constant => exact absurd same (by simp [Occurrence.otherName?])
    | other =>
        cases same
        exact here
  · intro here
    exact ⟨_, here, rfl⟩

end Occurrences

/-- The name and the initial value of a declarator, if its pattern is one name. -/
def plainDeclarator? : Node → Option (String × Node)
  | .mk .declarator _ [.mk (.binding name) _ _, value] => some (name, value)
  | _ => none

/-- A declarator of one name with an initial value makes a constant where it may. Any other
declarator makes none. -/
theorem declarator_cases (node : Node) :
    (∃ name value, plainDeclarator? node = some (name, value) ∧ declared node = [name] ∧
      ∀ outermost kind rest, declaratorOccurrences outermost kind (node :: rest) =
        (if outermost && kind = .const then .constant name value else .other name) ::
          declaratorOccurrences outermost kind rest) ∨
    (plainDeclarator? node = none ∧
      ∀ outermost kind rest, declaratorOccurrences outermost kind (node :: rest) =
        (declared node).map .other ++ declaratorOccurrences outermost kind rest) := by
  cases plain : plainDeclarator? node with
  | some entry =>
      rw [plainDeclarator?.eq_def] at plain
      split at plain
      · rename_i name _ _ value
        cases plain
        refine .inl ⟨name, value, rfl, ?_, ?_⟩
        · simp [declared]
        · intro outermost kind rest
          rw [declaratorOccurrences]
      · exact absurd plain (by simp)
  | none =>
      refine .inr ⟨rfl, ?_⟩
      intro outermost kind rest
      rw [declaratorOccurrences.eq_def]
      split
      · rename_i empty
        exact absurd empty (by simp)
      · rename_i whole
        cases whole
        exact absurd plain (by simp [plainDeclarator?])
      · rename_i whole
        cases whole
        rfl
      · rename_i other whole
        cases whole
        have bare : declared node = [] := by
          rw [declared.eq_def]
          split
          · exact absurd rfl (other _ _ _)
          · rfl
        rw [bare, List.map_nil, List.nil_append]

/-- The occurrences that a node makes itself. -/
def ownOccurrences (outermost : Bool) : Node → List Occurrence
  | .mk (.variables kind) _ declarators => declaratorOccurrences outermost kind declarators
  | .mk (.function name) _ children => name.toList.map .other ++ parameterOccurrences children
  | .mk (.class name) _ _ => name.toList.map .other
  | .mk .setter _ children => parameterOccurrences children
  | .mk .handler _ [caught, _] => caught.boundNames.map .other
  | _ => []

/-- Whether declarations inside the node are no longer outermost. -/
def encloses : Node → Bool
  | .mk (.function _) _ _ => true
  | .mk (.class _) _ _ => true
  | .mk .setter _ _ => true
  | .mk .scope _ _ => true
  | .mk .handler _ [_] => true
  | .mk .handler _ [_, _] => true
  | _ => false

/-- The parts that are visited. Of a handler with a parameter, it is only the body. -/
def visited : Node → List Node
  | .mk .handler _ [_, body] => [body]
  | .mk _ _ children => children

theorem visited_subset (node : Node) : visited node ⊆ node.children := by
  intro part here
  rw [visited.eq_def] at here
  split at here
  · exact List.mem_cons_of_mem _ here
  · exact here

@[simp] theorem occurrencesOf_nil (outermost : Bool) : occurrencesOf outermost [] = [] := by
  rw [occurrencesOf]

@[simp] theorem occurrencesOf_cons (outermost : Bool) (node : Node) (nodes : List Node) :
    occurrencesOf outermost (node :: nodes) =
      occurrences outermost node ++ occurrencesOf outermost nodes := by
  rw [occurrencesOf]

theorem occurrences_eq (outermost : Bool) (node : Node) :
    occurrences outermost node = ownOccurrences outermost node ++
      occurrencesOf (outermost && !encloses node) (visited node) := by
  rw [occurrences.eq_def]
  split <;> simp_all [ownOccurrences, encloses, visited]

end Binding

end MessageCatalog
