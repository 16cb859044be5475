import MessageCatalog.Proofs.Binding.Inventory

/-!
# Bindings that the collector overlooks

A constant is meant to be usable only if nothing else in the unit binds its name. The
collector falls short of this where it does not look, and where it takes an inner
declaration for an outermost one. `overlooked` lists the names of these places, so that
every binding of a unit is a constant of an outermost declaration, recorded as ambiguous,
or overlooked, and exactly one of the three. A usable constant is therefore unambiguous if
and only if its name is not overlooked and no second outermost declaration takes it.

The bindings of a name are counted, not only looked for, because one that is found twice
is not unambiguous even if both are of the same kind.
-/

namespace MessageCatalog

namespace Binding

open Syntax

/-! ### What is overlooked inside an item -/

/-- The names that a node introduces without making an occurrence. -/
def unnoticed : Node → List String
  | .mk (.enumeration name) _ _ => [name]
  | .mk (.space name) _ _ => name.toList
  | .mk (.imports names) _ _ => names.map Import.localName
  | .mk (.alias name) _ _ => [name]
  | .mk .resources _ declarators => declaredNames declarators
  | _ => []

/-- The parts that are not visited: the parameter of a handler, with the default values
in it. -/
def skipped : Node → List Node
  | .mk .handler _ [caught, _] => [caught]
  | _ => []

mutual

/-- The names whose bindings in a tree are overlooked. A declaration counts as outermost
in a namespace and in the cases of a choice, because neither is a scope to the collector;
what it takes for a constant there is listed too. -/
def overlooked (outermost : Bool) : Node → List String
  | .mk .handler _ [caught, body] => bindings caught ++ overlooked false body
  | .mk form span children =>
    unnoticed (.mk form span children) ++
      constantNames (ownOccurrences outermost (.mk form span children)) ++
      overlookedOf (outermost && !encloses (.mk form span children)) children

/-- The names whose bindings in several trees are overlooked. -/
def overlookedOf (outermost : Bool) : List Node → List String
  | [] => []
  | node :: nodes => overlooked outermost node ++ overlookedOf outermost nodes

end

section Nodes

variable (name : String)

@[simp] theorem overlookedOf_nil (outermost : Bool) : overlookedOf outermost [] = [] := by
  rw [overlookedOf]

@[simp] theorem overlookedOf_cons (outermost : Bool) (node : Node) (nodes : List Node) :
    overlookedOf outermost (node :: nodes) =
      overlooked outermost node ++ overlookedOf outermost nodes := by
  rw [overlookedOf]

theorem overlooked_eq (outermost : Bool) (node : Node) :
    overlooked outermost node = unnoticed node ++
      constantNames (ownOccurrences outermost node) ++ bindingsOf (skipped node) ++
      overlookedOf (outermost && !encloses node) (visited node) := by
  rw [overlooked.eq_def]
  split <;> simp_all [unnoticed, ownOccurrences, skipped, encloses, visited]

/-- Each name of a declarator makes an occurrence. -/
theorem count_declaredNames (outermost : Bool) (kind : DeclarationKind)
    (declarators : List Node) :
    (declaredNames declarators).count name =
      (otherNames (declaratorOccurrences outermost kind declarators)).count name +
        (constantNames (declaratorOccurrences outermost kind declarators)).count name := by
  induction declarators with
  | nil => rfl
  | cons node rest ih =>
      rw [declaredNames, List.flatMap_cons, List.count_append, ← declaredNames, ih]
      rcases declarator_cases node with ⟨bound, value, -, single, found⟩ | ⟨-, found⟩
      · rw [found, single]
        split
        · rw [otherNames_constant, constantNames_constant, List.count_cons, List.count_cons]
          simp only [List.count_nil]
          omega
        · rw [otherNames_other, constantNames_other, List.count_cons, List.count_cons]
          simp only [List.count_nil]
          omega
      · rw [found]
        simp only [otherNames_append, constantNames_append, otherNames_map_other,
          constantNames_map_other, List.count_append, List.count_nil]
        omega

/-- Each name that a node introduces makes an occurrence or goes unnoticed. -/
theorem count_introduced (outermost : Bool) (node : Node) :
    (introduced node).count name =
      (otherNames (ownOccurrences outermost node)).count name +
        (constantNames (ownOccurrences outermost node)).count name +
        (unnoticed node).count name := by
  rw [introduced.eq_def]
  split <;> simp_all [ownOccurrences, unnoticed, parameterOccurrences]
  -- What remains are variables, the only form that can make constants.
  exact count_declaredNames _ _ _ _

theorem count_children (node : Node) :
    (bindingsOf node.children).count name =
      (bindingsOf (skipped node)).count name + (bindingsOf (visited node)).count name := by
  rw [skipped.eq_def]
  split
  · simp [visited]
  · rename_i other
    rw [visited.eq_def]
    split
    · exact absurd rfl (other _ _ _)
    · simp

theorem count_parts (outermost : Bool) {nodes : List Node}
    (each : ∀ node ∈ nodes, (bindings node).count name =
      (otherNames (occurrences outermost node)).count name +
        (overlooked outermost node).count name) :
    (bindingsOf nodes).count name =
      (otherNames (occurrencesOf outermost nodes)).count name +
        (overlookedOf outermost nodes).count name := by
  induction nodes with
  | nil => rfl
  | cons node nodes ih =>
      have first := each node List.mem_cons_self
      have rest := ih fun part here => each part (List.mem_cons_of_mem _ here)
      simp only [bindingsOf_cons, occurrencesOf_cons, overlookedOf_cons, otherNames_append,
        List.count_append]
      omega

/-- Every binding inside a tree is recorded as ambiguous or overlooked. -/
theorem count_bindings (outermost : Bool) (node : Node) :
    (bindings node).count name =
      (otherNames (occurrences outermost node)).count name +
        (overlooked outermost node).count name := by
  induction node using node_induction generalizing outermost with
  | step node ih =>
      have parts := count_parts name (outermost && !encloses node) fun part here =>
        ih part (visited_subset node here) _
      have own := count_introduced name outermost node
      have children := count_children name node
      rw [bindings_eq, occurrences_eq, overlooked_eq]
      simp only [otherNames_append, List.count_append]
      omega

variable {name}

theorem constants_overlooked_parts {nodes : List Node} {outermost : Bool} {value : Node}
    (each : ∀ node ∈ nodes, .constant name value ∈ occurrences outermost node →
      name ∈ overlooked outermost node)
    (here : .constant name value ∈ occurrencesOf outermost nodes) :
    name ∈ overlookedOf outermost nodes := by
  induction nodes with
  | nil => exact absurd here (by simp)
  | cons node nodes ih =>
      rw [occurrencesOf_cons] at here
      rw [overlookedOf_cons]
      rcases List.mem_append.mp here with here | here
      · exact List.mem_append_left _ (each node List.mem_cons_self here)
      · refine List.mem_append_right _ (ih ?_ here)
        intro part inside
        exact each part (List.mem_cons_of_mem _ inside)

/-- What is taken for a constant inside a tree is overlooked. -/
theorem constants_overlooked {outermost : Bool} {node value : Node}
    (here : .constant name value ∈ occurrences outermost node) :
    name ∈ overlooked outermost node := by
  induction node using node_induction generalizing outermost with
  | step node ih =>
      rw [occurrences_eq] at here
      rw [overlooked_eq]
      rcases List.mem_append.mp here with own | inside
      · have own := mem_constantNames own
        simp [own]
      · refine List.mem_append_right _ (constants_overlooked_parts ?_ inside)
        intro part visited here
        exact ih part (visited_subset node visited) here

end Nodes

/-! ### Items -/

/-- The constants of a declaration of variables: the names of its plain declarators, with
their initial values. -/
def declaredConstants (kind : DeclarationKind) (declarators : List Node) :
    List (String × Node) :=
  if kind = .const then declarators.filterMap plainDeclarator? else []

/-- The constants that an item declares, exported or not. -/
def itemConstants : Node → List (String × Node)
  | .mk (.variables kind) _ declarators => declaredConstants kind declarators
  | .mk .exported _ [.mk (.variables kind) _ declarators] => declaredConstants kind declarators
  | _ => []

/-- The parts of an outermost declarator that are not visited. Where there is an initial
value, it is the pattern, with the default values in it. -/
def unread : Node → Node
  | .mk .declarator _ [pattern, _] => pattern
  | node => node

/-- The names whose bindings in an outermost declaration are overlooked. -/
def variablesOverlooked (declarators : List Node) : List String :=
  bindingsOf (declarators.map unread) ++ overlookedOf true (initialValues declarators)

/-- The names whose bindings in an item are overlooked. -/
def itemOverlooked : Node → List String
  | .mk (.variables _) _ declarators => variablesOverlooked declarators
  | .mk .exported _ [.mk (.variables _) _ declarators] => variablesOverlooked declarators
  | .mk (.imports names) span attributes => bindings (.mk (.imports names) span attributes)
  | node => overlooked true node

section Items

variable (name : String)

/-- An item is an outermost declaration, an import or a tree that is visited. -/
theorem item_cases (item : Node) :
    (∃ kind declarators, itemOccurrences item = variableOccurrences kind declarators ∧
      itemConstants item = declaredConstants kind declarators ∧
      itemOverlooked item = variablesOverlooked declarators ∧
      bindings item = declaredNames declarators ++ bindingsOf declarators) ∨
    (itemOccurrences item = [] ∧ itemConstants item = [] ∧
      itemOverlooked item = bindings item) ∨
    (itemOccurrences item = occurrences true item ∧ itemConstants item = [] ∧
      itemOverlooked item = overlooked true item) := by
  rw [itemOccurrences.eq_def]
  split
  · rename_i kind _ declarators
    refine .inl ⟨kind, declarators, rfl, rfl, rfl, ?_⟩
    simp [bindings_eq, introduced]
  · rename_i kind _ declarators
    refine .inl ⟨kind, declarators, rfl, rfl, rfl, ?_⟩
    simp [bindings_eq, introduced]
  · exact .inr (.inl ⟨rfl, rfl, rfl⟩)
  · rename_i declared exported imports
    refine .inr (.inr ⟨rfl, ?_, ?_⟩)
    · rw [itemConstants.eq_def]
      split
      · exact absurd rfl (declared _ _ _)
      · exact absurd rfl (exported _ _ _ _)
      · rfl
    · rw [itemOverlooked.eq_def]
      split
      · exact absurd rfl (declared _ _ _)
      · exact absurd rfl (exported _ _ _ _)
      · exact absurd rfl (imports _ _ _)
      · rfl

/-- The parts of declarators are visited or not. -/
theorem count_declarators (declarators : List Node) :
    (bindingsOf declarators).count name =
      (bindingsOf (declarators.map unread)).count name +
        (bindingsOf (initialValues declarators)).count name := by
  induction declarators with
  | nil => rfl
  | cons node rest ih =>
      rw [initialValues, List.filterMap_cons, List.map_cons, bindingsOf_cons, bindingsOf_cons,
        List.count_append, List.count_append, ih, ← initialValues]
      split
      · rename_i none
        have whole : unread node = node := by
          rw [unread.eq_def]
          split
          · exact absurd none (by simp)
          · rfl
        rw [whole]
        omega
      · rename_i value some
        split at some
        · rename_i span pattern _
          cases some
          have whole : bindings (.mk .declarator span [pattern, value]) =
              bindings pattern ++ bindings value := by
            rw [bindings_eq]
            simp [introduced]
          rw [whole, unread, bindingsOf_cons, List.count_append, List.count_append]
          omega
        · exact absurd some (by simp)

theorem constantNames_outermost (kind : DeclarationKind) (declarators : List Node) :
    constantNames (declaratorOccurrences true kind declarators) =
      (declaredConstants kind declarators).map Prod.fst := by
  rw [declaredConstants]
  induction declarators with
  | nil => split <;> rfl
  | cons node rest ih =>
      rcases declarator_cases node with ⟨bound, value, plain, -, found⟩ | ⟨plain, found⟩
      · rw [found]
        by_cases constant : kind = .const
        · simp only [constant, if_true, Bool.true_and, decide_true] at ih ⊢
          simp [plain, ih]
        · simp only [constant, if_false, Bool.true_and, decide_false, Bool.false_eq_true] at ih ⊢
          simpa using ih
      · rw [found, constantNames_append, constantNames_map_other, List.nil_append, ih,
          List.filterMap_cons, plain]

theorem mem_declaredConstants {name : String} {kind : DeclarationKind} {declarators : List Node}
    {value : Node} (here : .constant name value ∈ declaratorOccurrences true kind declarators) :
    (name, value) ∈ declaredConstants kind declarators := by
  rw [declaredConstants]
  induction declarators with
  | nil => exact absurd here (by simp [declaratorOccurrences])
  | cons node rest ih =>
      rcases declarator_cases node with ⟨bound, value', plain, -, found⟩ | ⟨plain, found⟩
      · rw [found] at here
        by_cases constant : kind = .const
        · simp only [constant, if_true, Bool.true_and, decide_true] at ih here ⊢
          rw [List.filterMap_cons, plain]
          rcases List.mem_cons.mp here with same | here
          · cases same
            exact List.mem_cons_self
          · exact List.mem_cons_of_mem _ (ih here)
        · simp only [constant, if_false, Bool.true_and, decide_false, Bool.false_eq_true] at ih here
          rcases List.mem_cons.mp here with same | here
          · cases same
          · exact absurd (ih here) List.not_mem_nil
      · rw [found] at here
        rw [List.filterMap_cons, plain]
        rcases List.mem_append.mp here with other | here
        · exact absurd other (by simp)
        · exact ih here

/-- Every binding of an item is a constant that it declares, recorded as ambiguous, or
overlooked. -/
theorem count_item (item : Node) :
    (bindings item).count name =
      ((itemConstants item).map Prod.fst).count name +
        (otherNames (itemOccurrences item)).count name + (itemOverlooked item).count name := by
  rcases item_cases item with ⟨kind, declarators, found, constants, missed, whole⟩ |
    ⟨found, constants, missed⟩ | ⟨found, constants, missed⟩
  · have declared := count_declaredNames name true kind declarators
    have parts := count_declarators name declarators
    have values : (bindingsOf (initialValues declarators)).count name = _ :=
      count_parts name true fun node _ => count_bindings name true node
    rw [constantNames_outermost] at declared
    rw [found, constants, missed, whole, variableOccurrences, variablesOverlooked]
    simp only [otherNames_append, List.count_append]
    omega
  · rw [found, constants, missed]
    simp
  · rw [found, constants, missed, count_bindings name true item]
    simp

/-- What is taken for a constant is one of the item, or it is overlooked. -/
theorem item_constants {name : String} {item value : Node}
    (here : .constant name value ∈ itemOccurrences item) :
    (name, value) ∈ itemConstants item ∨ name ∈ itemOverlooked item := by
  rcases item_cases item with ⟨kind, declarators, found, constants, missed, -⟩ |
    ⟨found, -, -⟩ | ⟨found, -, missed⟩
  · rw [found, variableOccurrences] at here
    rw [constants, missed, variablesOverlooked]
    rcases List.mem_append.mp here with outer | inner
    · exact .inl (mem_declaredConstants outer)
    · have taken := constants_overlooked_parts (fun node _ => constants_overlooked) inner
      exact .inr (List.mem_append_right _ taken)
  · rw [found] at here
    exact absurd here List.not_mem_nil
  · rw [found] at here
    rw [missed]
    exact .inr (constants_overlooked here)

end Items

/-! ### Units -/

/-- The constants that the items of a unit declare. -/
def unitConstants (unit : List Node) : List (String × Node) :=
  unit.flatMap itemConstants

/-- The names whose bindings in a unit are overlooked. -/
def unitOverlooked (unit : List Node) : List String :=
  unit.flatMap itemOverlooked

section Units

variable {unit : List Node} {name : String} {value : Node}

/-- The three places for the bindings of a unit. -/
theorem count_unit (unit : List Node) (name : String) :
    (bindingsOf unit).count name =
      ((unitConstants unit).map Prod.fst).count name +
        (otherNames (unit.flatMap itemOccurrences)).count name +
        (unitOverlooked unit).count name := by
  induction unit with
  | nil => rfl
  | cons item unit ih =>
      have first := count_item name item
      simp only [unitConstants, unitOverlooked, List.flatMap_cons, bindingsOf_cons,
        List.map_append, otherNames_append, List.count_append] at ih ⊢
      omega

/-- A name that is looked up successfully occurs as a constant only. -/
theorem occurrences_of_get? {found : List Occurrence} {constants : Constants}
    (usable : (found.foldl Constants.add constants).get? name = some value) :
    name ∉ constants.ambiguous ∧ .other name ∉ found ∧
      (.constant name value ∈ found ∨ constants.get? name = some value) := by
  induction found generalizing constants with
  | nil =>
      refine ⟨?_, List.not_mem_nil, .inr usable⟩
      intro ambiguous
      exact absurd usable (by simp [Constants.get?, ambiguous])
  | cons occurrence found ih =>
      obtain ⟨clear, plain, known⟩ := ih usable
      cases occurrence with
      | constant bound initial =>
          refine ⟨clear, by simpa using plain, ?_⟩
          rcases known with known | known
          · exact .inl (List.mem_cons_of_mem _ known)
          · rw [Constants.add, Constants.get?_insert] at known
            split at known
            · rename_i same
              subst same
              split at known
              · exact absurd known (by simp)
              · cases known
                exact .inl List.mem_cons_self
            · exact .inr known
      | other bound =>
          rw [Constants.add, Constants.ambiguous_obscure, List.mem_cons, not_or] at clear
          obtain ⟨distinct, clear⟩ := clear
          refine ⟨clear, by simp [distinct, plain], ?_⟩
          rcases known with known | known
          · exact .inl (List.mem_cons_of_mem _ known)
          · rw [Constants.add, Constants.get?_obscure, if_neg distinct] at known
            exact .inr known

theorem constant_of_get? (usable : (Constants.ofUnit unit).get? name = some value) :
    (otherNames (unit.flatMap itemOccurrences)).count name = 0 ∧
      ((name, value) ∈ unitConstants unit ∨ name ∈ unitOverlooked unit) := by
  obtain ⟨-, plain, known⟩ := occurrences_of_get? usable
  rw [List.count_eq_zero, mem_otherNames]
  refine ⟨plain, ?_⟩
  rcases known with known | known
  · obtain ⟨item, here, found⟩ := List.mem_flatMap.mp known
    rcases item_constants found with declared | missed
    · exact .inl (List.mem_flatMap.mpr ⟨item, here, declared⟩)
    · exact .inr (List.mem_flatMap.mpr ⟨item, here, missed⟩)
  · exact absurd known (by simp)

theorem count_declared_pos (declared : (name, value) ∈ unitConstants unit) :
    0 < ((unitConstants unit).map Prod.fst).count name :=
  List.count_pos_iff.mpr (List.mem_map.mpr ⟨_, declared, rfl⟩)

/-- A usable constant is unambiguous exactly if no binding of its name is overlooked and
it is declared no more than once. -/
theorem unambiguous_iff (usable : (Constants.ofUnit unit).get? name = some value) :
    ((name, value) ∈ unitConstants unit ∧ (bindingsOf unit).count name = 1) ↔
      name ∉ unitOverlooked unit ∧ ((unitConstants unit).map Prod.fst).count name ≤ 1 := by
  obtain ⟨plain, source⟩ := constant_of_get? usable
  have total := count_unit unit name
  rw [← List.count_eq_zero]
  constructor
  · rintro ⟨declared, once⟩
    have positive := count_declared_pos declared
    omega
  · rintro ⟨seen, once⟩
    have declared : (name, value) ∈ unitConstants unit :=
      source.resolve_right (List.count_eq_zero.mp seen)
    have positive := count_declared_pos declared
    exact ⟨declared, by omega⟩

end Units

end Binding

end MessageCatalog
