import MessageCatalog.Constant.Evaluation
import MessageCatalog.Proofs.Binding.Overlooked

/-!
# What the evaluator resolves

A name is resolved if it is a usable constant, or if it is the name of the undefined value
and no usable constant has it. The two cases differ in what ambiguity does: an ambiguous
constant is given up, but the name of the undefined value falls back to the value.
-/

namespace MessageCatalog

namespace Constant

open Syntax Binding

/-! ### The undefined value -/

section Undefined

variable {lookup : String → Option Value} {constants : Constants}

theorem add_ne_undefined (a b : Value) : a.add b ≠ .undefined := by
  cases a <;> cases b <;> simp [Value.add]

theorem applyUnary_ne_undefined (operator : UnaryOperator) (a : Value) :
    applyUnary operator a ≠ some .undefined := by
  cases operator <;> simp [applyUnary]

/-- Only a name can stand for the undefined value. -/
theorem evaluateWith_ne_undefined (names : ∀ name, lookup name ≠ some .undefined) (e : Node) :
    evaluateWith lookup e ≠ some .undefined := by
  induction e using node_induction with
  | step e ih =>
      rw [evaluateWith.eq_def]
      split
      · simp
      · simp
      · simp
      · simp
      · rw [ne_eq, Option.map_eq_some_iff]
        rintro ⟨text, -, same⟩
        cases same
      · exact ih _ (by simp)
      · exact ih _ (by simp)
      · intro sum
        obtain ⟨a, -, sum⟩ := Option.bind_eq_some_iff.mp sum
        obtain ⟨b, -, sum⟩ := Option.bind_eq_some_iff.mp sum
        exact add_ne_undefined a b (Option.some.inj sum)
      · intro result
        obtain ⟨a, -, result⟩ := Option.bind_eq_some_iff.mp result
        exact applyUnary_ne_undefined _ a result
      · exact names _
      · simp

theorem resolve_ne_undefined {value : Node} (usable : constants.get? undefinedName = some value)
    (n : Nat) (resolving : List String) (name : String) :
    resolve constants n resolving name ≠ some .undefined := by
  induction n generalizing resolving name with
  | zero => simp [resolve]
  | succ n ih =>
      rw [resolve]
      split
      · rename_i missing
        split
        · rename_i same
          rw [same, usable] at missing
          exact absurd missing (by simp)
        · simp
      · split
        · simp
        · exact evaluateWith_ne_undefined (ih _) _

/-- The name of the undefined value stands for it unless it is a usable constant, whatever
else in the unit binds it. -/
theorem evaluate_undefinedName_iff {span : Span} {parts : List Node} :
    evaluate constants (.mk (.identifier undefinedName) span parts) = some .undefined ↔
      constants.get? undefinedName = none := by
  rw [evaluate, evaluateWith]
  cases known : constants.get? undefinedName with
  | none => simp [resolve, known]
  | some value => simp [resolve_ne_undefined known]

end Undefined

/-! ### What may be resolved -/

/-- What the evaluator resolves is unambiguous outside the places that the collector
overlooks, and only there. A usable constant is declared by an item of the unit and bound
nowhere else exactly if its name is not overlooked and no second item declares it. The
name of the undefined value stands for it only in units that do not bind the name, except
where a usable constant takes its place: that the name is ambiguous makes no difference. -/
theorem resolved_unambiguous_iff (unit : List Node) :
    (∀ name value, (Constants.ofUnit unit).get? name = some value →
      (((name, value) ∈ unitConstants unit ∧ (bindingsOf unit).count name = 1) ↔
        name ∉ unitOverlooked unit ∧ ((unitConstants unit).map Prod.fst).count name ≤ 1)) ∧
    ∀ span parts,
      ((evaluate (Constants.ofUnit unit) (.mk (.identifier undefinedName) span parts) =
          some .undefined → undefinedName ∉ bindingsOf unit) ↔
        (undefinedName ∈ bindingsOf unit →
          ∃ value, (Constants.ofUnit unit).get? undefinedName = some value)) := by
  constructor
  · intro name value usable
    exact unambiguous_iff usable
  · intro span parts
    rw [evaluate_undefinedName_iff]
    cases (Constants.ofUnit unit).get? undefinedName with
    | none => simp
    | some value => simp

/-- The declaration of one constant, as in `const name = "text"`. -/
def constantDeclaration (name text : String) : Node :=
  .mk (.variables .const) ⟨0, 0⟩
    [.mk .declarator ⟨0, 0⟩
      [.mk (.binding name) ⟨0, 0⟩ [], .mk (.string text) ⟨0, 0⟩ []]]

/-- A unit with two constants. One of them is declared once more in a namespace, and a function
has a parameter with the name of the undefined value and a constant of its own. -/
def nestedUnit : List Node :=
  [constantDeclaration "label" "a", constantDeclaration "title" "b",
    .mk (.space (some "N")) ⟨0, 0⟩ [constantDeclaration "label" "c"],
    .mk (.function (some "f")) ⟨0, 0⟩
      [.mk .parameter ⟨0, 0⟩ [.mk (.binding undefinedName) ⟨0, 0⟩ []],
        .mk .scope ⟨0, 0⟩ [constantDeclaration "note" "d"]]]

/-- Of the names in this unit, the first one and that of the undefined value are resolved
although they are ambiguous, and the second one is not ambiguous. -/
theorem resolved_unambiguous_iff_nested :
    (∃ value, (Constants.ofUnit nestedUnit).get? "label" = some value ∧
      ¬ (("label", value) ∈ unitConstants nestedUnit ∧
        (bindingsOf nestedUnit).count "label" = 1)) ∧
    (∃ value, (Constants.ofUnit nestedUnit).get? "title" = some value ∧
      ("title", value) ∈ unitConstants nestedUnit ∧ (bindingsOf nestedUnit).count "title" = 1) ∧
    ¬ (evaluate (Constants.ofUnit nestedUnit)
        (.mk (.identifier undefinedName) ⟨0, 0⟩ []) = some .undefined →
      undefinedName ∉ bindingsOf nestedUnit) := by
  obtain ⟨names, undefined⟩ := resolved_unambiguous_iff nestedUnit
  have bound : undefinedName ∈ bindingsOf nestedUnit := by decide
  have overlooked : "label" ∈ unitOverlooked nestedUnit := by decide
  have seen : "title" ∉ unitOverlooked nestedUnit := by decide
  have once : ((unitConstants nestedUnit).map Prod.fst).count "title" ≤ 1 := by decide
  refine ⟨⟨_, rfl, ?_⟩, ⟨_, rfl, (names _ _ rfl).mpr ⟨seen, once⟩⟩, ?_⟩
  · exact fun settled => ((names _ _ rfl).mp settled).1 overlooked
  · intro unbound
    obtain ⟨value, usable⟩ := (undefined _ _).mp unbound bound
    exact absurd usable nofun

/-- A constant of a namespace is resolved in place of the outermost constant of the same
name, and the parameter of a function does not keep its name from standing for the
undefined value. -/
theorem resolved_ambiguous :
    (∃ value,
      (Constants.ofUnit [constantDeclaration "label" "a",
        .mk (.space (some "N")) ⟨0, 0⟩ [constantDeclaration "label" "b"]]).get? "label" =
          some value ∧
      ("label", value) ∉ unitConstants [constantDeclaration "label" "a",
        .mk (.space (some "N")) ⟨0, 0⟩ [constantDeclaration "label" "b"]] ∧
      (bindingsOf [constantDeclaration "label" "a",
        .mk (.space (some "N")) ⟨0, 0⟩ [constantDeclaration "label" "b"]]).count "label" = 2) ∧
    (evaluate (Constants.ofUnit [.mk (.function (some "f")) ⟨0, 0⟩
        [.mk .parameter ⟨0, 0⟩ [.mk (.binding undefinedName) ⟨0, 0⟩ []]]])
      (.mk (.identifier undefinedName) ⟨0, 0⟩ []) = some .undefined ∧
    undefinedName ∈ bindingsOf [.mk (.function (some "f")) ⟨0, 0⟩
      [.mk .parameter ⟨0, 0⟩ [.mk (.binding undefinedName) ⟨0, 0⟩ []]]]) := by
  refine ⟨⟨.mk (.string "b") ⟨0, 0⟩ [], rfl, ?_, rfl⟩, rfl, ?_⟩
  · simp [unitConstants, itemConstants, declaredConstants, constantDeclaration,
      plainDeclarator?]
  · exact List.mem_cons_of_mem "f" List.mem_cons_self

end Constant

end MessageCatalog
