import MessageCatalog.Constant.Evaluation
import MessageCatalog.Proofs.Binding.Inventory

/-!
# What expressions mean

`Denotes` is the meaning of expressions without any precaution against cycles: a name
means what the initial value of its constant means. Cycles need no rule, because a finite
derivation cannot go around one.

The meaning is also computed by looking up names to a certain depth, `valueAt`. Deeper
look-ups never change a value, and every derivation is found at some depth. This turns
derivations into numbers that can be compared, which is what the proof about the guard
rests on.
-/

namespace MessageCatalog

namespace Constant

open Syntax Binding

/-! ### Forms of expressions -/

/-- What an expression is to the evaluator. -/
inductive Shape where
  | literal (value : Value)
  | template (texts : List (Option String)) (substitutions : List Node)
  /-- Parentheses or a type annotation around an expression. -/
  | wrapped (inner : Node)
  | sum (left right : Node)
  | signed (operator : UnaryOperator) (operand : Node)
  | name (name : String)
  /-- Anything else. Its value is only known when the program runs. -/
  | dynamic

/-- The shape of an expression. -/
def shape : Node → Shape
  | .mk (.string s) _ _ => .literal (.text s)
  | .mk (.number x) _ _ => .literal (.number x)
  | .mk (.boolean b) _ _ => .literal (.boolean b)
  | .mk .null _ _ => .literal .null
  | .mk (.template texts) _ substitutions => .template texts substitutions
  | .mk .parenthesized _ [inner] => .wrapped inner
  | .mk .typed _ [inner] => .wrapped inner
  | .mk .plus _ [left, right] => .sum left right
  | .mk (.unary operator) _ [operand] => .signed operator operand
  | .mk (.identifier name) _ _ => .name name
  | _ => .dynamic

/-- The expressions that an expression is made of. -/
def Shape.parts : Shape → List Node
  | .literal _ => []
  | .template _ substitutions => substitutions
  | .wrapped inner => [inner]
  | .sum left right => [left, right]
  | .signed _ operand => [operand]
  | .name _ => []
  | .dynamic => []

theorem parts_shape_subset (e : Node) : (shape e).parts ⊆ e.children := by
  rw [shape.eq_def]
  split <;> simp [Shape.parts]

section Evaluation

variable {lookup : String → Option Value} {e : Node}

/-- The evaluator looks at the shape of an expression only. -/
theorem evaluateWith_eq (lookup : String → Option Value) (e : Node) :
    evaluateWith lookup e =
      match shape e with
      | .literal value => some value
      | .template texts substitutions =>
        (interleave texts (evaluateEach lookup substitutions)).map .text
      | .wrapped inner => evaluateWith lookup inner
      | .sum left right => (evaluateWith lookup left).bind fun a =>
        (evaluateWith lookup right).bind fun b => some (a.add b)
      | .signed operator operand => (evaluateWith lookup operand).bind (applyUnary operator)
      | .name name => lookup name
      | .dynamic => none := by
  rw [evaluateWith.eq_def, shape.eq_def]
  split <;> simp_all

theorem evaluateWith_literal {value : Value} (form : shape e = .literal value) :
    evaluateWith lookup e = some value := by
  rw [evaluateWith_eq, form]

theorem evaluateWith_template {texts : List (Option String)} {substitutions : List Node}
    (form : shape e = .template texts substitutions) :
    evaluateWith lookup e =
      (interleave texts (evaluateEach lookup substitutions)).map .text := by
  rw [evaluateWith_eq, form]

theorem evaluateWith_wrapped {inner : Node} (form : shape e = .wrapped inner) :
    evaluateWith lookup e = evaluateWith lookup inner := by
  rw [evaluateWith_eq, form]

theorem evaluateWith_sum {left right : Node} (form : shape e = .sum left right) :
    evaluateWith lookup e = (evaluateWith lookup left).bind fun a =>
      (evaluateWith lookup right).bind fun b => some (a.add b) := by
  rw [evaluateWith_eq, form]

theorem evaluateWith_signed {operator : UnaryOperator} {operand : Node}
    (form : shape e = .signed operator operand) :
    evaluateWith lookup e = (evaluateWith lookup operand).bind (applyUnary operator) := by
  rw [evaluateWith_eq, form]

theorem evaluateWith_name {name : String} (form : shape e = .name name) :
    evaluateWith lookup e = lookup name := by
  rw [evaluateWith_eq, form]

theorem evaluateWith_dynamic (form : shape e = .dynamic) : evaluateWith lookup e = none := by
  rw [evaluateWith_eq, form]

end Evaluation

section Induction

variable {motive : Node → Prop}

/-- What an expression inherits from the expressions it is made of holds of all. -/
theorem expression_induction (step : ∀ e, (∀ part ∈ (shape e).parts, motive part) → motive e)
    (e : Node) : motive e :=
  node_induction
    (fun e parts => step e fun part here => parts part (parts_shape_subset e here)) e

end Induction

/-! ### Meaning -/

mutual

/-- An expression means a value. -/
inductive Denotes (constants : Constants) : Node → Value → Prop
  | literal {e value} : shape e = .literal value → Denotes constants e value
  | template {e texts substitutions text} : shape e = .template texts substitutions →
      DenotesText constants texts substitutions text → Denotes constants e (.text text)
  | wrapped {e inner value} : shape e = .wrapped inner → Denotes constants inner value →
      Denotes constants e value
  | sum {e left right a b} : shape e = .sum left right → Denotes constants left a →
      Denotes constants right b → Denotes constants e (a.add b)
  | signed {e operator operand a value} : shape e = .signed operator operand →
      Denotes constants operand a → applyUnary operator a = some value →
      Denotes constants e value
  /-- The undefined value, if no constant has taken its name. -/
  | undefined {e} : shape e = .name undefinedName → constants.get? undefinedName = none →
      Denotes constants e .undefined
  | constant {e name initial value} : shape e = .name name →
      constants.get? name = some initial → Denotes constants initial value →
      Denotes constants e value

/-- The texts of a template and its substitutions mean a text. Every part has to mean
something; substitutions behind the last text do not belong to the template. -/
inductive DenotesText (constants : Constants) :
    List (Option String) → List Node → String → Prop
  | nil {substitutions} : DenotesText constants [] substitutions ""
  | last {text texts rest} : DenotesText constants texts [] rest →
      DenotesText constants (some text :: texts) [] (text ++ rest)
  | cons {text texts e value substitutions rest} : Denotes constants e value →
      DenotesText constants texts substitutions rest →
      DenotesText constants (some text :: texts) (e :: substitutions)
        (text ++ value.toText ++ rest)

end

/-! ### Looking up names to a depth -/

/-- What a name means if constants are followed to a certain depth. -/
def valueAt (constants : Constants) : Nat → String → Option Value
  | 0, _ => none
  | depth + 1, name =>
    match constants.get? name with
    | none => if name = undefinedName then some .undefined else none
    | some initial => evaluateWith (valueAt constants depth) initial

section Templates

variable {lookup : String → Option Value} {texts : List (Option String)} {text whole : String}
  {substitutions : List Node} {e : Node}

@[simp] theorem interleave_nil (values : List (Option Value)) :
    interleave [] values = some "" := by
  rw [interleave]

@[simp] theorem interleave_malformed (values : List (Option Value)) :
    interleave (none :: texts) values = none := by
  cases values <;> rfl

theorem interleave_last :
    interleave (some text :: texts) (evaluateEach lookup []) =
      (interleave texts (evaluateEach lookup [])).map (text ++ ·) := by
  rw [evaluateEach, interleave, Option.bind_eq_bind, Option.bind_some, Option.map_eq_bind]
  rfl

theorem interleave_cons :
    interleave (some text :: texts) (evaluateEach lookup (e :: substitutions)) =
      (evaluateWith lookup e).bind fun value =>
        (interleave texts (evaluateEach lookup substitutions)).map
          (text ++ value.toText ++ ·) := by
  rw [evaluateEach, interleave, Option.bind_eq_bind, Option.bind_some]
  refine Option.bind_congr fun value _ => ?_
  rw [Option.map_eq_bind]
  rfl

end Templates

/-- One way of looking up names knows everything that another one knows. -/
def Extends (lookup' lookup : String → Option Value) : Prop :=
  ∀ name value, lookup name = some value → lookup' name = some value

section Lookup

variable {lookup lookup' : String → Option Value} {constants : Constants}

theorem Extends.eq_none (more : Extends lookup' lookup) {name : String}
    (unknown : lookup' name = none) : lookup name = none := by
  cases known : lookup name with
  | none => rfl
  | some value =>
      rw [more name value known] at unknown
      exact absurd unknown (by simp)

theorem interleave_extends {substitutions : List Node}
    (each : ∀ e ∈ substitutions, ∀ value, evaluateWith lookup e = some value →
      evaluateWith lookup' e = some value) {texts : List (Option String)} {text : String}
    (known : interleave texts (evaluateEach lookup substitutions) = some text) :
    interleave texts (evaluateEach lookup' substitutions) = some text := by
  induction texts generalizing substitutions text with
  | nil => simpa using known
  | cons piece texts ih =>
      cases piece with
      | none => simp at known
      | some piece =>
          cases substitutions with
          | nil =>
              rw [interleave_last, Option.map_eq_some_iff] at known ⊢
              obtain ⟨rest, known, whole⟩ := known
              exact ⟨rest, ih (by simp) known, whole⟩
          | cons e substitutions =>
              rw [interleave_cons, Option.bind_eq_some_iff] at known ⊢
              obtain ⟨value, first, known⟩ := known
              rw [Option.map_eq_some_iff] at known
              obtain ⟨rest, known, whole⟩ := known
              refine ⟨value, each e List.mem_cons_self value first, ?_⟩
              rw [Option.map_eq_some_iff]
              exact ⟨rest, ih (fun e here => each e (List.mem_cons_of_mem _ here)) known, whole⟩

/-- Knowing more names does not change a value. -/
theorem evaluateWith_extends (more : Extends lookup' lookup) {e : Node} {value : Value}
    (known : evaluateWith lookup e = some value) : evaluateWith lookup' e = some value := by
  induction e using expression_induction generalizing value with
  | step e ih =>
      cases form : shape e with
      | literal =>
          rw [evaluateWith_literal form] at known ⊢
          exact known
      | template texts substitutions =>
          rw [evaluateWith_template form, Option.map_eq_some_iff] at known ⊢
          obtain ⟨text, known, whole⟩ := known
          exact ⟨text, interleave_extends
            (fun e here value => ih e (by simpa [form, Shape.parts] using here)) known, whole⟩
      | wrapped inner =>
          rw [evaluateWith_wrapped form] at known ⊢
          exact ih inner (by simp [form, Shape.parts]) known
      | sum left right =>
          simp only [evaluateWith_sum form, Option.bind_eq_some_iff] at known ⊢
          obtain ⟨a, first, b, second, whole⟩ := known
          exact ⟨a, ih left (by simp [form, Shape.parts]) first, b,
            ih right (by simp [form, Shape.parts]) second, whole⟩
      | signed operator operand =>
          rw [evaluateWith_signed form, Option.bind_eq_some_iff] at known ⊢
          obtain ⟨a, first, whole⟩ := known
          exact ⟨a, ih operand (by simp [form, Shape.parts]) first, whole⟩
      | name name =>
          rw [evaluateWith_name form] at known ⊢
          exact more name value known
      | dynamic =>
          rw [evaluateWith_dynamic form] at known
          exact absurd known (by simp)

theorem valueAt_succ_extends (depth : Nat) :
    Extends (valueAt constants (depth + 1)) (valueAt constants depth) := by
  induction depth with
  | zero =>
      intro name value known
      simp [valueAt] at known
  | succ depth ih =>
      intro name value known
      rw [valueAt] at known ⊢
      cases initial : constants.get? name with
      | none => simpa [initial] using known
      | some e =>
          simp only [initial] at known ⊢
          exact evaluateWith_extends ih known

/-- What is known at some depth is known at every greater depth. -/
theorem valueAt_extends {depth depth' : Nat} (deeper : depth ≤ depth') :
    Extends (valueAt constants depth') (valueAt constants depth) := by
  induction deeper with
  | refl => exact fun _ _ known => known
  | step _ ih =>
    exact fun name value known => valueAt_succ_extends _ name value (ih name value known)

end Lookup

/-! ### Derivations and depths -/

section Adequacy

variable {constants : Constants}

mutual

/-- Every derivation is found at some depth. -/
theorem Denotes.exists_depth {e : Node} {value : Value} : Denotes constants e value →
    ∃ depth, evaluateWith (valueAt constants depth) e = some value
  | .literal form => ⟨0, evaluateWith_literal form⟩
  | .template form parts => by
      obtain ⟨depth, known⟩ := parts.exists_depth
      exact ⟨depth, by rw [evaluateWith_template form, known, Option.map_some]⟩
  | .wrapped form inner => by
      obtain ⟨depth, known⟩ := inner.exists_depth
      exact ⟨depth, by rw [evaluateWith_wrapped form, known]⟩
  | .sum form first second => by
      obtain ⟨depth, known⟩ := first.exists_depth
      obtain ⟨depth', known'⟩ := second.exists_depth
      refine ⟨max depth depth', ?_⟩
      rw [evaluateWith_sum form,
        evaluateWith_extends (valueAt_extends (Nat.le_max_left depth depth')) known,
        evaluateWith_extends (valueAt_extends (Nat.le_max_right depth depth')) known',
        Option.bind_some, Option.bind_some]
  | .signed form operand applied => by
      obtain ⟨depth, known⟩ := operand.exists_depth
      exact ⟨depth, by rw [evaluateWith_signed form, known, Option.bind_some, applied]⟩
  | .undefined form missing => ⟨1, by simp [evaluateWith_name form, valueAt, missing]⟩
  | .constant form initial meaning => by
      obtain ⟨depth, known⟩ := meaning.exists_depth
      exact ⟨depth + 1, by simp only [evaluateWith_name form, valueAt, initial, known]⟩

theorem DenotesText.exists_depth {texts : List (Option String)} {substitutions : List Node}
    {text : String} : DenotesText constants texts substitutions text →
    ∃ depth, interleave texts (evaluateEach (valueAt constants depth) substitutions) = some text
  | .nil => ⟨0, interleave_nil _⟩
  | .last parts => by
      obtain ⟨depth, known⟩ := parts.exists_depth
      exact ⟨depth, by rw [interleave_last, known]; rfl⟩
  | .cons first parts => by
      obtain ⟨depth, known⟩ := first.exists_depth
      obtain ⟨depth', known'⟩ := parts.exists_depth
      refine ⟨max depth depth', ?_⟩
      rw [interleave_cons,
        evaluateWith_extends (valueAt_extends (Nat.le_max_left depth depth')) known,
        Option.bind_some, interleave_extends (fun e _ value => evaluateWith_extends
          (valueAt_extends (Nat.le_max_right depth depth'))) known']
      rfl

end

end Adequacy

end Constant

end MessageCatalog
