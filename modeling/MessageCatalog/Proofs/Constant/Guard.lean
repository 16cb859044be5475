import MessageCatalog.Proofs.Constant.Meaning

/-!
# The guard against cycles

`Runs` describes evaluation as it happens, step by step: the names that are being resolved
are a set that is changed on the way, a name that is already in it has no value, and the
first part without a value ends the evaluation of what contains it. A run is a finite
tree, so that there is one says that evaluation ends.

The runs turn out to be well behaved. Every evaluation ends in exactly one way, with the
set as it was before. And although the guard refuses names, it refuses no value: the
shallowest derivation of a value never meets a name inside itself.
-/

namespace MessageCatalog

namespace Constant

open Syntax Binding

/-! ### Runs -/

mutual

/-- Evaluating an expression while the names in the first list are being resolved gives a
result, or none, and leaves the names in the second list. -/
inductive Runs (constants : Constants) :
    List String → Node → Option Value → List String → Prop
  | literal {resolving e value} : shape e = .literal value →
      Runs constants resolving e (some value) resolving
  | template {before e texts substitutions result after} :
      shape e = .template texts substitutions →
      RunsText constants before texts substitutions result after →
      Runs constants before e (result.map .text) after
  | wrapped {before e inner result after} : shape e = .wrapped inner →
      Runs constants before inner result after → Runs constants before e result after
  | sumStopped {before e left right after} : shape e = .sum left right →
      Runs constants before left none after → Runs constants before e none after
  | sumUnfinished {before e left right a between after} : shape e = .sum left right →
      Runs constants before left (some a) between → Runs constants between right none after →
      Runs constants before e none after
  | sum {before e left right a b between after} : shape e = .sum left right →
      Runs constants before left (some a) between →
      Runs constants between right (some b) after →
      Runs constants before e (some (a.add b)) after
  | signedStopped {before e operator operand after} : shape e = .signed operator operand →
      Runs constants before operand none after → Runs constants before e none after
  | signed {before e operator operand a after} : shape e = .signed operator operand →
      Runs constants before operand (some a) after →
      Runs constants before e (applyUnary operator a) after
  | undefined {resolving e} : shape e = .name undefinedName →
      constants.get? undefinedName = none →
      Runs constants resolving e (some .undefined) resolving
  | unknown {resolving e name} : shape e = .name name → name ≠ undefinedName →
      constants.get? name = none → Runs constants resolving e none resolving
  /-- The name is being resolved already. -/
  | cycle {resolving e name initial} : shape e = .name name →
      constants.get? name = some initial → name ∈ resolving →
      Runs constants resolving e none resolving
  /-- The name is added while the initial value is evaluated, and removed afterwards, with
  or without a result. -/
  | constant {before e name initial result after} : shape e = .name name →
      constants.get? name = some initial → name ∉ before →
      Runs constants (name :: before) initial result after →
      Runs constants before e result (after.erase name)
  | dynamic {resolving e} : shape e = .dynamic → Runs constants resolving e none resolving

/-- Evaluating the substitutions of a template and joining them to its texts. -/
inductive RunsText (constants : Constants) : List String → List (Option String) → List Node →
    Option String → List String → Prop
  | nil {resolving substitutions} :
      RunsText constants resolving [] substitutions (some "") resolving
  | malformed {resolving texts substitutions} :
      RunsText constants resolving (none :: texts) substitutions none resolving
  | last {before text texts result after} : RunsText constants before texts [] result after →
      RunsText constants before (some text :: texts) [] (result.map (text ++ ·)) after
  | stopped {before text texts e substitutions after} : Runs constants before e none after →
      RunsText constants before (some text :: texts) (e :: substitutions) none after
  | cons {before text texts e value substitutions between result after} :
      Runs constants before e (some value) between →
      RunsText constants between texts substitutions result after →
      RunsText constants before (some text :: texts) (e :: substitutions)
        (result.map (text ++ value.toText ++ ·)) after

end

/-! ### Names that can still be resolved -/

/-- The number of constants whose names are not being resolved. -/
def available (constants : Constants) (resolving : List String) : Nat :=
  (constants.values.filter fun entry => !resolving.contains entry.1).length

section Available

variable {constants : Constants} {resolving : List String} {name : String} {initial : Node}

theorem available_nil : available constants [] = constants.size := by
  simp [available, Constants.size]

/-- Resolving a constant leaves fewer names for the way on. -/
theorem available_cons_lt (usable : constants.get? name = some initial)
    (fresh : name ∉ resolving) :
    available constants (name :: resolving) < available constants resolving := by
  have entry : (name, initial) ∈ constants.values := by
    rw [Constants.get?] at usable
    split at usable
    · exact absurd usable (by simp)
    · obtain ⟨before, after, whole, -⟩ := List.lookup_eq_some_iff.mp usable
      simp [whole]
  have narrower : (constants.values.filter fun entry => !(name :: resolving).contains entry.1) =
      (constants.values.filter fun entry => !resolving.contains entry.1).filter
        (fun entry => entry.1 != name) := by
    rw [List.filter_filter]
    refine List.filter_congr fun entry _ => ?_
    by_cases same : entry.1 = name <;> simp [same]
  rw [available, available, narrower, List.length_filter_lt_length_iff_exists]
  exact ⟨(name, initial), List.mem_filter.mpr ⟨entry, by simpa using fresh⟩, by simp⟩

end Available

/-! ### Every evaluation ends, as it began -/

section Outcome

variable {constants : Constants}

theorem resolve_unknown {depth : Nat} {resolving : List String} {name : String}
    (missing : constants.get? name = none) :
    resolve constants (depth + 1) resolving name =
      if name = undefinedName then some .undefined else none := by
  rw [resolve, missing]

theorem resolve_cycle {depth : Nat} {resolving : List String} {name : String} {initial : Node}
    (usable : constants.get? name = some initial) (again : name ∈ resolving) :
    resolve constants (depth + 1) resolving name = none := by
  simp [resolve, usable, again]

theorem resolve_constant {depth : Nat} {resolving : List String} {name : String}
    {initial : Node} (usable : constants.get? name = some initial) (fresh : name ∉ resolving) :
    resolve constants (depth + 1) resolving name =
      evaluateWith (resolve constants depth (name :: resolving)) initial := by
  simp [resolve, usable, fresh]

mutual

/-- A run leaves the names as they were, and its result is that of the evaluator, whatever
bound on the depth it is given, if only the bound suffices. -/
theorem Runs.outcome {before after : List String} {e : Node} {result : Option Value}
    {depth : Nat} (enough : available constants before < depth) :
    Runs constants before e result after →
      result = evaluateWith (resolve constants depth before) e ∧ after = before
  | .literal form => ⟨(evaluateWith_literal form).symm, rfl⟩
  | .template form parts => by
      obtain ⟨rfl, rfl⟩ := parts.outcome enough
      exact ⟨(evaluateWith_template form).symm, rfl⟩
  | .wrapped form inner => by
      obtain ⟨rfl, rfl⟩ := inner.outcome enough
      exact ⟨(evaluateWith_wrapped form).symm, rfl⟩
  | .sumStopped form left => by
      obtain ⟨first, rfl⟩ := left.outcome enough
      exact ⟨by rw [evaluateWith_sum form, ← first, Option.bind_none], rfl⟩
  | .sumUnfinished form left right => by
      obtain ⟨first, rfl⟩ := left.outcome enough
      obtain ⟨second, rfl⟩ := right.outcome enough
      refine ⟨?_, rfl⟩
      rw [evaluateWith_sum form, ← first, ← second, Option.bind_some, Option.bind_none]
  | .sum form left right => by
      obtain ⟨first, rfl⟩ := left.outcome enough
      obtain ⟨second, rfl⟩ := right.outcome enough
      refine ⟨?_, rfl⟩
      rw [evaluateWith_sum form, ← first, ← second, Option.bind_some, Option.bind_some]
  | .signedStopped form operand => by
      obtain ⟨inside, rfl⟩ := operand.outcome enough
      exact ⟨by rw [evaluateWith_signed form, ← inside, Option.bind_none], rfl⟩
  | .signed form operand => by
      obtain ⟨inside, rfl⟩ := operand.outcome enough
      exact ⟨by rw [evaluateWith_signed form, ← inside, Option.bind_some], rfl⟩
  | .undefined form missing => by
      obtain ⟨depth, rfl⟩ := Nat.exists_eq_add_one_of_ne_zero (Nat.ne_zero_of_lt enough)
      exact ⟨by rw [evaluateWith_name form, resolve_unknown missing, if_pos rfl], rfl⟩
  | .unknown form other missing => by
      obtain ⟨depth, rfl⟩ := Nat.exists_eq_add_one_of_ne_zero (Nat.ne_zero_of_lt enough)
      exact ⟨by rw [evaluateWith_name form, resolve_unknown missing, if_neg other], rfl⟩
  | .cycle form usable again => by
      obtain ⟨depth, rfl⟩ := Nat.exists_eq_add_one_of_ne_zero (Nat.ne_zero_of_lt enough)
      exact ⟨by rw [evaluateWith_name form, resolve_cycle usable again], rfl⟩
  | .constant form usable fresh inner => by
      obtain ⟨depth, rfl⟩ := Nat.exists_eq_add_one_of_ne_zero (Nat.ne_zero_of_lt enough)
      obtain ⟨inside, rfl⟩ := inner.outcome
        (Nat.lt_of_lt_of_le (available_cons_lt usable fresh) (Nat.le_of_lt_succ enough))
      refine ⟨?_, List.erase_cons_head _ _⟩
      rw [evaluateWith_name form, resolve_constant usable fresh]
      exact inside
  | .dynamic form => ⟨(evaluateWith_dynamic form).symm, rfl⟩

theorem RunsText.outcome {before after : List String} {texts : List (Option String)}
    {substitutions : List Node} {result : Option String} {depth : Nat}
    (enough : available constants before < depth) :
    RunsText constants before texts substitutions result after →
      result = interleave texts (evaluateEach (resolve constants depth before) substitutions) ∧
        after = before
  | .nil => ⟨(interleave_nil _).symm, rfl⟩
  | .malformed => ⟨(interleave_malformed _).symm, rfl⟩
  | .last parts => by
      obtain ⟨rfl, rfl⟩ := parts.outcome enough
      exact ⟨interleave_last.symm, rfl⟩
  | .stopped first => by
      obtain ⟨inside, rfl⟩ := first.outcome enough
      exact ⟨by rw [interleave_cons, ← inside, Option.bind_none], rfl⟩
  | .cons first parts => by
      obtain ⟨inside, rfl⟩ := first.outcome enough
      obtain ⟨rfl, rfl⟩ := parts.outcome enough
      exact ⟨by rw [interleave_cons, ← inside, Option.bind_some], rfl⟩

end

theorem exists_runsText {resolving : List String} {substitutions : List Node}
    (each : ∀ e ∈ substitutions, ∃ result, Runs constants resolving e result resolving)
    (texts : List (Option String)) :
    ∃ result, RunsText constants resolving texts substitutions result resolving := by
  induction texts generalizing substitutions with
  | nil => exact ⟨_, .nil⟩
  | cons piece texts ih =>
      cases piece with
      | none => exact ⟨_, .malformed⟩
      | some piece =>
          cases substitutions with
          | nil =>
              obtain ⟨result, parts⟩ := ih each
              exact ⟨_, .last parts⟩
          | cons e substitutions =>
              obtain ⟨first, run⟩ := each e List.mem_cons_self
              obtain ⟨result, parts⟩ := ih fun e here => each e (List.mem_cons_of_mem _ here)
              cases first with
              | none => exact ⟨_, .stopped run⟩
              | some value => exact ⟨_, .cons run parts⟩

/-- Evaluation ends. From an expression to its parts the names stay the same; from a name
to its initial value there is one name less to resolve. -/
theorem exists_runs {depth : Nat} {resolving : List String}
    (enough : available constants resolving < depth) (e : Node) :
    ∃ result, Runs constants resolving e result resolving := by
  induction depth generalizing resolving e with
  | zero => exact absurd enough (Nat.not_lt_zero _)
  | succ depth deeper =>
      induction e using expression_induction with
      | step e ih =>
          cases form : shape e with
          | literal => exact ⟨_, .literal form⟩
          | template texts substitutions =>
              obtain ⟨result, parts⟩ := exists_runsText
                (fun e here => ih e (by simpa [form, Shape.parts] using here)) texts
              exact ⟨_, .template form parts⟩
          | wrapped inner =>
              obtain ⟨result, run⟩ := ih inner (by simp [form, Shape.parts])
              exact ⟨result, .wrapped form run⟩
          | sum left right =>
              obtain ⟨first, run⟩ := ih left (by simp [form, Shape.parts])
              obtain ⟨second, run'⟩ := ih right (by simp [form, Shape.parts])
              cases first with
              | none => exact ⟨none, .sumStopped form run⟩
              | some a =>
                  cases second with
                  | none => exact ⟨none, .sumUnfinished form run run'⟩
                  | some b => exact ⟨_, .sum form run run'⟩
          | signed operator operand =>
              obtain ⟨inside, run⟩ := ih operand (by simp [form, Shape.parts])
              cases inside with
              | none => exact ⟨none, .signedStopped form run⟩
              | some a => exact ⟨_, .signed form run⟩
          | name name =>
              cases usable : constants.get? name with
              | none =>
                  by_cases same : name = undefinedName
                  · subst same
                    exact ⟨_, .undefined form usable⟩
                  · exact ⟨none, .unknown form same usable⟩
              | some initial =>
                  by_cases again : name ∈ resolving
                  · exact ⟨none, .cycle form usable again⟩
                  · obtain ⟨result, run⟩ := deeper (Nat.lt_of_lt_of_le
                      (available_cons_lt usable again) (Nat.le_of_lt_succ enough)) initial
                    have whole := Runs.constant form usable again run
                    rw [List.erase_cons_head] at whole
                    exact ⟨result, whole⟩
          | dynamic => exact ⟨none, .dynamic form⟩

/-- Every evaluation has exactly one outcome, and the names are afterwards as before. -/
theorem runs_iff {resolving after : List String} {depth : Nat}
    (enough : available constants resolving < depth) {e : Node} {result : Option Value} :
    Runs constants resolving e result after ↔
      result = evaluateWith (resolve constants depth resolving) e ∧ after = resolving := by
  constructor
  · exact Runs.outcome enough
  · rintro ⟨rfl, rfl⟩
    obtain ⟨result, run⟩ := exists_runs enough e
    rw [← (run.outcome enough).1]
    exact run

end Outcome

/-! ### The guard refuses no value -/

section Guard

variable {constants : Constants}

theorem denotesText_of_interleave {lookup : String → Option Value} {substitutions : List Node}
    (each : ∀ e ∈ substitutions, ∀ value, evaluateWith lookup e = some value →
      Denotes constants e value) {texts : List (Option String)} {text : String}
    (known : interleave texts (evaluateEach lookup substitutions) = some text) :
    DenotesText constants texts substitutions text := by
  induction texts generalizing substitutions text with
  | nil =>
      obtain rfl : "" = text := by simpa using known
      exact .nil
  | cons piece texts ih =>
      cases piece with
      | none => simp at known
      | some piece =>
          cases substitutions with
          | nil =>
              rw [interleave_last, Option.map_eq_some_iff] at known
              obtain ⟨rest, known, rfl⟩ := known
              exact .last (ih each known)
          | cons e substitutions =>
              rw [interleave_cons, Option.bind_eq_some_iff] at known
              obtain ⟨value, first, known⟩ := known
              rw [Option.map_eq_some_iff] at known
              obtain ⟨rest, known, rfl⟩ := known
              exact .cons (each e List.mem_cons_self value first)
                (ih (fun e here => each e (List.mem_cons_of_mem _ here)) known)

/-- If the values of names are right, so are those of expressions. -/
theorem denotes_of_evaluateWith {lookup : String → Option Value}
    (names : ∀ e name value, shape e = .name name → lookup name = some value →
      Denotes constants e value) {e : Node} {value : Value}
    (known : evaluateWith lookup e = some value) : Denotes constants e value := by
  induction e using expression_induction generalizing value with
  | step e ih =>
      cases form : shape e with
      | literal v =>
          obtain rfl : v = value := by simpa [evaluateWith_literal form] using known
          exact .literal form
      | template texts substitutions =>
          rw [evaluateWith_template form, Option.map_eq_some_iff] at known
          obtain ⟨text, known, rfl⟩ := known
          exact .template form (denotesText_of_interleave
            (fun e here value => ih e (by simpa [form, Shape.parts] using here)) known)
      | wrapped inner =>
          rw [evaluateWith_wrapped form] at known
          exact .wrapped form (ih inner (by simp [form, Shape.parts]) known)
      | sum left right =>
          simp only [evaluateWith_sum form, Option.bind_eq_some_iff, Option.some.injEq] at known
          obtain ⟨a, first, b, second, rfl⟩ := known
          exact .sum form (ih left (by simp [form, Shape.parts]) first)
            (ih right (by simp [form, Shape.parts]) second)
      | signed operator operand =>
          rw [evaluateWith_signed form, Option.bind_eq_some_iff] at known
          obtain ⟨a, inside, applied⟩ := known
          exact .signed form (ih operand (by simp [form, Shape.parts]) inside) applied
      | name name =>
          rw [evaluateWith_name form] at known
          exact names e name value form known
      | dynamic =>
          rw [evaluateWith_dynamic form] at known
          exact absurd known (by simp)

/-- The guard invents no value. -/
theorem denotes_of_resolve {depth : Nat} {resolving : List String} {e : Node} {name : String}
    {value : Value} (form : shape e = .name name)
    (known : resolve constants depth resolving name = some value) :
    Denotes constants e value := by
  induction depth generalizing resolving e name value with
  | zero => exact absurd known (by simp [resolve])
  | succ depth ih =>
      cases usable : constants.get? name with
      | none =>
          rw [resolve_unknown usable] at known
          split at known
          · rename_i same
            subst same
            obtain rfl := Option.some.inj known
            exact .undefined form usable
          · exact absurd known (by simp)
      | some initial =>
          by_cases again : name ∈ resolving
          · rw [resolve_cycle usable again] at known
            exact absurd known (by simp)
          · rw [resolve_constant usable again] at known
            exact .constant form usable (denotes_of_evaluateWith (fun _ _ _ form => ih form) known)

/-- What is known at some depth has a smallest depth at which it is known. -/
theorem exists_least_depth {depth : Nat} {name : String} {value : Value}
    (known : valueAt constants depth name = some value) :
    ∃ least, least < depth ∧ valueAt constants least name = none ∧
      valueAt constants (least + 1) name = some value := by
  induction depth with
  | zero => exact absurd known (by simp [valueAt])
  | succ depth ih =>
      cases before : valueAt constants depth name with
      | none => exact ⟨depth, Nat.lt_succ_self depth, before, known⟩
      | some value' =>
          have same := valueAt_succ_extends depth name value' before
          rw [known] at same
          obtain ⟨least, smaller, unknown, first⟩ := ih (same ▸ before)
          exact ⟨least, Nat.lt_succ_of_lt smaller, unknown, first⟩

/-- The guard loses no value: at the smallest depth that gives a name its value, the names
on the way, this one included, have no value yet, so none of them is needed again. -/
theorem resolve_of_valueAt {depth bound : Nat} {resolving : List String} {name : String}
    {value : Value} (enough : available constants resolving < bound)
    (unknown : ∀ other ∈ resolving, valueAt constants depth other = none)
    (known : valueAt constants depth name = some value) :
    resolve constants bound resolving name = some value := by
  induction depth using Nat.strongRecOn generalizing bound resolving name value with
  | ind depth ih =>
      obtain ⟨bound, rfl⟩ := Nat.exists_eq_add_one_of_ne_zero (Nat.ne_zero_of_lt enough)
      obtain ⟨least, smaller, before, first⟩ := exists_least_depth known
      have fresh : name ∉ resolving := by
        intro again
        rw [unknown name again] at known
        exact absurd known (by simp)
      rw [valueAt] at first
      cases usable : constants.get? name with
      | none =>
          rw [resolve_unknown usable]
          simpa [usable] using first
      | some initial =>
          simp only [usable] at first
          rw [resolve_constant usable fresh]
          refine evaluateWith_extends (fun other value' found => ?_) first
          refine ih least smaller (Nat.lt_of_lt_of_le (available_cons_lt usable fresh)
            (Nat.le_of_lt_succ enough)) (fun other here => ?_) found
          rcases List.mem_cons.mp here with rfl | here
          · exact before
          · exact (valueAt_extends (Nat.le_of_lt smaller)).eq_none (unknown other here)

/-- The evaluator gives an expression the value that it means. -/
theorem evaluate_eq_some_iff {e : Node} {value : Value} :
    evaluate constants e = some value ↔ Denotes constants e value := by
  constructor
  · exact denotes_of_evaluateWith fun _ _ _ form => denotes_of_resolve form
  · intro meaning
    obtain ⟨depth, known⟩ := meaning.exists_depth
    refine evaluateWith_extends (fun name value found => ?_) known
    refine resolve_of_valueAt ?_ (fun other here => absurd here List.not_mem_nil) found
    rw [available_nil]
    exact Nat.lt_succ_self _

/-- Evaluation with the guard is evaluation without it. Whatever the constants are and
whichever names are being resolved, evaluating an expression ends in one way and leaves
those names as they were; started with none, it ends with what the evaluator returns; and
this is a value exactly if the expression means the value. -/
theorem guarded_evaluation (constants : Constants) (e : Node) :
    (∀ resolving, ∃ result, ∀ result' after,
      Runs constants resolving e result' after ↔ result' = result ∧ after = resolving) ∧
    (∀ result after,
      Runs constants [] e result after ↔ result = evaluate constants e ∧ after = []) ∧
    ∀ value, evaluate constants e = some value ↔ Denotes constants e value := by
  refine ⟨fun resolving => ⟨_, fun _ _ => runs_iff (Nat.lt_succ_self _)⟩, fun _ _ => ?_,
    fun _ => evaluate_eq_some_iff⟩
  exact runs_iff (by rw [available_nil]; exact Nat.lt_succ_self _)

/-- A constant that is used twice is not a cycle, because its name is removed again. -/
example :
    let name (text : String) := Node.mk (.identifier text) ⟨0, 0⟩ []
    let constants : Constants :=
      ⟨[("whole", .mk .plus ⟨0, 0⟩ [name "half", name "half"]),
        ("half", .mk (.string "a") ⟨0, 0⟩ [])], []⟩
    evaluate constants (name "whole") = some (.text "aa") := by
  rfl

end Guard

end Constant

end MessageCatalog
