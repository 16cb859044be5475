import MessageCatalog.Proofs.Constant.Guard

/-!
# Ambiguous names

A name that turns out to be ambiguous takes its constant away. What becomes of the value of an
expression can be read off the derivation of the value it had: the derivation is still there if
it went through no initial value of that name, and otherwise no other derivation takes its
place. So an ambiguous name costs values, but it never changes one.

The name of the undefined value is the exception. It means something without a constant too.
-/

namespace MessageCatalog

namespace Constant

open Syntax Binding

/-! ### Derivations and the constants they use -/

mutual

/-- An expression means a value by way of the constants in a list: the names whose initial
values the derivation goes through, in the order of evaluation. -/
inductive Derives (constants : Constants) : Node → Value → List String → Prop
  | literal {e value} : shape e = .literal value → Derives constants e value []
  | template {e texts substitutions text used} : shape e = .template texts substitutions →
      DerivesText constants texts substitutions text used →
      Derives constants e (.text text) used
  | wrapped {e inner value used} : shape e = .wrapped inner →
      Derives constants inner value used → Derives constants e value used
  | sum {e left right a b used used'} : shape e = .sum left right →
      Derives constants left a used → Derives constants right b used' →
      Derives constants e (a.add b) (used ++ used')
  | signed {e operator operand a value used} : shape e = .signed operator operand →
      Derives constants operand a used → applyUnary operator a = some value →
      Derives constants e value used
  | undefined {e} : shape e = .name undefinedName → constants.get? undefinedName = none →
      Derives constants e .undefined []
  | constant {e name initial value used} : shape e = .name name →
      constants.get? name = some initial → Derives constants initial value used →
      Derives constants e value (name :: used)

/-- The texts of a template and its substitutions mean a text by way of some constants. -/
inductive DerivesText (constants : Constants) :
    List (Option String) → List Node → String → List String → Prop
  | nil {substitutions} : DerivesText constants [] substitutions "" []
  | last {text texts rest used} : DerivesText constants texts [] rest used →
      DerivesText constants (some text :: texts) [] (text ++ rest) used
  | cons {text texts e value substitutions rest used used'} :
      Derives constants e value used → DerivesText constants texts substitutions rest used' →
      DerivesText constants (some text :: texts) (e :: substitutions)
        (text ++ value.toText ++ rest) (used ++ used')

end

section Derivations

variable {constants : Constants}

mutual

theorem Derives.denotes {e : Node} {value : Value} {used : List String} :
    Derives constants e value used → Denotes constants e value
  | .literal form => .literal form
  | .template form parts => .template form parts.denotesText
  | .wrapped form inner => .wrapped form inner.denotes
  | .sum form first second => .sum form first.denotes second.denotes
  | .signed form operand applied => .signed form operand.denotes applied
  | .undefined form missing => .undefined form missing
  | .constant form usable initial => .constant form usable initial.denotes

theorem DerivesText.denotesText {texts : List (Option String)} {substitutions : List Node}
    {text : String} {used : List String} :
    DerivesText constants texts substitutions text used →
      DenotesText constants texts substitutions text
  | .nil => .nil
  | .last parts => .last parts.denotesText
  | .cons first parts => .cons first.denotes parts.denotesText

end

/-- What the last step of a derivation is, by the shape of the expression. -/
theorem Derives.inversion {e : Node} {value : Value} {used : List String}
    (derivation : Derives constants e value used) :
    match shape e with
    | .literal v => value = v ∧ used = []
    | .template texts substitutions =>
      ∃ text, value = .text text ∧ DerivesText constants texts substitutions text used
    | .wrapped inner => Derives constants inner value used
    | .sum left right => ∃ a b first second, Derives constants left a first ∧
        Derives constants right b second ∧ value = a.add b ∧ used = first ++ second
    | .signed operator operand =>
      ∃ a, Derives constants operand a used ∧ applyUnary operator a = some value
    | .name name => match constants.get? name with
      | none => value = .undefined ∧ used = []
      | some initial =>
        ∃ behind, Derives constants initial value behind ∧ used = name :: behind
    | .dynamic => False := by
  cases derivation with
  | literal form => rw [form]; exact ⟨rfl, rfl⟩
  | template form parts => rw [form]; exact ⟨_, rfl, parts⟩
  | wrapped form inner => rw [form]; exact inner
  | sum form first second => rw [form]; exact ⟨_, _, _, _, first, second, rfl, rfl⟩
  | signed form operand applied => rw [form]; exact ⟨_, operand, applied⟩
  | undefined form missing => simp [form, missing]
  | constant form usable initial => rw [form]; simp only [usable]; exact ⟨_, initial, rfl⟩

mutual

/-- An expression has one derivation at most. -/
theorem Derives.unique {e : Node} {value value' : Value} {used used' : List String} :
    Derives constants e value used → Derives constants e value' used' →
      value = value' ∧ used = used'
  | .literal form, other => by
      have last := other.inversion
      rw [form] at last
      exact ⟨last.1.symm, last.2.symm⟩
  | .template form parts, other => by
      have last := other.inversion
      rw [form] at last
      obtain ⟨text, rfl, parts'⟩ := last
      obtain ⟨rfl, rfl⟩ := parts.unique parts'
      exact ⟨rfl, rfl⟩
  | .wrapped form inner, other => by
      have last := other.inversion
      rw [form] at last
      exact inner.unique last
  | .sum form first second, other => by
      have last := other.inversion
      rw [form] at last
      obtain ⟨a, b, before, behind, first', second', rfl, rfl⟩ := last
      obtain ⟨rfl, rfl⟩ := first.unique first'
      obtain ⟨rfl, rfl⟩ := second.unique second'
      exact ⟨rfl, rfl⟩
  | .signed form operand applied, other => by
      have last := other.inversion
      rw [form] at last
      obtain ⟨a, operand', applied'⟩ := last
      obtain ⟨rfl, rfl⟩ := operand.unique operand'
      exact ⟨Option.some.inj (applied.symm.trans applied'), rfl⟩
  | .undefined form missing, other => by
      have last := other.inversion
      rw [form] at last
      simp only [missing] at last
      exact ⟨last.1.symm, last.2.symm⟩
  | .constant form usable initial, other => by
      have last := other.inversion
      rw [form] at last
      simp only [usable] at last
      obtain ⟨behind, initial', rfl⟩ := last
      obtain ⟨rfl, rfl⟩ := initial.unique initial'
      exact ⟨rfl, rfl⟩

theorem DerivesText.unique {texts : List (Option String)} {substitutions : List Node}
    {text text' : String} {used used' : List String} :
    DerivesText constants texts substitutions text used →
      DerivesText constants texts substitutions text' used' → text = text' ∧ used = used'
  | .nil, other => by cases other; exact ⟨rfl, rfl⟩
  | .last parts, other => by
      cases other with
      | last parts' =>
        obtain ⟨rfl, rfl⟩ := parts.unique parts'
        exact ⟨rfl, rfl⟩
  | .cons first parts, other => by
      cases other with
      | cons first' parts' =>
        obtain ⟨rfl, rfl⟩ := first.unique first'
        obtain ⟨rfl, rfl⟩ := parts.unique parts'
        exact ⟨rfl, rfl⟩

end

end Derivations

/-! ### Fewer constants -/

/-- Whether a table of constants is what is left of another one: each of its constants is one of
the other's, with a name of a certain kind, and the undefined value has kept its name. -/
structure Remains (fewer constants : Constants) (kind : String → Prop) : Prop where
  usable : ∀ name initial, fewer.get? name = some initial →
    constants.get? name = some initial ∧ kind name
  undefined : fewer.get? undefinedName = none → constants.get? undefinedName = none

section Fewer

variable {fewer constants : Constants} {kind : String → Prop} {name : String}

theorem Remains.refl (constants : Constants) : Remains constants constants fun _ => True :=
  ⟨fun _ _ usable => ⟨usable, trivial⟩, id⟩

theorem remains_obscure (constants : Constants) (ordinary : name ≠ undefinedName) :
    Remains (constants.obscure name) constants (· ≠ name) := by
  refine ⟨fun other initial usable => ?_, fun missing => ?_⟩
  · rw [Constants.get?_obscure] at usable
    split at usable
    · contradiction
    · exact ⟨usable, ‹_›⟩
  · rwa [Constants.get?_obscure, if_neg (Ne.symm ordinary)] at missing

mutual

/-- What fewer constants give a meaning has that meaning, by way of these constants. -/
theorem Denotes.exists_derives {e : Node} {value : Value}
    (remains : Remains fewer constants kind) : Denotes fewer e value →
      ∃ used, Derives constants e value used ∧ ∀ name ∈ used, kind name
  | .literal form => ⟨[], .literal form, List.forall_mem_nil _⟩
  | .template form parts => by
      obtain ⟨used, derivation, kept⟩ := parts.exists_derives remains
      exact ⟨used, .template form derivation, kept⟩
  | .wrapped form inner => by
      obtain ⟨used, derivation, kept⟩ := inner.exists_derives remains
      exact ⟨used, .wrapped form derivation, kept⟩
  | .sum form first second => by
      obtain ⟨before, left, kept⟩ := first.exists_derives remains
      obtain ⟨behind, right, kept'⟩ := second.exists_derives remains
      exact ⟨before ++ behind, .sum form left right, List.forall_mem_append.mpr ⟨kept, kept'⟩⟩
  | .signed form operand applied => by
      obtain ⟨used, derivation, kept⟩ := operand.exists_derives remains
      exact ⟨used, .signed form derivation applied, kept⟩
  | .undefined form missing =>
      ⟨[], .undefined form (remains.undefined missing), List.forall_mem_nil _⟩
  | .constant form usable initial => by
      obtain ⟨used, derivation, kept⟩ := initial.exists_derives remains
      obtain ⟨usable, fit⟩ := remains.usable _ _ usable
      exact ⟨_ :: used, .constant form usable derivation, List.forall_mem_cons.mpr ⟨fit, kept⟩⟩

theorem DenotesText.exists_derives {texts : List (Option String)} {substitutions : List Node}
    {text : String} (remains : Remains fewer constants kind) :
    DenotesText fewer texts substitutions text →
      ∃ used, DerivesText constants texts substitutions text used ∧ ∀ name ∈ used, kind name
  | .nil => ⟨[], .nil, List.forall_mem_nil _⟩
  | .last parts => by
      obtain ⟨used, derivation, kept⟩ := parts.exists_derives remains
      exact ⟨used, .last derivation, kept⟩
  | .cons first parts => by
      obtain ⟨before, own, kept⟩ := first.exists_derives remains
      obtain ⟨behind, derivation, kept'⟩ := parts.exists_derives remains
      exact ⟨before ++ behind, .cons own derivation, List.forall_mem_append.mpr ⟨kept, kept'⟩⟩

end

mutual

/-- A derivation that does not use a constant does without it. -/
theorem Derives.obscure {e : Node} {value : Value} {used : List String}
    (spared : name ∉ used) :
    Derives constants e value used → Denotes (constants.obscure name) e value
  | .literal form => .literal form
  | .template form parts => .template form (parts.obscure spared)
  | .wrapped form inner => .wrapped form (inner.obscure spared)
  | .sum form first second =>
      .sum form (first.obscure fun here => spared (List.mem_append_left _ here))
        (second.obscure fun here => spared (List.mem_append_right _ here))
  | .signed form operand applied => .signed form (operand.obscure spared) applied
  | .undefined form missing => .undefined form (by simp [missing])
  | .constant form usable initial => by
      rw [List.mem_cons, not_or] at spared
      obtain ⟨distinct, spared⟩ := spared
      refine .constant form ?_ (initial.obscure spared)
      rw [Constants.get?_obscure, if_neg (Ne.symm distinct), usable]

theorem DerivesText.obscure {texts : List (Option String)} {substitutions : List Node}
    {text : String} {used : List String} (spared : name ∉ used) :
    DerivesText constants texts substitutions text used →
      DenotesText (constants.obscure name) texts substitutions text
  | .nil => .nil
  | .last parts => .last (parts.obscure spared)
  | .cons first parts =>
      .cons (first.obscure fun here => spared (List.mem_append_left _ here))
        (parts.obscure fun here => spared (List.mem_append_right _ here))

end

/-- Every value of the evaluator is derived. -/
theorem evaluate_eq_some_iff_derives {e : Node} {value : Value} :
    evaluate constants e = some value ↔ ∃ used, Derives constants e value used := by
  rw [evaluate_eq_some_iff]
  constructor
  · intro meaning
    obtain ⟨used, derivation, -⟩ := meaning.exists_derives (.refl constants)
    exact ⟨used, derivation⟩
  · rintro ⟨used, derivation⟩
    exact derivation.denotes

/-- A value that is left without a constant is derived without using the constant. -/
theorem exists_derives_of_obscure {e : Node} {value : Value} (ordinary : name ≠ undefinedName)
    (left : evaluate (constants.obscure name) e = some value) :
    ∃ used, Derives constants e value used ∧ name ∉ used := by
  obtain ⟨used, derivation, kept⟩ :=
    (evaluate_eq_some_iff.mp left).exists_derives (remains_obscure constants ordinary)
  exact ⟨used, derivation, fun here => kept name here rfl⟩

end Fewer

/-- Once a name is ambiguous, every expression keeps the value that it had or has none. Which of
the two is decided by the derivation of the value: the expression has no value any more exactly
if the derivation uses the initial value of the name. -/
theorem ambiguity_keeps_or_loses (constants : Constants) {name : String}
    (ordinary : name ≠ undefinedName) (e : Node) :
    (evaluate (constants.obscure name) e = none ∨
      evaluate (constants.obscure name) e = evaluate constants e) ∧
    (∀ value, evaluate constants e = some value ↔ ∃ used, Derives constants e value used) ∧
    ∀ value used, Derives constants e value used →
      evaluate (constants.obscure name) e = if name ∈ used then none else some value := by
  refine ⟨?_, fun value => evaluate_eq_some_iff_derives, fun value used derivation => ?_⟩
  · cases left : evaluate (constants.obscure name) e with
    | none => exact .inl rfl
    | some value =>
      obtain ⟨used, derivation, -⟩ := exists_derives_of_obscure ordinary left
      exact .inr (evaluate_eq_some_iff_derives.mpr ⟨used, derivation⟩).symm
  · split
    · rename_i consulted
      rw [Option.eq_none_iff_forall_ne_some]
      intro value' left
      obtain ⟨used', derivation', spared⟩ := exists_derives_of_obscure ordinary left
      exact spared ((derivation.unique derivation').2 ▸ consulted)
    · rename_i spared
      exact evaluate_eq_some_iff.mpr (derivation.obscure spared)

/-- An expression that is one name. -/
def nameNode (name : String) : Node :=
  .mk (.identifier name) ⟨0, 0⟩ []

/-- A constant in two parts, one of which is a constant itself. -/
def joinedConstants : Constants :=
  ⟨[("whole", .mk .plus ⟨0, 0⟩ [nameNode "half", .mk (.string "b") ⟨0, 0⟩ []]),
    ("half", .mk (.string "a") ⟨0, 0⟩ [])], []⟩

theorem derives_half : Derives joinedConstants (nameNode "half") (.text "a") ["half"] :=
  .constant rfl rfl (.literal rfl)

theorem derives_whole :
    Derives joinedConstants (nameNode "whole") (.text "ab") ["whole", "half"] := by
  have second : Derives joinedConstants (.mk (.string "b") ⟨0, 0⟩ []) (.text "b") [] := .literal rfl
  have sum : Derives joinedConstants
      (.mk .plus ⟨0, 0⟩ [nameNode "half", .mk (.string "b") ⟨0, 0⟩ []]) _ _ :=
    .sum rfl derives_half second
  exact .constant rfl rfl sum

/-- The whole is lost with its half, and the half stays without the whole. -/
theorem ambiguity_keeps_or_loses_half :
    "half" ≠ undefinedName ∧ "whole" ≠ undefinedName ∧
      evaluate joinedConstants (nameNode "whole") = some (.text "ab") ∧
      evaluate (joinedConstants.obscure "half") (nameNode "whole") = none ∧
      evaluate (joinedConstants.obscure "whole") (nameNode "half") = some (.text "a") := by
  have ordinary : "half" ≠ undefinedName := by decide
  have ordinary' : "whole" ≠ undefinedName := by decide
  have lost := (ambiguity_keeps_or_loses joinedConstants ordinary (nameNode "whole")).2
  have kept := (ambiguity_keeps_or_loses joinedConstants ordinary' (nameNode "half")).2.2
    _ _ derives_half
  exact ⟨ordinary, ordinary', (lost.1 _).mpr ⟨_, derives_whole⟩, lost.2 _ _ derives_whole, kept⟩

end Constant

end MessageCatalog
