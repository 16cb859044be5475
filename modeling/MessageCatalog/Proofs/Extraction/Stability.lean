import MessageCatalog.Proofs.Constant.Meaning
import MessageCatalog.Proofs.Descriptor.Undescribed
import MessageCatalog.Proofs.Extraction.Drafts

/-!
# What a walk does not change

The evaluator of constants has no value for opening tags and calls, and elsewhere it looks
at forms and at the values of parts. So it does not see the difference between an
expression and what a walk leaves of it. It follows that keys and holders keep their
values, and that the drafts made from what is left resolve to the same content.

What a walk does change are descriptions. The properties and attributes that stay make the
draft without its description.
-/

namespace MessageCatalog

namespace Extraction

open Descriptor Syntax

/-- The evaluator gives the same values to expressions and to what a walk leaves of them. -/
def Stable (evaluator : Evaluator) : Prop :=
  ∀ {nodes nodes'}, Leaves nodes nodes' → nodes'.map evaluator = nodes.map evaluator

/-- The holders hold the same value, in the same manner and place. -/
structure SameValue (evaluator : Evaluator) (holder holder' : Holder) : Prop where
  value : holder'.value evaluator = holder.value evaluator
  raw : holder'.isRawString = holder.isRawString
  place : holder'.place = holder.place

/-! ### Constants -/

section Constants

open Constant

variable {lookup : String → Option Value} {nodes nodes' : List Node}

/-- The value of an expression from its form and the values of its parts. -/
def combine (lookup : String → Option Value) : Form → List (Option Value) → Option Value
  | .string s, _ => some (.text s)
  | .number x, _ => some (.number x)
  | .boolean b, _ => some (.boolean b)
  | .null, _ => some .null
  | .template texts, values => (interleave texts values).map .text
  | .parenthesized, [value] => value
  | .typed, [value] => value
  | .plus, [left, right] => left.bind fun a => right.bind fun b => some (a.add b)
  | .unary operator, [operand] => operand.bind (applyUnary operator)
  | .identifier name, _ => lookup name
  | _, _ => none

theorem evaluateEach_eq_map (lookup : String → Option Value) (nodes : List Node) :
    evaluateEach lookup nodes = nodes.map (evaluateWith lookup) := by
  induction nodes with
  | nil => rw [evaluateEach, List.map_nil]
  | cons node nodes ih => rw [evaluateEach, ih, List.map_cons]

theorem evaluateWith_eq_combine (form : Form) (span : Span) (nodes : List Node) :
    evaluateWith lookup (.mk form span nodes) =
      combine lookup form (nodes.map (evaluateWith lookup)) := by
  cases form with
  | template texts =>
      rw [evaluateWith, evaluateEach_eq_map]
      rfl
  | parenthesized | typed | plus | unary =>
      rcases nodes with _ | ⟨a, _ | ⟨b, _ | ⟨c, rest⟩⟩⟩ <;> rfl
  | _ => rfl

/-- Sites have no value. -/
theorem combine_of_isSite {node : Node} (site : isSite node = true)
    (values : List (Option Value)) : combine lookup node.form values = none := by
  rw [isSite.eq_def] at site
  split at site
  · rfl
  · rfl
  · exact absurd site (by simp)

theorem Leaves.map_evaluateWith (left : Leaves nodes nodes') :
    nodes'.map (evaluateWith lookup) = nodes.map (evaluateWith lookup) := by
  induction left with
  | nil => rfl
  | @cons node children nodes nodes' _ _ ih ih' =>
      rw [List.map_cons, List.map_cons, ih']
      congr 1
      obtain ⟨form, span, parts⟩ := node
      rw [evaluateWith_eq_combine, evaluateWith_eq_combine]
      cases site : isSite (.mk form span parts) with
      | false => exact congrArg _ (ih site)
      | true => rw [combine_of_isSite site, ← combine_of_isSite site]; rfl

/-- The evaluator of constants is stable. -/
theorem stable_evaluate (constants : Binding.Constants) : Stable (evaluate constants) :=
  fun left => left.map_evaluateWith

end Constants

/-! ### Keys and holders -/

section Values

variable {evaluator : Evaluator} {node node' : Node} {nodes nodes' : List Node}
  {holder holder' : Holder} {draft draft' : Draft} {content : Content}

theorem SameValue.refl (evaluator : Evaluator) (holder : Holder) :
    SameValue evaluator holder holder :=
  ⟨rfl, rfl, rfl⟩

theorem Stable.value_eq (stable : Stable evaluator) (left : Leaves [node] [node']) :
    evaluator node' = evaluator node := by
  simpa using stable left

theorem Stable.expression (stable : Stable evaluator) (left : Leaves [node] [node']) :
    SameValue evaluator (.expression node) (.expression node') := by
  obtain ⟨children, rfl, -⟩ := Leaves.single_iff.mp left
  exact ⟨stable.value_eq left, rfl, rfl⟩

/-- A value in braces is that of the single expression inside. -/
theorem Stable.container (stable : Stable evaluator) (left : Leaves nodes nodes') (span : Span)
    (place : Nat) :
    (Holder.attribute (some (.mk .container span nodes')) place).value evaluator =
      (Holder.attribute (some (.mk .container span nodes)) place).value evaluator := by
  have values := stable left
  rcases left with _ | ⟨inside, _ | ⟨inside', behind⟩⟩
  · rfl
  · exact (List.cons_eq_cons.mp values).1
  · rfl

theorem Stable.attribute (stable : Stable evaluator) (place : Nat)
    (left : Leaves nodes nodes') :
    SameValue evaluator (.attribute nodes.head? place) (.attribute nodes'.head? place) := by
  cases left with
  | nil => exact .refl _ _
  | @cons node children nodes nodes' inside behind =>
      obtain ⟨form, span, parts⟩ := node
      cases form with
      | container => exact ⟨stable.container (inside rfl) span place, rfl, rfl⟩
      | _ => exact ⟨rfl, rfl, rfl⟩

theorem Stable.keyText_eq (stable : Stable evaluator) (left : Leaves [node] [node']) :
    keyText evaluator node' = keyText evaluator node := by
  obtain ⟨children, rfl, inside⟩ := Leaves.single_iff.mp left
  obtain ⟨form, span, parts⟩ := node
  cases form with
  | computedKey =>
      have inside := inside rfl
      have values := stable inside
      rcases inside with _ | ⟨inside, _ | ⟨inside', behind⟩⟩
      · rfl
      · simp only [keyText, Node.form_mk, Node.span_mk, (List.cons_eq_cons.mp values).1]
      · rfl
  | key k => cases k <;> rfl
  | _ => rfl

/-! ### Drafts -/

theorem SameValue.fieldText_eq (same : SameValue evaluator holder holder') (field : Field) :
    fieldText evaluator field holder' = fieldText evaluator field holder := by
  have text (field : Field) : holder'.text evaluator field = holder.text evaluator field := by
    simp only [Holder.text, same.value, same.place]
  have canonical (text : String) : canonicalText holder' text = canonicalText holder text := by
    simp only [canonicalText, same.raw, same.place]
  simp only [fieldText, text, canonical]

theorem Related.resolveOnto_eq (related : Related (SameValue evaluator) draft draft')
    (content : Content) :
    Draft.resolveOnto evaluator content draft' = Draft.resolveOnto evaluator content draft := by
  induction related generalizing content with
  | nil => rfl
  | cons same rest ih => simp only [Draft.resolveOnto, same.fieldText_eq, ih]

theorem Related.resolve_eq (related : Related (SameValue evaluator) draft draft') :
    draft'.resolve evaluator = draft.resolve evaluator :=
  related.resolveOnto_eq .empty

theorem Stable.ofAttributes (stable : Stable evaluator) (convention : Convention)
    (left : Leaves nodes nodes') :
    Related (SameValue evaluator) (.ofAttributes convention nodes)
      (.ofAttributes convention nodes') :=
  related_ofAttributes stable.attribute convention left

theorem Stable.argument (stable : Stable evaluator) (left : Leaves nodes nodes')
    (position : Nat) :
    (Draft.argument? nodes position = none ∧ Draft.argument? nodes' position = none) ∨
      ∃ e e', Draft.argument? nodes position = some e ∧
        Draft.argument? nodes' position = some e' ∧
        SameValue evaluator (.expression e) (.expression e') := by
  induction left generalizing position with
  | nil => exact .inl ⟨rfl, rfl⟩
  | @cons node children nodes nodes' inside behind _ ih =>
      cases position with
      | succ position => exact ih position
      | zero =>
          have same := stable.expression (Leaves.cons inside .nil)
          obtain ⟨form, span, parts⟩ := node
          cases form with
          | spread => exact .inl ⟨rfl, rfl⟩
          | _ => exact .inr ⟨_, _, rfl, rfl, same⟩

theorem Stable.ofArguments (stable : Stable evaluator) (left : Leaves nodes nodes') :
    Related (SameValue evaluator) (.ofArguments nodes) (.ofArguments nodes') := by
  rw [Draft.ofArguments, Draft.ofArguments]
  obtain ⟨missing, missing'⟩ | ⟨e, e', here, here', same⟩ := stable.argument left 0
  · obtain ⟨absent, absent'⟩ | ⟨c, c', found, found', comment⟩ := stable.argument left 2
    · simp only [missing, missing', absent, absent']
      exact .nil
    · simp only [missing, missing', found, found']
      exact Related.nil.insert comment
  · have message : Related (SameValue evaluator)
        [(.id, .expression e), (.defaultMessage, .expression e)]
        [(.id, .expression e'), (.defaultMessage, .expression e')] :=
      .cons same (.cons same .nil)
    obtain ⟨absent, absent'⟩ | ⟨c, c', found, found', comment⟩ := stable.argument left 2
    · simp only [here, here', absent, absent']
      exact message
    · simp only [here, here', found, found']
      exact message.insert comment

end Values

/-! ### Attributes that stay -/

section Attributes

variable {nodes nodes' : List Node}

theorem undescribed_addAttribute (convention : Convention) (draft : Draft) (node : Node) :
    (addAttribute convention draft node).undescribed =
      if keepsAttribute node = true then addAttribute convention draft.undescribed node
      else draft.undescribed := by
  by_cases named : ∃ name, node.form = .attribute name
  · obtain ⟨name, form⟩ := named
    obtain ⟨_, span, parts⟩ := node
    cases form
    rw [addAttribute, undescribed_insertKey, keepsAttribute, addAttribute]
    by_cases described : name = descriptionKey <;> simp [described]
  · rw [addAttribute_other (not_exists.mp named), addAttribute_other (not_exists.mp named),
      ite_self]

/-- The attributes that stay make the draft without its description. -/
theorem ofAttributes_filter (convention : Convention) (attributes : List Node) :
    Draft.ofAttributes convention (attributes.filter keepsAttribute) =
      (Draft.ofAttributes convention attributes).undescribed := by
  rw [ofAttributes_eq_foldl, ofAttributes_eq_foldl]
  suffices extended : ∀ draft : Draft,
      (attributes.filter keepsAttribute).foldl (addAttribute convention) draft.undescribed =
        (attributes.foldl (addAttribute convention) draft).undescribed from extended []
  induction attributes with
  | nil => exact fun _ => rfl
  | cons node attributes ih =>
      intro draft
      have step := undescribed_addAttribute convention draft node
      cases kept : keepsAttribute node with
      | false =>
          rw [kept, if_neg Bool.false_ne_true] at step
          rw [List.filter_cons_of_neg (by simp [kept]), List.foldl_cons, ← step, ih]
      | true =>
          rw [kept, if_pos rfl] at step
          rw [List.filter_cons_of_pos kept, List.foldl_cons, List.foldl_cons, ← step, ih]

theorem keepsAttribute_mk (node : Node) (children : List Node) :
    keepsAttribute (.mk node.form node.span children) = keepsAttribute node := by
  obtain ⟨form, span, parts⟩ := node
  cases form <;> rfl

/-- What is left of nodes has a property that all of them have. -/
theorem Leaves.forall_mem {P : Node → Prop} (left : Leaves nodes nodes')
    (each : ∀ {node node'}, Leaves [node] [node'] → P node → P node')
    (all : ∀ node ∈ nodes, P node) : ∀ node' ∈ nodes', P node' := by
  induction left with
  | nil => exact all
  | cons inside behind _ ih =>
      rw [List.forall_mem_cons] at all ⊢
      exact ⟨each (.cons inside .nil) all.1, ih all.2⟩

/-- Nothing more is dropped from what is left of attributes that stay. -/
theorem filter_keepsAttribute (left : Leaves (nodes.filter keepsAttribute) nodes') :
    nodes'.filter keepsAttribute = nodes' := by
  refine List.filter_eq_self.mpr (left.forall_mem (P := (keepsAttribute · = true)) ?_ ?_)
  · intro node node' left kept
    obtain ⟨children, rfl, -⟩ := Leaves.single_iff.mp left
    rwa [keepsAttribute_mk]
  · exact fun node here => (List.mem_filter.mp here).2

end Attributes

/-! ### Properties that stay -/

/-- What a property adds to a draft: the text of its key, if it is known, and the holder of
its value. -/
def addition? (evaluator : Evaluator) : Node → Option (Except Located (String × Holder))
  | .mk .property _ [key, value] =>
    some ((keyText evaluator key).map fun name => (name, .expression value))
  | .mk (.shorthand name) span _ =>
    some (.ok (name, .expression (.mk (.identifier name) span [])))
  | _ => none

section Properties

variable {evaluator : Evaluator} {convention : Convention} {node node' : Node}
  {nodes nodes' : List Node} {draft draft' extended : Draft}

theorem addProperties_cons (draft : Draft) (node : Node) (nodes : List Node) :
    Draft.addProperties evaluator convention draft (node :: nodes) =
      match addition? evaluator node with
      | none => Draft.addProperties evaluator convention draft nodes
      | some (.error located) => .error located
      | some (.ok (name, holder)) => Draft.addProperties evaluator convention
          (draft.insertKey convention name holder) nodes := by
  fun_cases addition? evaluator node with
  | case1 span key value =>
      rw [Draft.addProperties]
      cases keyText evaluator key <;> rfl
  | case2 name span children => rw [Draft.addProperties]
  | case3 noProperty noShorthand => rw [Draft.addProperties] <;> grind

theorem keepsProperty_eq (node : Node) :
    keepsProperty evaluator node = match addition? evaluator node with
      | some (.ok (name, _)) => name != descriptionKey
      | _ => true := by
  fun_cases addition? evaluator node with
  | case1 span key value =>
      rw [keepsProperty]
      cases keyText evaluator key <;> rfl
  | case2 name span children => rw [keepsProperty]
  | case3 noProperty noShorthand => rw [keepsProperty] <;> grind

/-- What is left of a property adds the same to a draft. -/
theorem Stable.addition (stable : Stable evaluator) (left : Leaves [node] [node']) :
    (addition? evaluator node = none ∧ addition? evaluator node' = none) ∨
      (∃ located, addition? evaluator node = some (.error located) ∧
        addition? evaluator node' = some (.error located)) ∨
      ∃ name holder holder', addition? evaluator node = some (.ok (name, holder)) ∧
        addition? evaluator node' = some (.ok (name, holder')) ∧
        SameValue evaluator holder holder' := by
  obtain ⟨children, rfl, inside⟩ := Leaves.single_iff.mp left
  obtain ⟨form, span, parts⟩ := node
  cases form with
  | property =>
      rcases inside rfl with _ | ⟨first, _ | ⟨second, _ | ⟨third, behind⟩⟩⟩
      · exact .inl ⟨rfl, rfl⟩
      · exact .inl ⟨rfl, rfl⟩
      · rename_i key keyParts value valueParts
        have keys := stable.keyText_eq (Leaves.cons first .nil)
        have values := stable.expression (Leaves.cons second .nil)
        simp only [addition?, Node.form_mk, Node.span_mk, keys]
        cases keyText evaluator key with
        | error located => exact .inr (.inl ⟨located, rfl, rfl⟩)
        | ok name => exact .inr (.inr ⟨name, _, _, rfl, rfl, values⟩)
      · exact .inl ⟨rfl, rfl⟩
  | shorthand name => exact .inr (.inr ⟨name, _, _, rfl, rfl, .refl _ _⟩)
  | _ => exact .inl ⟨rfl, rfl⟩

/-- The properties that are left make a related draft. -/
theorem Stable.addProperties (stable : Stable evaluator) (left : Leaves nodes nodes')
    (related : Related (SameValue evaluator) draft draft')
    (made : Draft.addProperties evaluator convention draft nodes = .ok extended) :
    ∃ extended', Draft.addProperties evaluator convention draft' nodes' = .ok extended' ∧
      Related (SameValue evaluator) extended extended' := by
  induction left generalizing draft draft' with
  | nil =>
      obtain rfl := Except.ok.inj made
      exact ⟨draft', rfl, related⟩
  | cons inside behind _ ih =>
      rw [addProperties_cons] at made ⊢
      obtain ⟨nothing, nothing'⟩ | ⟨located, unknown, unknown'⟩ |
        ⟨name, holder, holder', adds, adds', same⟩ := stable.addition (Leaves.cons inside .nil)
      · simp only [nothing, nothing'] at made ⊢
        exact ih related made
      · simp [unknown] at made
      · simp only [adds, adds'] at made ⊢
        exact ih (related.insertKey same convention name) made

/-- The properties that stay make the draft without its description. -/
theorem addProperties_filter
    (made : Draft.addProperties evaluator convention draft nodes = .ok extended) :
    Draft.addProperties evaluator convention draft.undescribed
      (nodes.filter (keepsProperty evaluator)) = .ok extended.undescribed := by
  induction nodes generalizing draft with
  | nil =>
      obtain rfl := Except.ok.inj made
      rfl
  | cons node nodes ih =>
      have kept : keepsProperty evaluator node = _ := keepsProperty_eq node
      rw [addProperties_cons] at made
      cases adds : addition? evaluator node with
      | none =>
          simp only [adds] at kept made
          rw [List.filter_cons_of_pos kept, addProperties_cons, adds]
          exact ih made
      | some addition =>
          cases addition with
          | error located => simp [adds] at made
          | ok named =>
              obtain ⟨name, holder⟩ := named
              simp only [adds] at kept made
              have later := ih made
              rw [undescribed_insertKey] at later
              by_cases described : name = descriptionKey
              · rw [if_pos described] at later
                rwa [List.filter_cons_of_neg (by simp [kept, described])]
              · rw [if_neg described] at later
                rw [List.filter_cons_of_pos (by simp [kept, described]), addProperties_cons, adds]
                exact later

theorem Stable.keepsProperty_eq (stable : Stable evaluator) (left : Leaves [node] [node']) :
    keepsProperty evaluator node' = keepsProperty evaluator node := by
  rw [Extraction.keepsProperty_eq, Extraction.keepsProperty_eq]
  obtain ⟨nothing, nothing'⟩ | ⟨located, unknown, unknown'⟩ |
    ⟨name, holder, holder', adds, adds', -⟩ := stable.addition left
  · rw [nothing, nothing']
  · rw [unknown, unknown']
  · rw [adds, adds']

/-- Nothing more is dropped from what is left of properties that stay. -/
theorem Stable.filter_keepsProperty (stable : Stable evaluator)
    (left : Leaves (nodes.filter (keepsProperty evaluator)) nodes') :
    nodes'.filter (keepsProperty evaluator) = nodes' := by
  refine List.filter_eq_self.mpr
    (left.forall_mem (P := (keepsProperty evaluator · = true)) (fun left kept => ?_) ?_)
  · rwa [stable.keepsProperty_eq left]
  · exact fun node here => (List.mem_filter.mp here).2

end Properties

end Extraction

end MessageCatalog
