import Mathlib.Data.List.Forall2
import MessageCatalog.Proofs.Catalog.Location
import MessageCatalog.Proofs.Descriptor.Agreement
import MessageCatalog.Proofs.Extraction.Frame
import MessageCatalog.Proofs.Extraction.Rewalk
import MessageCatalog.Proofs.Extraction.Stability

/-!
# The shapes of a message

The same message can be written as an element or as a call. A component has the fields of
a descriptor as attributes, a call that defines a message has them as properties; the
shorthand tag has a message and a comment, the shorthand call has them as arguments. All
of these make drafts that hold the same values, so that all of them do the same to the
catalog and fail in the same cases. Only the places differ.

The attributes of an element can themselves be written in two ways, with a literal in braces
or raw. This makes no difference but for the wording of one problem.
-/

namespace MessageCatalog

namespace Extraction

open Binding Catalog Descriptor Syntax

/-! ### Effects -/

/-- The failure of a declaration, and the catalog after it. -/
def Setting.effect (s : Setting) (p : Progress) (d : Declaration) :
    Option Failure × Catalog :=
  match d.draft.resolve s.evaluator with
  | .error located => (some (s.locate located), p.catalog)
  | .ok content =>
    match s.store p content d.place with
    | .ok q => (none, q.catalog)
    | .error failure => (some failure, p.catalog)

/-- Two outcomes are the same but for places: they fail with the same problem or not at all,
and the catalogs have the same entries but for their locations. -/
structure SameEffect (outcome outcome' : Outcome) : Prop where
  problem : outcome'.failure.map Failure.problem = outcome.failure.map Failure.problem
  catalog : outcome'.progress.catalog.unlocated = outcome.progress.catalog.unlocated

section Effects

variable {s : Setting} {p : Progress} {span : Span}

theorem store_unlocated (s : Setting) (p : Progress) (content : Content) (place place' : Nat) :
    (∃ problem, s.store p content place = .error ⟨problem, s.context place⟩ ∧
        s.store p content place' = .error ⟨problem, s.context place'⟩) ∨
      ∃ catalog catalog', s.store p content place = .ok { p with catalog } ∧
        s.store p content place' = .ok { p with catalog := catalog' } ∧
        catalog'.unlocated = catalog.unlocated := by
  have first := insert_unlocated p.catalog content (s.location place)
  have second := insert_unlocated p.catalog content (s.location place')
  rw [store_eq, store_eq]
  rw [first] at second
  cases inserted : p.catalog.insert content (s.location place) with
  | error problem =>
      cases inserted' : p.catalog.insert content (s.location place') with
      | error problem' =>
          rw [inserted, inserted'] at second
          obtain rfl := Except.error.inj second
          exact .inl ⟨problem, rfl, rfl⟩
      | ok result' => simp [inserted, inserted', Except.map] at second
  | ok result =>
      cases inserted' : p.catalog.insert content (s.location place') with
      | error problem' => simp [inserted, inserted', Except.map] at second
      | ok result' =>
          rw [inserted, inserted'] at second
          have same := congrArg Prod.fst (Except.ok.inj second)
          exact .inr ⟨result.1, result'.1, rfl, rfl, same.symm⟩

/-- Declarations whose drafts agree have the same effect but for places. -/
theorem effect_alike {draft draft' : Draft}
    (related : Related (Alike s.evaluator False fun _ _ => True) draft draft')
    (p : Progress) (place place' : Nat) :
    (s.effect p ⟨draft', place'⟩).1.map Failure.problem =
        (s.effect p ⟨draft, place⟩).1.map Failure.problem ∧
      (s.effect p ⟨draft', place'⟩).2.unlocated = (s.effect p ⟨draft, place⟩).2.unlocated := by
  have resolved := resolve_alike related
  rw [Setting.effect, Setting.effect]
  dsimp only
  generalize draft.resolve s.evaluator = result at resolved ⊢
  generalize draft'.resolve s.evaluator = result' at resolved ⊢
  cases resolved with
  | error restated =>
      obtain rfl := restated_eq restated
      exact ⟨rfl, rfl⟩
  | ok content =>
      obtain ⟨problem, refused, refused'⟩ | ⟨catalog, catalog', stored, stored', same⟩ :=
        store_unlocated s p content place place'
      · simp [refused, refused']
      · simp [stored, stored', same]

/-- An element that declares a message has the effect of its declaration. -/
theorem visitElement_effect {tag : Tag} {convention : Convention} {attributes : List Node}
    (fresh : ⟨.element, span⟩ ∉ p.processed)
    (role : s.tagRole? tag = some (.message convention))
    (message : (Draft.ofAttributes convention attributes).has .defaultMessage = true) :
    s.effect p ⟨.ofAttributes convention attributes, span.start⟩ =
      ((s.visit p (.mk (.element tag) span attributes)).failure,
        (s.visit p (.mk (.element tag) span attributes)).progress.catalog) := by
  rw [Setting.visit, Setting.visitElement, if_neg (by simpa using fresh), role, Setting.effect]
  simp only [Setting.visitMessage, message, Bool.not_true, Bool.false_eq_true, if_false]
  cases (Draft.ofAttributes convention attributes).resolve s.evaluator with
  | error located => rfl
  | ok content =>
      dsimp only
      cases s.store p content span.start <;> rfl

/-- An element without a message has no effect. -/
theorem visitElement_no_effect {tag : Tag} {convention : Convention} {attributes : List Node}
    (fresh : ⟨.element, span⟩ ∉ p.processed)
    (role : s.tagRole? tag = some (.message convention))
    (message : (Draft.ofAttributes convention attributes).has .defaultMessage = false) :
    s.visit p (.mk (.element tag) span attributes) =
      ⟨.mk (.element tag) span attributes, p, none⟩ := by
  rw [Setting.visit, Setting.visitElement, if_neg (by simpa using fresh), role]
  simp [Setting.visitMessage, message]

theorem visitShorthand_effect {callee : Node} {arguments : List Node}
    (fresh : ⟨.call, span⟩ ∉ p.processed) (role : s.calleeRole? callee = some .shorthand) :
    s.effect p ⟨.ofArguments arguments, span.start⟩ =
      ((s.visit p (.mk .call span (callee :: arguments))).failure,
        (s.visit p (.mk .call span (callee :: arguments))).progress.catalog) := by
  rw [Setting.visit, visitCall_shorthand fresh role, Setting.effect, Setting.visitShorthand]
  cases (Draft.ofArguments arguments).resolve s.evaluator with
  | error located => rfl
  | ok content =>
      dsimp only
      cases s.store p content span.start <;> rfl

/-- A call that defines one message has the effect of its object. -/
theorem visitDefinition_effect {callee : Node} (fresh : ⟨.call, span⟩ ∉ p.processed)
    (role : s.calleeRole? callee = some .one) (inner : Span) (properties rest : List Node) :
    (s.visit p (.mk .call span (callee :: .mk .object inner properties :: rest))).failure =
        (s.visitDescriptor p inner properties).failure ∧
      (s.visit p (.mk .call span
          (callee :: .mk .object inner properties :: rest))).progress.catalog =
        (s.visitDescriptor p inner properties).progress.catalog := by
  obtain ⟨-, catalog, failure⟩ :=
    visitDefinition_eq s p false span callee inner properties rest rfl
  have defines : s.calleeRole? callee = some (if false then .many else .one) := role
  rw [Setting.visit, visitCall_definition fresh defines]
  exact ⟨failure, catalog⟩

theorem visitDescriptor_effect (p : Progress) (span : Span) {properties : List Node}
    {draft : Draft}
    (drafted : Draft.ofProperties s.evaluator .standard properties = .ok draft)
    (message : draft.has .defaultMessage = true) :
    s.effect p ⟨draft, span.start⟩ = ((s.visitDescriptor p span properties).failure,
      (s.visitDescriptor p span properties).progress.catalog) := by
  rw [Setting.effect, Setting.visitDescriptor, drafted]
  simp only [message, Bool.not_true, Bool.false_eq_true, if_false]
  cases draft.resolve s.evaluator with
  | error located => rfl
  | ok content =>
      dsimp only
      cases s.store p content span.start <;> rfl

theorem visitDescriptor_no_effect {properties : List Node} {draft : Draft}
    (drafted : Draft.ofProperties s.evaluator .standard properties = .ok draft)
    (message : draft.has .defaultMessage = false) :
    s.visitDescriptor p span properties = ⟨.mk .object span properties, p, none⟩ := by
  rw [Setting.visitDescriptor, drafted]
  simp [message]

end Effects

/-! ### Attributes and properties -/

/-- An attribute and a property that have the same name and the same expression as value. -/
inductive SameMember : Node → Node → Prop
  | mk (name : String) (value : Node) (span span' inner key : Span) (parts : List Node) :
      SameMember (.mk (.attribute name) span [.mk .container inner [value]])
        (.mk .property span' [.mk (.key (.named name)) key parts, value])

section Members

variable {s : Setting} {p : Progress} {attributes properties : List Node}

/-- Attributes and properties that are the same members make drafts that agree. -/
theorem ofProperties_alike (evaluator : Evaluator) (convention : Convention)
    (members : List.Forall₂ SameMember attributes properties) :
    ∃ draft, Draft.ofProperties evaluator convention properties = .ok draft ∧
      Related (Alike evaluator False fun _ _ => True)
        (.ofAttributes convention attributes) draft := by
  rw [ofAttributes_eq_foldl, Draft.ofProperties]
  suffices extended : ∀ {draft draft' : Draft},
      Related (Alike evaluator False fun _ _ => True) draft draft' →
        ∃ extended, Draft.addProperties evaluator convention draft' properties = .ok extended ∧
          Related (Alike evaluator False fun _ _ => True)
            (attributes.foldl (addAttribute convention) draft) extended from extended .nil
  induction members with
  | nil => exact fun related => ⟨_, rfl, related⟩
  | cons member _ ih =>
      intro draft draft' related
      cases member with
      | mk name value span span' inner key parts =>
          have alike : Alike evaluator False (fun _ _ => True)
              (.attribute (some (.mk .container inner [value])) span.start)
              (.expression value) := ⟨rfl, trivial, .inl rfl⟩
          exact ih (related.insertKey alike convention name)

theorem sameEffect_members {tag : Tag} {callee : Node} {span span' inner : Span}
    {rest : List Node} (component : s.tagRole? tag = some (.message .standard))
    (definition : s.calleeRole? callee = some .one)
    (fresh : ⟨.element, span⟩ ∉ p.processed) (fresh' : ⟨.call, span'⟩ ∉ p.processed)
    (members : List.Forall₂ SameMember attributes properties) :
    SameEffect (s.visit p (.mk (.element tag) span attributes))
      (s.visit p (.mk .call span' (callee :: .mk .object inner properties :: rest))) := by
  obtain ⟨draft, drafted, related⟩ := ofProperties_alike s.evaluator .standard members
  obtain ⟨failure, catalog⟩ := visitDefinition_effect fresh' definition inner properties rest
  have has : draft.has .defaultMessage =
      (Draft.ofAttributes .standard attributes).has .defaultMessage := related.has_eq
  cases message : (Draft.ofAttributes .standard attributes).has .defaultMessage with
  | false =>
      rw [visitDescriptor_no_effect drafted (has.trans message)] at failure catalog
      rw [visitElement_no_effect fresh component message]
      exact ⟨congrArg _ failure, congrArg _ catalog⟩
  | true =>
      have own := visitElement_effect fresh component message
      have other := visitDescriptor_effect p inner drafted (has.trans message)
      have same := effect_alike related p span.start inner.start
      rw [own, other] at same
      exact ⟨(congrArg _ failure).trans same.1, (congrArg _ catalog).trans same.2⟩

end Members

/-! ### Shorthands -/

/-- The attribute `name={value}`. -/
def bracedAttribute (name : String) (span inner : Span) (value : Node) : Node :=
  .mk (.attribute name) span [.mk .container inner [value]]

section Shorthands

variable {s : Setting} {p : Progress} {tag : Tag} {callee e c : Node} {span span' : Span}
  {arguments : List Node}

/-- A shorthand element whose draft agrees with that of a shorthand call has its effect. -/
theorem sameEffect_shorthand {attributes : List Node}
    (element : s.tagRole? tag = some (.message .shorthand))
    (call : s.calleeRole? callee = some .shorthand)
    (fresh : ⟨.element, span⟩ ∉ p.processed) (fresh' : ⟨.call, span'⟩ ∉ p.processed)
    (message : (Draft.ofAttributes .shorthand attributes).has .defaultMessage = true)
    (related : Related (Alike s.evaluator False fun _ _ => True)
      (.ofAttributes .shorthand attributes) (.ofArguments arguments)) :
    SameEffect (s.visit p (.mk (.element tag) span attributes))
      (s.visit p (.mk .call span' (callee :: arguments))) := by
  have same := effect_alike related p span.start span'.start
  rw [visitElement_effect fresh element message, visitShorthand_effect fresh' call] at same
  exact ⟨same.1, same.2⟩

theorem related_message (evaluator : Evaluator) (span inner : Span) (plain : e.form ≠ .spread)
    (first : arguments[0]? = some e) (third : Draft.argument? arguments 2 = none) :
    Related (Alike evaluator False fun _ _ => True)
      (.ofAttributes .shorthand [bracedAttribute "message" span inner e])
      (.ofArguments arguments) := by
  have alike : Alike evaluator False (fun _ _ => True)
      (.attribute (some (.mk .container inner [e])) span.start) (.expression e) :=
    ⟨rfl, trivial, .inl rfl⟩
  rw [Draft.ofArguments, argument?_eq_some_iff.mpr ⟨first, plain⟩, third]
  exact .cons alike (.cons alike .nil)

theorem related_message_comment (evaluator : Evaluator) (span inner span' inner' : Span)
    (plain : e.form ≠ .spread) (plain' : c.form ≠ .spread) (first : arguments[0]? = some e)
    (third : arguments[2]? = some c) :
    Related (Alike evaluator False fun _ _ => True)
      (.ofAttributes .shorthand [bracedAttribute "message" span inner e,
        bracedAttribute "comment" span' inner' c])
      (.ofArguments arguments) := by
  have alike (span inner : Span) (e : Node) : Alike evaluator False (fun _ _ => True)
      (.attribute (some (.mk .container inner [e])) span.start) (.expression e) :=
    ⟨rfl, trivial, .inl rfl⟩
  rw [Draft.ofArguments, argument?_eq_some_iff.mpr ⟨first, plain⟩,
    argument?_eq_some_iff.mpr ⟨third, plain'⟩]
  exact .cons (alike ..) (.cons (alike ..) (.cons (alike ..) .nil))

end Shorthands

/-! ### Raw attributes -/

/-- The second attribute is the first one, or it has its text raw instead of as a literal in
braces. -/
inductive Requoted : Node → Node → Prop
  | same (node : Node) : Requoted node node
  | raw (name text : String) {span span' : Span} (start : span'.start = span.start)
      (inner literal literal' : Span) (parts parts' : List Node) :
      Requoted (bracedAttribute name span inner (.mk (.string text) literal parts))
        (.mk (.attribute name) span' [.mk (.string text) literal' parts'])

/-- Two visits of an element whose attributes are quoted in another way are the same, but
for the wording of the problem that a message is malformed. -/
structure SameButQuotes (outcome outcome' : Outcome) : Prop where
  form : outcome'.node.form = outcome.node.form
  span : outcome'.node.span = outcome.node.span
  attributes : List.Forall₂ Requoted outcome.node.children outcome'.node.children
  progress : outcome'.progress = outcome.progress
  failure : Option.Rel (fun failure failure' => failure'.context = failure.context ∧
      Restated True failure.problem failure'.problem) outcome.failure outcome'.failure

section Quotes

variable {s : Setting} {p : Progress} {constants : Constants} {attributes attributes' : List Node}

theorem Requoted.keepsAttribute_iff {node node' : Node} (requoted : Requoted node node') :
    keepsAttribute node = true ↔ keepsAttribute node' = true := by
  cases requoted <;> exact Iff.rfl

/-- Attributes that are quoted in another way make drafts that agree. -/
theorem ofAttributes_requoted (constants : Constants) (convention : Convention)
    (requoted : List.Forall₂ Requoted attributes attributes') :
    Related (Alike (Constant.evaluate constants) True Eq) (.ofAttributes convention attributes)
      (.ofAttributes convention attributes') := by
  rw [ofAttributes_eq_foldl, ofAttributes_eq_foldl]
  suffices extended : ∀ {draft draft'},
      Related (Alike (Constant.evaluate constants) True Eq) draft draft' →
        Related (Alike (Constant.evaluate constants) True Eq)
          (attributes.foldl (addAttribute convention) draft)
          (attributes'.foldl (addAttribute convention) draft') from extended .nil
  induction requoted with
  | nil => exact id
  | @cons node node' _ _ first _ ih =>
      intro draft draft' related
      refine ih ?_
      cases first with
      | same =>
          by_cases named : ∃ name, node.form = .attribute name
          · obtain ⟨name, form⟩ := named
            cases node
            cases form
            exact related.insertKey ⟨rfl, rfl, .inl rfl⟩ convention name
          · rw [addAttribute_other (not_exists.mp named), addAttribute_other]
            · exact related
            · exact not_exists.mp named
      | raw name text start inner literal literal' parts parts' =>
          have alike : Alike (Constant.evaluate constants) True Eq
              (.attribute (some (.mk .container inner [.mk (.string text) literal parts])) _)
              (.attribute (some (.mk (.string text) literal' parts')) _) :=
            ⟨rfl, start.symm, .inr ⟨trivial, rfl⟩⟩
          exact related.insertKey alike convention name

theorem visit_requoted (constant : s.evaluator = Constant.evaluate constants) (tag : Tag)
    (span : Span) (requoted : List.Forall₂ Requoted attributes attributes') :
    SameButQuotes (s.visit p (.mk (.element tag) span attributes))
      (s.visit p (.mk (.element tag) span attributes')) := by
  have idle (q : Progress) : SameButQuotes ⟨.mk (.element tag) span attributes, q, none⟩
      ⟨.mk (.element tag) span attributes', q, none⟩ :=
    ⟨rfl, rfl, requoted, rfl, .none⟩
  rw [Setting.visit, Setting.visit, Setting.visitElement, Setting.visitElement]
  split
  · exact idle p
  · cases role : s.tagRole? tag with
    | none => exact idle p
    | some found =>
        cases found with
        | unsupported component => exact idle _
        | message convention =>
            have related := ofAttributes_requoted constants convention requoted
            have resolved := resolve_alike related
            dsimp only
            rw [Setting.visitMessage, Setting.visitMessage, related.has_eq, constant]
            generalize (Draft.ofAttributes convention attributes).resolve _ = result
              at resolved ⊢
            generalize (Draft.ofAttributes convention attributes').resolve _ = result'
              at resolved ⊢
            split
            · exact idle p
            · cases resolved with
              | error restated same =>
                  exact ⟨rfl, rfl, requoted, rfl, .some ⟨congrArg s.context same.symm, restated⟩⟩
              | ok content =>
                  have kept := List.rel_filter (fun _ _ first => first.keepsAttribute_iff) requoted
                  dsimp only
                  cases s.store p content span.start with
                  | ok q => exact ⟨rfl, rfl, kept, rfl, .none⟩
                  | error failure => exact ⟨rfl, rfl, kept, rfl, .some ⟨rfl, .same _⟩⟩

end Quotes

/-- All shapes of a message agree. A component and a call that defines a message have the
same effect if they have the same members, and the shorthand element and the shorthand call
if they have the same message and comment. If the evaluator is that of constants, then it
makes no difference whether the text of an attribute is in braces or raw, but for the wording
of the problem that it is malformed. -/
theorem shapes_agree (s : Setting) (p : Progress) :
    (∀ (tag : Tag) (callee : Node) (span span' inner : Span)
        (attributes properties rest : List Node),
      s.tagRole? tag = some (.message .standard) → s.calleeRole? callee = some .one →
      ⟨.element, span⟩ ∉ p.processed → ⟨.call, span'⟩ ∉ p.processed →
      List.Forall₂ SameMember attributes properties →
      SameEffect (s.visit p (.mk (.element tag) span attributes))
        (s.visit p (.mk .call span' (callee :: .mk .object inner properties :: rest)))) ∧
    (∀ (tag : Tag) (callee e x c : Node)
        (span span' message messageInner comment commentInner : Span) (rest : List Node),
      s.tagRole? tag = some (.message .shorthand) →
      s.calleeRole? callee = some .shorthand →
      ⟨.element, span⟩ ∉ p.processed → ⟨.call, span'⟩ ∉ p.processed →
      e.form ≠ .spread → c.form ≠ .spread →
      SameEffect
          (s.visit p (.mk (.element tag) span [bracedAttribute "message" message messageInner e,
            bracedAttribute "comment" comment commentInner c]))
          (s.visit p (.mk .call span' (callee :: e :: x :: c :: rest))) ∧
        SameEffect
          (s.visit p (.mk (.element tag) span [bracedAttribute "message" message messageInner e]))
          (s.visit p (.mk .call span' [callee, e]))) ∧
    ∀ (constants : Constants) (tag : Tag) (span : Span) (attributes attributes' : List Node),
      s.evaluator = Constant.evaluate constants →
      List.Forall₂ Requoted attributes attributes' →
      SameButQuotes (s.visit p (.mk (.element tag) span attributes))
        (s.visit p (.mk (.element tag) span attributes')) := by
  refine ⟨?_, ?_, ?_⟩
  · intro tag callee span span' inner attributes properties rest component definition fresh fresh'
    exact sameEffect_members component definition fresh fresh'
  · intro tag callee e x c span span' message messageInner comment commentInner rest element call
      fresh fresh' plain plain'
    exact ⟨sameEffect_shorthand element call fresh fresh' rfl
        (related_message_comment s.evaluator _ _ _ _ plain plain' rfl rfl),
      sameEffect_shorthand element call fresh fresh' rfl
        (related_message s.evaluator _ _ plain rfl rfl)⟩
  · intro constants tag span attributes attributes' constant requoted
    exact visit_requoted constant tag span requoted

/-- How messages are extracted from a unit that imports a component and a function. -/
def importingSetting : Setting where
  options := .standard
  evaluator := Constant.evaluate .empty
  resolver := .ofImports [⟨"Message", "FormattedMessage", "react-intl"⟩,
    ⟨"define", "defineMessage", "react-intl"⟩]
  file := "test.tsx"
  source := .ofString ""

/-- The string literal of a text. -/
def textLiteral (text : String) : Node :=
  .mk (.string text) ⟨0, 0⟩ []

/-- A component and a definition with two members, the shorthands with a message and a
comment, and a malformed message in braces and raw. -/
theorem shapes_agree_literals :
    SameEffect
        (importingSetting.visit (.start .standard) (.mk (.element (.plain "Message")) ⟨0, 1⟩
          [bracedAttribute "id" ⟨0, 0⟩ ⟨0, 0⟩ (textLiteral "a"),
            bracedAttribute "defaultMessage" ⟨0, 0⟩ ⟨0, 0⟩ (textLiteral "b")]))
        (importingSetting.visit (.start .standard) (.mk .call ⟨0, 1⟩
          [.mk (.identifier "define") ⟨0, 0⟩ [], .mk .object ⟨0, 0⟩
            [.mk .property ⟨0, 0⟩ [.mk (.key (.named "id")) ⟨0, 0⟩ [], textLiteral "a"],
              .mk .property ⟨0, 0⟩
                [.mk (.key (.named "defaultMessage")) ⟨0, 0⟩ [], textLiteral "b"]]])) ∧
      SameEffect
        (importingSetting.visit (.start .standard) (.mk (.element (.plain shorthandTag)) ⟨0, 1⟩
          [bracedAttribute "message" ⟨0, 0⟩ ⟨0, 0⟩ (textLiteral "a"),
            bracedAttribute "comment" ⟨0, 0⟩ ⟨0, 0⟩ (textLiteral "b")]))
        (importingSetting.visit (.start .standard) (.mk .call ⟨0, 1⟩
          [.mk (.identifier shorthandCallee) ⟨0, 0⟩ [], textLiteral "a", .mk .null ⟨0, 0⟩ [],
            textLiteral "b"])) ∧
      SameButQuotes
        (importingSetting.visit (.start .standard) (.mk (.element (.plain shorthandTag)) ⟨0, 1⟩
          [bracedAttribute "message" ⟨0, 0⟩ ⟨0, 0⟩ (textLiteral "\\\\\x7b")]))
        (importingSetting.visit (.start .standard) (.mk (.element (.plain shorthandTag)) ⟨0, 1⟩
          [.mk (.attribute "message") ⟨0, 0⟩ [textLiteral "\\\\\x7b"]])) := by
  obtain ⟨members, shorthands, quotes⟩ := shapes_agree importingSetting (.start .standard)
  refine ⟨?_, ?_, ?_⟩
  · refine members _ _ _ _ _ _ _ _ rfl rfl List.not_mem_nil List.not_mem_nil ?_
    exact .cons (.mk ..) (.cons (.mk ..) .nil)
  · exact (shorthands _ _ _ _ _ _ _ _ _ _ _ _ rfl rfl List.not_mem_nil List.not_mem_nil
      (by simp [textLiteral]) (by simp [textLiteral])).1
  · exact quotes .empty _ _ _ _ rfl (.cons (.raw _ _ rfl _ _ _ _ _) .nil)

end Extraction

end MessageCatalog
